import DhsTranslator.Service.Images

/-!
# The format of replies

The body of a response, as the documentation of the HTTP interface describes it.

- `Reply`, `Reply.read`: a status, and a result or a list of errors; `read_write`: replies are read as they were written;
- `ReplyTo`: which replies there are to a request;
- `reply_format`: whatever the whole translator replies is one of them, and requests for operations are all answered.
-/

namespace DhsTranslator

open Conc DhsService

/-! ## Reading replies -/

/-- A reply as a client sees it. -/
inductive Reply where
  | success (result : Option String)
  /-- errors with their types and messages -/
  | error (errors : List (String × String))
  deriving DecidableEq, Repr

/-- The document of a reply. -/
def Reply.write : Reply → AxiomNode
  | .success result => buildSuccessResponse (result.map .text)
  | .error errors => buildErrorResponses (errors.map fun e => createErrorNode e.1 e.2)

/-- The text of the first child with a name. -/
def AxiomNode.childText (n : AxiomNode) (name : String) : Option String := (n.named name).head?.bind AxiomNode.firstText

/-- An item of the list of errors. -/
def readError (n : AxiomNode) : Option (String × String) := do
  let type ← n.childText "type"
  let message ← n.childText "message"
  return (type, message)

/-- What a client reads. -/
def Reply.read (n : AxiomNode) : Option Reply :=
  if n.IsNamed RESPONSE_NODE_NAME then
    if n.childText STATUS_NODE_NAME = some SUCCESS_STATUS then some (.success (n.childText RESULT_NODE_NAME))
    else if n.childText STATUS_NODE_NAME = some ERROR_STATUS then do
      let errors ← (n.named ERRORS_NODE_NAME).head?
      return .error (← errors.items.mapM readError)
    else none
  else none

theorem readError_node (type message : String) : readError (createErrorNode type message) = some (type, message) := rfl

/-- The errors are read one by one. -/
theorem readErrors_nodes (errors : List (String × String)) :
    ((errors.map fun e => createErrorNode e.1 e.2).filter fun c => c.IsNamed "item").mapM readError = some errors := by
  induction errors with
  | nil => rfl
  | cons e errors ih =>
    have hitem : (createErrorNode e.1 e.2).IsNamed "item" := rfl
    rw [List.map_cons, List.filter_cons_of_pos (by simpa using hitem), List.mapM_cons, ih, readError_node]
    rfl

/-- **Replies are read as they were written.** -/
theorem read_write (r : Reply) : Reply.read r.write = some r := by
  cases r with
  | success result => cases result <;> rfl
  | error errors =>
    have hread : Reply.read (Reply.error errors).write =
        (((errors.map fun e => createErrorNode e.1 e.2).filter fun c => c.IsNamed "item").mapM readError).bind
          fun errors => some (.error errors) := by
      cases errors with
      | nil => rfl
      | cons e errors => rfl
    rw [hread, readErrors_nodes]
    rfl

/-! ## The replies there are -/

/-- The operations, by the name of the request. -/
def IsOperation (req : AxiomNode) : Prop :=
  req.IsNamed "createImage" ∨ req.IsNamed "setParameters" ∨ req.IsNamed "setKeywords"

/-- The replies to a request. -/
inductive ReplyTo (req : AxiomNode) : Reply → Prop
  | created (id : ImageId) (h : req.IsNamed "createImage") : ReplyTo req (.success (some id))
  | done (h : req.IsNamed "setParameters" ∨ req.IsNamed "setKeywords") : ReplyTo req (.success none)
  | creation (h : req.IsNamed "createImage") :
      ReplyTo req (.error [(DHS_ERROR, "DHS error while trying to create new data set.")])
  | lifetime (h : req.IsNamed "createImage" ∨ req.IsNamed "setParameters") :
      ReplyTo req (.error [(DHS_ERROR, "DHS error while trying to set data set lifetime.")])
  | contributors (h : req.IsNamed "createImage" ∨ req.IsNamed "setParameters") :
      ReplyTo req (.error [(DHS_ERROR, "DHS error while trying to set data set contributors.")])
  | keywords (h : req.IsNamed "setKeywords") :
      ReplyTo req (.error [(DHS_ERROR, "DHS error while trying to set data set keywords.")])
  | noId (h : IsOperation req) : ReplyTo req (.error [(BAD_REQUEST, "Could not parse image id.")])
  | noKeywords (h : req.IsNamed "setKeywords") : ReplyTo req (.error [(BAD_REQUEST, "Could not parse keywords.")])
  | internal (h : IsOperation req) :
      ReplyTo req (.error [(INTERNAL_ERROR, "Internal error processing request.")])

/-- The document is one of a reply to the request. -/
def IsReplyTo (req node : AxiomNode) : Prop := ∃ r, ReplyTo req r ∧ node = r.write

section Replies

variable {env : Env} {req : AxiomNode} {reply : AxiomNode} {acts : List (Act SvcSig)}

theorem CallsEnd.isReply {id : ImageId} {cs : List ParamCall} {ok : AxiomNode}
    (hop : req.IsNamed "createImage" ∨ req.IsNamed "setParameters") (h : CallsEnd id cs ok acts reply)
    (hok : IsReplyTo req ok) : IsReplyTo req reply := by
  have hop' : IsOperation req := hop.imp_right Or.inl
  cases h with
  | done => exact hok
  | failed done c rest out hcs hout =>
    cases out with
    | error what => exact ⟨_, .internal hop', rfl⟩
    | ok status =>
      cases c with
      | lifeTime lt => exact ⟨_, .lifetime hop, rfl⟩
      | contrib contribs => exact ⟨_, .contributors hop, rfl⟩

theorem CreateEnd.isReply (hop : req.IsNamed "createImage") (h : CreateEnd req acts reply) : IsReplyTo req reply := by
  cases h with
  | failed out hout =>
    cases out with
    | error what => exact ⟨_, .internal (Or.inl hop), rfl⟩
    | ok r => exact ⟨_, .creation hop, rfl⟩
  | bare id hc => exact ⟨_, .created id hop, rfl⟩
  | noId hc => exact ⟨_, .noId (Or.inl hop), rfl⟩
  | calls id hc hid hcalls => exact hcalls.isReply (Or.inl hop) ⟨_, .created id hop, rfl⟩

theorem stage_isReply (hop : req.IsNamed "setKeywords") {vars : KeywordsRequest} {msg : String} {st : Stage}
    (h : st.rest vars msg = .ret (some reply)) : IsReplyTo req reply := by
  have hop' : IsOperation req := Or.inr (Or.inr hop)
  cases st with
  | found t => cases h; exact ⟨_, .done (Or.inr hop), rfl⟩
  | recorded t => cases h; exact ⟨_, .done (Or.inr hop), rfl⟩
  | called t out =>
    rcases out with what | (_ | _ | code) <;> cases h
    · exact ⟨_, .internal hop', rfl⟩
    · exact ⟨_, .keywords hop, rfl⟩
    · exact ⟨_, .keywords hop, rfl⟩
  | _ => cases h

/-- **Every reply** is one of those. -/
theorem ends_isReply (h : Ends (serve env req) acts (.ok (some reply))) : IsReplyTo req reply := by
  by_cases hcreate : req.IsNamed "createImage"
  · obtain ⟨reply', hreply, hend⟩ := ends_createImage hcreate h
    cases hreply
    exact hend.isReply hcreate
  by_cases hparameters : req.IsNamed "setParameters"
  · rcases ends_setParameters hparameters h with ⟨_, _, hreply⟩ | ⟨_, reply', hreply, hend⟩
    · cases hreply
      exact ⟨_, .noId (Or.inr (Or.inl hparameters)), rfl⟩
    · cases hreply
      exact hend.isReply (Or.inr hparameters) ⟨_, .done (Or.inl hparameters), rfl⟩
  by_cases hkeywords : req.IsNamed "setKeywords"
  · cases hread : req.keywordsRequest env with
    | error e =>
      rw [serve_aborted hkeywords hread] at h
      cases e with
      | nullNode fn => cases (ends_raise.1 h).2
      | exception what =>
        cases (ends_ret.1 h).2
        exact ⟨_, .internal (Or.inr (Or.inr hkeywords)), rfl⟩
    | ok vars =>
      by_cases hok : vars.id ≠ "" ∧ vars.keywordsParsed = true
      · rw [serve_transaction ⟨hkeywords, hread, hok.1, hok.2⟩] at h
        obtain ⟨st, _, hrest⟩ := path_transaction.1 h
        exact stage_isReply hkeywords hrest.symm
      · rw [serve_rejection hkeywords hread hok] at h
        cases (ends_ret.1 h).2
        unfold rejection
        split
        · exact ⟨_, .noId (Or.inr (Or.inr hkeywords)), rfl⟩
        · exact ⟨_, .noKeywords hkeywords, rfl⟩
  · rw [serve_other hcreate hparameters hkeywords] at h
    cases (ends_ret.1 h).2

theorem caught_answered {p : Svc AxiomNode} : ¬Ends (caught p) acts (.ok none) := by
  intro h
  rcases ends_caught.1 h with ⟨r, hr, _⟩ | ⟨what, hr, _⟩ | ⟨fn, hr, _⟩ <;> cases hr

/-- Requests for operations are answered. -/
theorem ends_answered (hop : IsOperation req) : ¬Ends (serve env req) acts (.ok none) := by
  rcases hop with hop | hop | hop
  · rw [serve_createImage hop]
    exact caught_answered
  · rw [serve_setParameters hop]
    exact caught_answered
  · rw [serve_setKeywords hop]
    exact caught_answered

end Replies

section System

variable {ι : Type} [DecidableEq ι] {env : Env} {hasher : String → UInt32} {age : Int} {rounds : Nat}
  {cfg : AdapterConfig} {req : ι → AxiomNode} {s : AdapterState ι} {tr : List (Event ι SystemSig)}
  {b : Config ι (SystemState ι) SystemSig Abort (Option AxiomNode)} {i : ι}

/-- **The format of replies**: a request that is done is answered if it is for an operation, and only then, with a reply
of that operation, which is read as it was written. -/
theorem reply_format (h : Run systemSem (systemStart env hasher age rounds cfg s req) tr b)
    {res : Option AxiomNode} (hdone : b.prog i = .ret res) :
    (res = none ↔ ¬IsOperation (req i)) ∧
      ∀ node, res = some node → ∃ r, ReplyTo (req i) r ∧ node = r.write ∧ Reply.read node = some r := by
  obtain ⟨J, m, K, b', hreveals⟩ := system_reveals h
  have hend := hreveals.ends hdone
  refine ⟨⟨?_, fun hop => ?_⟩, ?_⟩
  · rintro rfl hop
    exact ends_answered hop hend
  · have hother := @serve_other env (req i) (fun h => hop (Or.inl h)) (fun h => hop (Or.inr (Or.inl h)))
      fun h => hop (Or.inr (Or.inr h))
    rw [hother] at hend
    exact Except.ok.inj (ends_ret.1 hend).2
  · rintro node rfl
    obtain ⟨r, hr, rfl⟩ := ends_isReply hend
    exact ⟨r, hr, rfl, read_write r⟩

end System

theorem reply_format_images : ∃ r, ReplyTo (imageRequests false) r ∧
    buildSuccessResponse (some (.text "GS2")) = r.write ∧
    Reply.read (buildSuccessResponse (some (.text "GS2"))) = some r :=
  (reply_format (i := false) images_run rfl).2 _ rfl

end DhsTranslator
