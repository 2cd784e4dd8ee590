import DhsTranslator.Cache.MessageCache
import DhsTranslator.Conc.Interleaving
import DhsTranslator.Service.Decode

/-!
# The operations of the service

`createImage`, `setParameters`, `setKeywords` and their dispatch, as programs over the commands `SvcCmd`: the clock,
the three operations of the message cache, each under its lock, and the calls of the adapter.

- `svcSem` is what the commands do to the cache, whoever issues them; the clock and the adapter may answer anything;
- `World` and `handler` serve one request after another with given answers of the clock and the adapter.
-/

namespace DhsTranslator

open Conc

/-! ## Commands -/

inductive SvcCmd where
  | time
  | purgeOldMessages (currentTime : Int)
  | exists (id : ImageId) (data : String)
  | add (id : ImageId) (timestamp : Int) (data : String)
  | createImage
  | setImageLifeTime (id : ImageId) (lifeTime : DhsBdLifetime)
  | setImageContrib (id : ImageId) (contribs : List String)
  | setImageKeywords (id : ImageId) (keywords : List Keyword) (final : Bool)
  deriving DecidableEq, Repr

/-- The responses; an adapter call may throw instead of returning a status. -/
abbrev SvcCmd.Resp : SvcCmd → Type
  | .time => Int
  | .purgeOldMessages _ => Unit
  | .exists _ _ => Bool
  | .add _ _ _ => Unit
  | .createImage => Except String (DhsStatus × ImageId)
  | .setImageLifeTime _ _ => Except String DhsStatus
  | .setImageContrib _ _ => Except String DhsStatus
  | .setImageKeywords _ _ _ => Except String DhsStatus

abbrev SvcSig : Sig := ⟨SvcCmd, SvcCmd.Resp⟩

abbrev Svc := Prog SvcSig Abort

/-- The answer of an adapter call. -/
def answer {α : Type} : Except String α → Svc α
  | .ok a => .ret a
  | .error what => .raise (.exception what)

@[simp] theorem answer_ok {α : Type} (a : α) : answer (.ok a) = .ret a := rfl

@[simp] theorem answer_error {α : Type} (what : String) : (answer (.error what) : Svc α) = .raise (.exception what) :=
  rfl

def time : Svc Int := .call .time .ret

namespace MsgCache

def purgeOldMessages (currentTime : Int) : Svc Unit := .call (.purgeOldMessages currentTime) .ret

def «exists» (id : ImageId) (data : String) : Svc Bool := .call (.exists id data) .ret

def add (id : ImageId) (timestamp : Int) (data : String) : Svc Unit := .call (.add id timestamp data) .ret

end MsgCache

namespace IDhsAdapter

def createImage : Svc (DhsStatus × ImageId) := .call .createImage answer

def setImageLifeTime (id : ImageId) (lifeTime : DhsBdLifetime) : Svc DhsStatus :=
  .call (.setImageLifeTime id lifeTime) answer

def setImageContrib (id : ImageId) (contribs : List String) : Svc DhsStatus := .call (.setImageContrib id contribs) answer

def setImageKeywords (id : ImageId) (keywords : List Keyword) (final : Bool) : Svc DhsStatus :=
  .call (.setImageKeywords id keywords final) answer

end IDhsAdapter

namespace DhsService

/-! ## Replies -/

def RESPONSE_NODE_NAME := "response"
def STATUS_NODE_NAME := "status"
def RESULT_NODE_NAME := "result"
def ERRORS_NODE_NAME := "errors"
def ERROR_STATUS := "error"
def SUCCESS_STATUS := "success"
def DHS_ERROR := "DHS_ERROR"
def BAD_REQUEST := "BAD_REQUEST"
def INTERNAL_ERROR := "INTERNAL_SERVER_ERROR"

def xsiNamespace : AxiomNamespace := ⟨"http://www.w3.org/2001/XMLSchema-instance", "xsi"⟩

def encNamespace : AxiomNamespace := ⟨"http://schemas.xmlsoap.org/soap/encoding/", "enc"⟩

/-- `axiom_attribute_create`. -/
def axiomAttributeCreate (name value : String) (ns : AxiomNamespace) : AxiomAttribute := ⟨⟨name, ns.uri, ns.pfx⟩, value⟩

def createErrorNode (type message : String) : AxiomNode :=
  .element "item" none []
    [.element "type" none [] [.text type],
     .element "message" none [] [.text message]]

def buildErrorResponses (array : List AxiomNode) : AxiomNode :=
  .element RESPONSE_NODE_NAME (some xsiNamespace) []
    [.element STATUS_NODE_NAME none [] [.text ERROR_STATUS],
     if array.isEmpty then .element ERRORS_NODE_NAME none [axiomAttributeCreate "nil" "true" xsiNamespace] []
     else .element ERRORS_NODE_NAME none
       [axiomAttributeCreate "arrayType" ("object[" ++ toString array.length ++ "]") encNamespace] array]

def buildErrorResponse (type message : String) : AxiomNode := buildErrorResponses [createErrorNode type message]

def buildSuccessResponse (result : Option AxiomNode) : AxiomNode :=
  .element RESPONSE_NODE_NAME none []
    [.element STATUS_NODE_NAME none [] [.text SUCCESS_STATUS],
     match result with
     | none => .element RESULT_NODE_NAME none [axiomAttributeCreate "nil" "true" xsiNamespace] []
     | some r => .element RESULT_NODE_NAME none [] [r]]

/-! ## Operations -/

/-- `setParameters` with the id of the image it is for, if the caller gives one; an error reply if it fails. -/
def setParametersOf (imageId : Option ImageId) (env : Env) (node : NodeRef) : Svc (Option AxiomNode) := do
  let vars ← Prog.lift (decodeParameters imageId env node)
  if vars.id ≠ "" then
    if vars.lifetimeSet then
      let status ← IDhsAdapter.setImageLifeTime vars.id vars.lifetime
      if status ≠ .S_SUCCESS then
        return some (buildErrorResponse DHS_ERROR "DHS error while trying to set data set lifetime.")
    if vars.contributors ≠ [] then
      let status ← IDhsAdapter.setImageContrib vars.id vars.contributors
      if status ≠ .S_SUCCESS then
        return some (buildErrorResponse DHS_ERROR "DHS error while trying to set data set contributors.")
    return none
  else
    return some (buildErrorResponse BAD_REQUEST "Could not parse image id.")

def createImage (env : Env) (node : NodePtr) : Svc AxiomNode := do
  let (status, imageId) ← IDhsAdapter.createImage
  if status ≠ .S_SUCCESS then
    return buildErrorResponse DHS_ERROR "DHS error while trying to create new data set."
  if (← Prog.lift (axiomNodeGetFirstChild (some node))).isSome then
    match ← setParametersOf (some imageId) env (some node) with
    | some errors => return errors
    | none => return buildSuccessResponse (some (.text imageId))
  return buildSuccessResponse (some (.text imageId))

def setParameters (env : Env) (node : NodePtr) : Svc AxiomNode := do
  match ← setParametersOf none env (some node) with
  | some errors => return errors
  | none => return buildSuccessResponse none

/-- The message as a string, unless it was already processed successfully. -/
def checkTransaction (currentTime : Int) (imageId : ImageId) (env : Env) (node : NodePtr) : Svc (Option String) := do
  let v := env.nodeToString node.node
  MsgCache.purgeOldMessages currentTime
  if ← MsgCache.exists imageId v then return none
  return some v

def recordTransaction (imageId : ImageId) (currentTime : Int) (msg : String) : Svc Unit :=
  MsgCache.add imageId currentTime msg

def setKeywords (env : Env) (node : NodePtr) : Svc AxiomNode := do
  let vars ← Prog.lift (decodeKeywords env (some node))
  if vars.id ≠ "" ∧ vars.keywordsParsed then
    let timestamp ← time
    match ← checkTransaction timestamp vars.id env node with
    | some msg =>
      let status ← IDhsAdapter.setImageKeywords vars.id vars.keywords vars.final
      if status ≠ .S_SUCCESS then
        return buildErrorResponse DHS_ERROR "DHS error while trying to set data set keywords."
      recordTransaction vars.id timestamp msg
      return buildSuccessResponse none
    | none => return buildSuccessResponse none
  else if vars.id = "" then
    return buildErrorResponse BAD_REQUEST "Could not parse image id."
  else
    return buildErrorResponse BAD_REQUEST "Could not parse keywords."

def invoke (env : Env) (node : NodeRef) : Svc (Option AxiomNode) := do
  match node with
  | none => return none
  | some p =>
    if (← Prog.lift (axiomNodeGetNodeType (some p))) = .ELEMENT then
      let element ← Prog.lift (axiomNodeGetDataElement (some p))
      let opName := axiomElementGetLocalname element
      if opName = "createImage" then return some (← createImage env p)
      if opName = "setParameters" then return some (← setParameters env p)
      if opName = "setKeywords" then return some (← setKeywords env p)
    return none

/-- The `catch` of the entry point: an exception is answered, a `NULL` dereference is not. -/
def onAbort : Abort → Svc (Option AxiomNode)
  | .exception _ => .ret (some (buildErrorResponse INTERNAL_ERROR "Internal error processing request."))
  | .nullNode fn => .raise (.nullNode fn)

def stubInvoke (env : Env) (node : NodeRef) : Svc (Option AxiomNode) := (invoke env node).tryCatch onAbort

/-- Serving a request tree. -/
def serve (env : Env) (request : AxiomNode) : Svc (Option AxiomNode) := stubInvoke env (some (.root request))

end DhsService

/-! ## Reading a trace -/

/-- The time, if the action is a reading of the clock. -/
def clockRead : Act SvcSig → Option Int
  | ⟨.time, t⟩ => some t
  | _ => none

/-- The outcome, if the action is a call of the adapter. -/
def adapterOutcome : Act SvcSig → Option (Except String DhsStatus)
  | ⟨.createImage, out⟩ => some (out.map Prod.fst)
  | ⟨.setImageLifeTime _ _, out⟩ => some out
  | ⟨.setImageContrib _ _, out⟩ => some out
  | ⟨.setImageKeywords _ _ _, out⟩ => some out
  | _ => none

/-! ## Semantics -/

/-- What the commands do to the message cache, issued by any thread. -/
def svcSem {ι : Type} : Sem ι MessageCache SvcSig
  | _, c, ⟨.purgeOldMessages t, _⟩, c' => c' = c.purgeOldMessages t
  | _, c, ⟨.exists id data, found⟩, c' => found = c.exists id data ∧ c' = c
  | _, c, ⟨.add id timestamp data, _⟩, c' => c' = c.add id timestamp data
  | _, c, _, c' => c' = c

/-- The surroundings of a request served alone: the cache, the time and the answers the adapter is going to give. -/
structure World where
  cache : MessageCache
  now : Int
  outcomes : Nat → Except String (DhsStatus × ImageId)

/-- The world after one adapter call. -/
def World.called (w : World) : World := { w with outcomes := fun n => w.outcomes (n + 1) }

def handler : (c : SvcCmd) → World → c.Resp × World
  | .time, w => (w.now, w)
  | .purgeOldMessages t, w => ((), { w with cache := w.cache.purgeOldMessages t })
  | .exists id data, w => (w.cache.exists id data, w)
  | .add id timestamp data, w => ((), { w with cache := w.cache.add id timestamp data })
  | .createImage, w => (w.outcomes 0, w.called)
  | .setImageLifeTime _ _, w => ((w.outcomes 0).map Prod.fst, w.called)
  | .setImageContrib _ _, w => ((w.outcomes 0).map Prod.fst, w.called)
  | .setImageKeywords _ _ _, w => ((w.outcomes 0).map Prod.fst, w.called)

/-- Serving one request alone. -/
def DhsService.serveIn (env : Env) (req : AxiomNode) (w : World) : Outcome SvcSig Abort (Option AxiomNode) World :=
  (serve env req).run handler w

/-- The handler does to the cache what the semantics says. -/
theorem handler_sem {ι : Type} (i : ι) (c : SvcCmd) (w : World) :
    svcSem i w.cache ⟨c, (handler c w).1⟩ (handler c w).2.cache := by
  cases c
  case «exists» => exact ⟨rfl, rfl⟩
  all_goals rfl

end DhsTranslator
