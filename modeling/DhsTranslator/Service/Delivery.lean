import Mathlib.Data.List.Flatten
import DhsTranslator.Adapter.Keywords
import DhsTranslator.Service.NullSafety

/-!
# From a request to the adapter

Which keywords a `setKeywords` request delivers to the adapter.

- `path_keywords`, `keywords_path`: the adapter is called with what was read from a well-formed request, and with
  nothing else;
- `keywords_decoded`: one keyword for each item, in order, or no call;
- `parseArrayNode_failed_iff`: an array that cannot be read leaves the values before the item that cannot, and
  `failed_arrays_iff`: when that shows in what is sent;
- `final_reaches_iff`: when the end of an image reaches the library, and `empty_final_lost`: not without keywords.
-/

namespace DhsTranslator

open Conc DhsService

section Calls

variable {env : Env} {req : AxiomNode} {tr : List (Act SvcSig)} {q : Svc (Option AxiomNode)} {id : ImageId}
  {keywords : List Keyword} {final : Bool} {out : Except String DhsStatus}

/-- **The calls of the adapter**: there is one call, with what was read from the request. -/
theorem path_adapter (hop : req.IsNamed "setKeywords") (h : Path (serve env req) tr q) {a : Act SvcSig} (ha : a ∈ tr) :
    adapterOutcome a = none ∨ ∃ id keywords final out, a = ⟨.setImageKeywords id keywords final, out⟩ ∧
      WellFormed env req ⟨keywords, id, final, true⟩ := by
  rcases request_cases env hop with ⟨⟨keywords, id, final, parsed⟩, hwf⟩ | ⟨res, hserve, _⟩
  · obtain rfl : parsed = true := hwf.parsed
    rw [serve_transaction hwf] at h
    obtain ⟨s, rfl, _⟩ := path_transaction.1 h
    have hcase : ∀ a ∈ s.acts ⟨keywords, id, final, true⟩ (env.nodeToString req), adapterOutcome a = none ∨
        ∃ out, a = ⟨.setImageKeywords id keywords final, out⟩ := by
      cases s <;> simp [Stage.acts, adapterOutcome]
    rcases hcase a ha with hnone | ⟨out, rfl⟩
    · exact Or.inl hnone
    · exact Or.inr ⟨id, keywords, final, out, rfl, hwf⟩
  · rw [hserve] at h
    have hnil : tr = [] := by
      cases res with
      | ok r => exact (path_ret.1 h).1
      | error e => exact (path_raise.1 h).1
    rw [hnil] at ha
    exact absurd ha List.not_mem_nil

/-- The call for keywords: the request was read as its arguments. -/
theorem path_keywords (hop : req.IsNamed "setKeywords") (h : Path (serve env req) tr q)
    (hcall : ⟨.setImageKeywords id keywords final, out⟩ ∈ tr) : WellFormed env req ⟨keywords, id, final, true⟩ := by
  rcases path_adapter hop h hcall with hnone | ⟨_, _, _, _, heq, hwf⟩
  · cases hnone
  · cases heq
    exact hwf

/-- Every well-formed request may get as far as the call, whatever comes of it. -/
theorem keywords_path {vars : KeywordsRequest} (h : WellFormed env req vars) (out : Except String DhsStatus) :
    ∃ tr q, Path (serve env req) tr q ∧ ⟨.setImageKeywords vars.id vars.keywords vars.final, out⟩ ∈ tr := by
  rw [serve_transaction h]
  refine ⟨_, _, path_transaction.2 ⟨.called 0 out, rfl, rfl⟩, ?_⟩
  simp [Stage.acts]

/-- What a well-formed request is read as. -/
theorem wellFormed_iff (hop : req.IsNamed "setKeywords") : WellFormed env req ⟨keywords, id, final, true⟩ ↔
    (∀ n ∈ req.named "keywords", ¬Aborts env n) ∧ req.ids.getLastD "" ≠ "" ∧
      ((req.named "keywords").map (keywordsReadable env)).getLastD false = true ∧
      keywords = (req.named "keywords").flatMap (keywordsOf env) ∧ id = req.ids.getLastD "" ∧
      final = (req.finals env).getLastD false := by
  obtain ⟨habort, hread⟩ := keywordsRequest_cases env req
  constructor
  · intro hwf
    have hno : ¬∃ c ∈ req.named "keywords", Aborts env c := by
      intro hab
      cases hwf.read.symm.trans (habort hab)
    have heq := KeywordsRequest.mk.inj (Except.ok.inj (hwf.read.symm.trans (hread hno)))
    obtain ⟨hkeywords, hid, hfinal, hparsed⟩ := heq
    exact ⟨fun n hn hab => hno ⟨n, hn, hab⟩, hid ▸ hwf.id, hparsed.symm, hkeywords, hid, hfinal⟩
  · rintro ⟨hno, hid, hparsed, rfl, rfl, rfl⟩
    refine ⟨hop, ?_, hid, rfl⟩
    rw [hread fun ⟨c, hc, hab⟩ => hno c hc hab, hparsed]

end Calls

/-! ## One keyword for each item -/

/-- **The types of keywords**: the keyword that a text is read as, by the name of the type. -/
inductive Reads (env : Env) (name text : String) : String → Keyword → Prop
  | int8 {v : Int8} (h : ReadText.readText env text = some v) : Reads env name text "INT8" (Keyword.of name v)
  | int16 {v : Int16} (h : ReadText.readText env text = some v) : Reads env name text "INT16" (Keyword.of name v)
  | int32 {v : Int32} (h : ReadText.readText env text = some v) : Reads env name text "INT32" (Keyword.of name v)
  | uint8 {v : UInt8} (h : ReadText.readText env text = some v) : Reads env name text "UINT8" (Keyword.of name v)
  | uint16 {v : UInt16} (h : ReadText.readText env text = some v) : Reads env name text "UINT16" (Keyword.of name v)
  | uint32 {v : UInt32} (h : ReadText.readText env text = some v) : Reads env name text "UINT32" (Keyword.of name v)
  | double {v : CDouble} (h : ReadText.readText env text = some v) : Reads env name text "DOUBLE" (Keyword.of name v)
  | float {v : CFloat} (h : ReadText.readText env text = some v) : Reads env name text "FLOAT" (Keyword.of name v)
  | boolean {v : Bool} (h : ReadText.readText env text = some v) : Reads env name text "BOOLEAN" (Keyword.of name v)
  | string {v : String} (h : ReadText.readText env text = some v) : Reads env name text "STRING" (Keyword.of name v)

/-- The item gives the keyword: its name, its type and its value are in the first elements of these names. -/
structure Decodes (env : Env) (item : AxiomNode) (k : Keyword) : Prop where
  isItem : item.IsNamed "item"
  name : item.namedText "name" = some k.name
  value : ∃ type text, item.namedText "type" = some type ∧ item.namedText "value" = some text ∧
    Reads env k.name text type k

section Decoding

variable {env : Env} {req n item : AxiomNode} {k : Keyword}

theorem Reads.name_eq {name text type : String} (h : Reads env name text type k) : k.name = name := by
  cases h <;> rfl

/-- The types the decoder knows, and its readers for them. -/
theorem reads_iff {name text type : String} : Reads env name text type k ↔
    ∃ t, translateType (some type) = some t ∧ readKeyword env t name text = some k := by
  constructor
  · intro h
    cases h <;>
    · refine ⟨_, rfl, ?_⟩
      simp only [readKeyword, Option.map_eq_some_iff]
      exact ⟨_, ‹_›, rfl⟩
  · rintro ⟨t, htype, hread⟩
    unfold translateType at htype
    split at htype <;> cases htype <;> rename_i hname <;> cases hname <;>
      simp only [readKeyword, Option.map_eq_some_iff] at hread <;> obtain ⟨v, hv, rfl⟩ := hread
    · exact .int8 hv
    · exact .int16 hv
    · exact .int32 hv
    · exact .uint8 hv
    · exact .uint16 hv
    · exact .uint32 hv
    · exact .double hv
    · exact .float hv
    · exact .boolean hv
    · exact .string hv

theorem decodes_iff : Decodes env item k ↔ item.IsNamed "item" ∧ itemKeyword env item = some k := by
  unfold itemKeyword
  constructor
  · intro ⟨hitem, hname, type, text, htype, htext, hreads⟩
    obtain ⟨t, ht, hread⟩ := reads_iff.1 hreads
    refine ⟨hitem, ?_⟩
    rw [hname, htype, ht, htext]
    exact hread
  · intro ⟨hitem, hk⟩
    cases hname : item.namedText "name" with
    | none => rw [hname] at hk; cases hk
    | some name =>
      cases htype : item.namedText "type" with
      | none => rw [hname, htype] at hk; cases hk
      | some type =>
        cases ht : translateType (some type) with
        | none => rw [hname, htype, ht] at hk; cases hk
        | some t =>
          rw [hname, htype, ht] at hk
          obtain ⟨text, htext, hread⟩ := Option.bind_eq_some_iff.1 hk
          have hreads := reads_iff.2 ⟨t, ht, hread⟩
          obtain rfl := hreads.name_eq
          exact ⟨hitem, hname, type, text, htype, htext, hreads⟩

/-- The leading items are all items, if all of them can be read. -/
theorem forall₂_leadingItems : ∀ {ns : List AxiomNode}, allItems (itemKeyword env) ns = true →
    List.Forall₂ (Decodes env) ns (leadingItems (itemKeyword env) ns)
  | [], _ => .nil
  | c :: ns, h => by
    simp only [allItems, List.all_cons, Bool.and_eq_true, decide_eq_true_eq] at h
    obtain ⟨⟨hitem, hread⟩, hrest⟩ := h
    obtain ⟨k, hk⟩ := Option.isSome_iff_exists.1 hread
    have ih := forall₂_leadingItems hrest
    rw [leadingItems, if_pos hitem, hk]
    exact .cons (decodes_iff.2 ⟨hitem, hk⟩) ih

/-- What a keywords element that was read completely gives. -/
theorem forall₂_keywordsOf (h : keywordsReadable env n = true) :
    List.Forall₂ (Decodes env) n.children (keywordsOf env n) := by
  obtain ⟨htype, hall⟩ := Bool.and_eq_true_iff.1 h
  rw [keywordsOf, if_pos htype]
  exact forall₂_leadingItems hall

theorem decodes_of_readable (h : keywordsReadable env n = true) {c : AxiomNode} (hc : c ∈ n.children) :
    ∃ k, Decodes env c k := by
  have hall := List.all_eq_true.1 (Bool.and_eq_true_iff.1 h).2 c hc
  rw [Bool.and_eq_true_iff, decide_eq_true_iff] at hall
  obtain ⟨k, hk⟩ := Option.isSome_iff_exists.1 hall.2
  exact ⟨k, decodes_iff.2 ⟨hall.1, hk⟩⟩

/-- **Faithful decoding**: one keyword for each child of the array, in order; no call if one of them gives none. -/
theorem keywords_decoded (hop : req.IsNamed "setKeywords") (hone : req.named "keywords" = [n])
    {tr : List (Act SvcSig)} {q : Svc (Option AxiomNode)} (h : Path (serve env req) tr q) :
    (∀ id keywords final out, ⟨.setImageKeywords id keywords final, out⟩ ∈ tr →
      List.Forall₂ (Decodes env) n.children keywords) ∧
    ((∃ c ∈ n.children, ∀ k, ¬Decodes env c k) → ∀ a ∈ tr, adapterOutcome a = none) := by
  have hread : ∀ {id keywords final}, WellFormed env req ⟨keywords, id, final, true⟩ →
      keywordsReadable env n = true ∧ keywords = keywordsOf env n := by
    intro id keywords final hwf
    obtain ⟨_, _, hlast, hkeywords, _, _⟩ := (wellFormed_iff hop).1 hwf
    rw [hone] at hlast hkeywords
    exact ⟨hlast, hkeywords.trans (List.flatMap_singleton _ _)⟩
  constructor
  · intro id keywords final out hcall
    obtain ⟨hreadable, rfl⟩ := hread (path_keywords hop h hcall)
    exact forall₂_keywordsOf hreadable
  · intro ⟨c, hc, hnone⟩ a ha
    rcases path_adapter hop h ha with hother | ⟨id, keywords, final, out, rfl, hwf⟩
    · exact hother
    · obtain ⟨k, hk⟩ := decodes_of_readable (hread hwf).1 hc
      exact absurd hk (hnone k)

end Decoding

theorem keywords_decoded_night :
    let tr := (Stage.called 0 (.ok .S_SUCCESS)).acts nightVars (plainEnv.nodeToString nightRequest)
    let n := arrayField "keywords" "object" (nightTexts.map KeywordText.item)
    (∀ id keywords final out, ⟨.setImageKeywords id keywords final, out⟩ ∈ tr →
      List.Forall₂ (Decodes plainEnv) n.children keywords) ∧
    ((∃ c ∈ n.children, ∀ k, ¬Decodes plainEnv c k) → ∀ a ∈ tr, adapterOutcome a = none) :=
  keywords_decoded wellFormed_night.op rfl
    (serve_transaction wellFormed_night ▸ path_transaction.2 ⟨.called 0 (.ok .S_SUCCESS), rfl, rfl⟩)

/-! ## Arrays that cannot be read -/

/-- The item is read as the value. -/
structure ReadsItem {T : Type} [ParseVal T] (env : Env) (p : NodePtr) (v : T) : Prop where
  isItem : p.node.IsNamed "item"
  value : parseVal env p.firstChild = .ok (some v)

/-- The node is no item, or an item whose value cannot be read. -/
def Unreadable (T : Type) [ParseVal T] (env : Env) (p : NodePtr) : Prop :=
  ¬p.node.IsNamed "item" ∨ (parseVal env p.firstChild : Except Abort (Option T)) = .ok none

/-- The values are read, and the next node cannot be. -/
inductive FailsAfter {T : Type} [ParseVal T] (env : Env) : List NodePtr → List T → Prop
  | here {p : NodePtr} (ps : List NodePtr) (h : Unreadable T env p) : FailsAfter env (p :: ps) []
  | later {p : NodePtr} {ps : List NodePtr} {v : T} {vs : List T} (h : ReadsItem env p v) (hrest : FailsAfter env ps vs) :
      FailsAfter env (p :: ps) (v :: vs)

section Partial

variable {T : Type} [ParseVal T] {env : Env}

/-- A node is read in at most one way. -/
theorem ReadsItem.not_unreadable {p : NodePtr} {v : T} (h : ReadsItem env p v) : ¬Unreadable T env p := by
  intro hbad
  rcases hbad with hitem | hvalue
  · exact hitem h.isItem
  · cases h.value.symm.trans hvalue

theorem ReadsItem.unique {p : NodePtr} {v v' : T} (h : ReadsItem env p v) (h' : ReadsItem env p v') : v = v' :=
  Option.some.inj (Except.ok.inj (h.value.symm.trans h'.value))

/-- **The loop over the items fails** at the first that cannot be read, with the values before it appended. -/
theorem loop_failed_iff {ps : List NodePtr} {array array' : List T} :
    forIn ps (true, array) (fun p acc => parseItem env p acc.2) = .ok (false, array') ↔
      ∃ vs, FailsAfter env ps vs ∧ array' = array ++ vs := by
  induction ps generalizing array with
  | nil => exact iff_of_false (fun h => by cases h) fun ⟨vs, hfails, _⟩ => by cases hfails
  | cons p ps ih =>
    -- at a node that cannot be read the loop is left
    have hleft : Unreadable T env p → (Except.ok (false, array) = (.ok (false, array') : Except Abort (Bool × List T)) ↔
        ∃ vs, FailsAfter env (p :: ps) vs ∧ array' = array ++ vs) := by
      intro hbad
      constructor
      · intro h
        cases h
        exact ⟨[], .here ps hbad, (List.append_nil _).symm⟩
      · rintro ⟨vs, hfails, rfl⟩
        cases hfails with
        | here => rw [List.append_nil]
        | later hread => exact absurd hbad hread.not_unreadable
    rw [List.forIn_cons, parseItem_cases]
    by_cases hitem : p.node.IsNamed "item"
    · rw [if_pos hitem]
      rcases hvalue : (parseVal env p.firstChild : Except Abort (Option T)) with e | _ | v
      · refine iff_of_false (fun h => by cases h) fun ⟨vs, hfails, _⟩ => ?_
        cases hfails with
        | here _ hbad => exact hbad.elim (fun h => h hitem) fun h => by cases hvalue.symm.trans h
        | later hread => cases hvalue.symm.trans hread.value
      · exact hleft (Or.inr hvalue)
      · have hread : ReadsItem env p v := ⟨hitem, hvalue⟩
        apply Iff.trans ih
        constructor
        · rintro ⟨vs, hfails, rfl⟩
          exact ⟨v :: vs, .later hread hfails, List.append_assoc _ _ _⟩
        · rintro ⟨vs, hfails, rfl⟩
          cases hfails with
          | here _ hbad => exact absurd hbad hread.not_unreadable
          | @later _ _ v' vs h hrest =>
            obtain rfl := hread.unique h
            exact ⟨vs, hrest, by simp⟩
    · rw [if_neg hitem]
      exact hleft (Or.inl hitem)

/-- **What an array that cannot be read leaves.** -/
theorem parseArrayNode_failed_iff {p : NodePtr} {array array' : List T} {type : String} :
    parseArrayNode env (some p) array type = .ok (false, array') ↔
      (p.node.hasArrayType type = false ∧ array' = array) ∨
      (p.node.hasArrayType type = true ∧ ∃ vs, FailsAfter env p.children vs ∧ array' = array ++ vs) := by
  rw [parseArrayNode_loop, forSiblings_firstChild]
  cases p.node.hasArrayType type with
  | true => simpa using loop_failed_iff
  | false => simp [eq_comm]

/-- Some values are read before a node that cannot be. -/
def FailsInside (T : Type) [ParseVal T] (env : Env) (p : NodePtr) (type : String) : Prop :=
  p.node.hasArrayType type = true ∧ ∃ (v : T) (vs : List T), FailsAfter env p.children (v :: vs)

/-- A failure leaves the vector as it was, unless it comes after an item that was read. -/
theorem unchanged_iff (p : NodePtr) (array : List T) (type : String) :
    (∀ array', parseArrayNode env (some p) array type = .ok (false, array') → array' = array) ↔
      ¬FailsInside T env p type := by
  simp only [parseArrayNode_failed_iff]
  constructor
  · intro hall ⟨htype, v, vs, hfails⟩
    have hsame := hall (array ++ v :: vs) (Or.inr ⟨htype, v :: vs, hfails, rfl⟩)
    simp at hsame
  · intro hno array' hfailed
    rcases hfailed with ⟨_, hsame⟩ | ⟨htype, vs, hfails, rfl⟩
    · exact hsame
    · cases vs with
      | nil => exact List.append_nil array
      | cons v vs => exact absurd ⟨htype, v, vs, hfails⟩ hno

end Partial

/-- A list that is left out gives nothing. -/
theorem flatMap_filter_iff {α β : Type} (f : α → List β) (p : α → Bool) (l : List α) :
    l.flatMap f = (l.filter p).flatMap f ↔ ∀ x ∈ l, p x = false → f x = [] := by
  induction l with
  | nil => simp
  | cons x l ih =>
    rw [List.forall_mem_cons, ← ih]
    cases hp : p x with
    | true => simp [hp]
    | false =>
      -- what is kept is never longer than the whole
      have hle : ((l.filter p).flatMap f).length ≤ (l.flatMap f).length :=
        (List.filter_sublist.flatMap f).length_le
      rw [List.filter_cons_of_neg (by simp [hp]), List.flatMap_cons]
      constructor
      · intro h
        have hlen := congrArg List.length h
        rw [List.length_append] at hlen
        have hnil : f x = [] := List.length_eq_zero_iff.1 (by omega)
        rw [hnil, List.nil_append] at h
        exact ⟨fun _ => hnil, h⟩
      · intro ⟨hnil, h⟩
        rw [hnil rfl, List.nil_append, h]

/-- Only the elements that were read completely contribute to what is sent. -/
def SendsComplete (env : Env) (req : AxiomNode) : Prop :=
  ∀ tr q, Path (serve env req) tr q → ∀ id keywords final out,
    ⟨.setImageKeywords id keywords final, out⟩ ∈ tr →
      keywords = ((req.named "keywords").filter (keywordsReadable env)).flatMap (keywordsOf env)

/-- No keyword is read from the element: its array type is another, or its first node gives none. -/
def GivesNothing (env : Env) (n : AxiomNode) : Prop :=
  n.hasArrayType "object" = false ∨ ∀ c, n.children.head? = some c → ∀ k, ¬Decodes env c k

theorem givesNothing_iff {env : Env} {n : AxiomNode} : GivesNothing env n ↔ keywordsOf env n = [] := by
  unfold GivesNothing keywordsOf
  cases htype : n.hasArrayType "object" with
  | false => simp
  | true =>
    cases hchildren : n.children with
    | nil => simp [leadingItems]
    | cons c cs =>
      by_cases hitem : c.IsNamed "item"
      · cases hread : itemKeyword env c <;> simp [decodes_iff, leadingItems, hitem, hread]
      · simp [decodes_iff, leadingItems, hitem]

/-- Nothing is sent, or the elements that cannot be read give no keyword. -/
def NothingPartial (env : Env) (req : AxiomNode) : Prop :=
  (∃ n ∈ req.named "keywords", Aborts env n) ∨ req.ids.getLastD "" = "" ∨
    ((req.named "keywords").map (keywordsReadable env)).getLastD false = false ∨
    ∀ n ∈ req.named "keywords", keywordsReadable env n = false → GivesNothing env n

theorem sendsComplete_iff {env : Env} {req : AxiomNode} (hop : req.IsNamed "setKeywords") :
    SendsComplete env req ↔ NothingPartial env req := by
  simp only [NothingPartial, givesNothing_iff]
  rw [← flatMap_filter_iff]
  constructor
  · intro hsends
    by_contra hnot
    simp only [not_or, not_exists, not_and] at hnot
    obtain ⟨hno, hid, hlast, hne⟩ := hnot
    have hwf := (wellFormed_iff hop).2 ⟨hno, hid, by simpa using hlast, rfl, rfl, rfl⟩
    obtain ⟨tr, q, hpath, hcall⟩ := keywords_path hwf (.ok .S_SUCCESS)
    exact hne (hsends tr q hpath _ _ _ _ hcall)
  · intro hcond tr q hpath id keywords final out hcall
    obtain ⟨hno, hid, hlast, rfl, _, _⟩ := (wellFormed_iff hop).1 (path_keywords hop hpath hcall)
    rcases hcond with ⟨n, hn, hab⟩ | hempty | hfalse | hsame
    · exact absurd hab (hno n hn)
    · exact absurd hempty hid
    · exact Bool.noConfusion (hfalse.symm.trans hlast)
    · exact hsame

/-- **Where a failed array contributes nothing.** -/
theorem failed_arrays_iff {T : Type} [ParseVal T] (env : Env) (p : NodePtr) (array : List T) (type : String)
    {req : AxiomNode} (hop : req.IsNamed "setKeywords") :
    ((∀ array', parseArrayNode env (some p) array type = .ok (false, array') → array' = array) ↔
      ¬FailsInside T env p type) ∧
    (SendsComplete env req ↔ NothingPartial env req) := ⟨unchanged_iff p array type, sendsComplete_iff hop⟩

theorem failed_arrays_iff_object :
    ((∀ array', parseArrayNode plainEnv (some (.root objectRequest)) ([] : List Keyword) "object" = .ok (false, array') →
      array' = []) ↔ ¬FailsInside Keyword plainEnv (.root objectRequest) "object") ∧
    (SendsComplete plainEnv objectRequest ↔ NothingPartial plainEnv objectRequest) :=
  failed_arrays_iff plainEnv (.root objectRequest) [] "object" wellFormed_object.op

/-- An array of keywords with an item that cannot be read after one that can. -/
def brokenArray : AxiomNode :=
  arrayField "keywords" "object" [KeywordText.item ⟨"OBJECT", "STRING", "M31"⟩, field "item" ""]

/-- The array, and one that can be read. -/
def brokenRequest : AxiomNode :=
  .element "setKeywords" none []
    [field "id" "GS1", brokenArray, arrayField "keywords" "object" [KeywordText.item ⟨"FILTER", "STRING", "R"⟩]]

theorem wellFormed_broken :
    WellFormed plainEnv brokenRequest ⟨[Keyword.of "OBJECT" "M31", Keyword.of "FILTER" "R"], "GS1", false, true⟩ where
  op := rfl
  read := rfl
  id := by decide
  parsed := rfl

/-- **Keywords of an array that was not read** are sent. -/
theorem partial_keywords_sent :
    (¬∀ (p : NodePtr) (array array' : List Keyword),
      parseArrayNode plainEnv (some p) array "object" = .ok (false, array') → array' = array) ∧
    ¬∀ req : AxiomNode, req.IsNamed "setKeywords" → SendsComplete plainEnv req := by
  constructor
  · intro hall
    have hsame := hall (.root brokenArray) [] [Keyword.of "OBJECT" "M31"] rfl
    cases hsame
  · intro hall
    obtain ⟨tr, q, hpath, hcall⟩ := keywords_path wellFormed_broken (.ok .S_SUCCESS)
    have hsent := hall brokenRequest rfl tr q hpath _ _ _ _ hcall
    exact absurd (congrArg List.length hsent) (by decide)

/-! ## The end of an image -/

/-- **Where the end of an image reaches the library**: the adapter is called for what was read, and success means that
the image was closed, iff there are keywords or no connection, and no list is measured as empty. -/
theorem final_reaches_iff {env : Env} {req : AxiomNode} {vars : KeywordsRequest} (h : WellFormed env req vars)
    (hfinal : vars.final = true) (cfg : AdapterConfig) :
    (∀ tr q, Path (serve env req) tr q → ∀ id keywords final out,
      ⟨.setImageKeywords id keywords final, out⟩ ∈ tr → id = vars.id ∧ keywords = vars.keywords ∧ final = true) ∧
    ∀ tr res, Ends (DhsAdapter.setImageKeywords cfg vars.id vars.keywords vars.final) tr res →
      ((res = .ok .S_SUCCESS → Closed vars.id tr) ↔
        (vars.keywords = [] → Ends (DhsAdapter.checkConnection cfg) tr (.ok false)) ∧ ∀ size ∈ sizes tr, 0 < size) := by
  constructor
  · intro tr q hpath id keywords final out hcall
    have hvars := h.unique (path_keywords h.op hpath hcall)
    rw [← hvars] at hfinal ⊢
    exact ⟨rfl, rfl, hfinal⟩
  · intro tr res hends
    rw [hfinal] at hends
    exact closed_iff hends

/-- The last request for an image, without keywords. -/
def closingRequest : AxiomNode := setKeywordsRequest "GS1" true []

theorem wellFormed_closing : WellFormed plainEnv closingRequest ⟨[], "GS1", true, true⟩ where
  op := rfl
  read := setKeywordsRequest_read "GS1" true rfl
  id := by decide
  parsed := rfl

theorem ends_closing (cfg : AdapterConfig) :
    Ends (DhsAdapter.setImageKeywords cfg "GS1" [] true) connectedTrace (.ok .S_SUCCESS) := by
  unfold Ends
  repeat first | exact Path.nil _ | apply Path.cons

theorem final_reaches_iff_closing :
    (∀ tr q, Path (serve plainEnv closingRequest) tr q → ∀ id keywords final out,
      ⟨.setImageKeywords id keywords final, out⟩ ∈ tr → id = "GS1" ∧ keywords = [] ∧ final = true) ∧
    ∀ tr res, Ends (DhsAdapter.setImageKeywords ⟨"translator", "localhost", "dhs"⟩ "GS1" [] true) tr res →
      ((res = .ok .S_SUCCESS → Closed "GS1" tr) ↔
        (([] : List Keyword) = [] → Ends (DhsAdapter.checkConnection ⟨"translator", "localhost", "dhs"⟩) tr (.ok false)) ∧
          ∀ size ∈ sizes tr, 0 < size) :=
  final_reaches_iff wellFormed_closing rfl ⟨"translator", "localhost", "dhs"⟩

/-- **Without keywords the end of an image is lost**, and the reply is success. -/
theorem empty_final_lost : ¬∀ (cfg : AdapterConfig) (req : AxiomNode) (vars : KeywordsRequest),
    WellFormed plainEnv req vars → vars.final = true →
    ∀ tr, Ends (DhsAdapter.setImageKeywords cfg vars.id vars.keywords vars.final) tr (.ok .S_SUCCESS) →
      Closed vars.id tr := by
  intro hall
  have hclosed := hall ⟨"translator", "localhost", "dhs"⟩ closingRequest _ wellFormed_closing rfl connectedTrace
    (ends_closing _)
  exact hclosed.puts rfl

end DhsTranslator
