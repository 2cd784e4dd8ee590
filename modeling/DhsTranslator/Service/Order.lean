import Mathlib.Data.List.Forall2
import DhsTranslator.Service.NullSafety

/-!
# The order of members

Requests stand for objects, whose members have no order. `Reordered` relates two requests that differ in the order of
their children and of the children of keyword items.

- `findNamedList_perm`: a search finds the same element if at most one child holds it;
- `ArrayReordered.read`: reordered items are read the same; `Reordered.read`: so are reordered children;
- `member_order`: reordered requests are served the same, from an empty cache.
-/

namespace DhsTranslator

open Conc DhsService

/-! ## Reordering -/

/-- Nodes that differ at most in the order of the members of a keyword item. -/
inductive ItemReordered : AxiomNode → AxiomNode → Prop
  | refl (n : AxiomNode) : ItemReordered n n
  | item (ns : Option AxiomNamespace) (attrs : List AxiomAttribute) {cs cs' : List AxiomNode} (h : cs.Perm cs') :
      ItemReordered (.element "item" ns attrs cs) (.element "item" ns attrs cs')

/-- Nodes that differ at most in the order of the members of the items of a keywords array. -/
inductive ArrayReordered : AxiomNode → AxiomNode → Prop
  | refl (n : AxiomNode) : ArrayReordered n n
  | keywords (ns : Option AxiomNamespace) (attrs : List AxiomAttribute) {items items' : List AxiomNode}
      (h : List.Forall₂ ItemReordered items items') :
      ArrayReordered (.element "keywords" ns attrs items) (.element "keywords" ns attrs items')

/-- **Requests that differ at most in the order of their members** and of those of keyword items. -/
inductive Reordered : AxiomNode → AxiomNode → Prop
  | mk (name : String) (ns : Option AxiomNamespace) (attrs : List AxiomAttribute) {cs cs' cs'' : List AxiomNode}
      (hitems : List.Forall₂ ArrayReordered cs cs') (hchildren : cs'.Perm cs'') :
      Reordered (.element name ns attrs cs) (.element name ns attrs cs'')

/-- For each member of a keyword, at most one child of the item is or contains an element of that name. -/
def OneEach (item : AxiomNode) : Prop :=
  ∀ name ∈ ["name", "type", "value"], (item.children.filterMap (AxiomNode.findNamed name)).length ≤ 1

instance (item : AxiomNode) : Decidable (OneEach item) := inferInstanceAs (Decidable (∀ name ∈ _, _))

/-! ## Items -/

/-- A list with at most one element has one order. -/
theorem eq_of_perm {α : Type} {l l' : List α} (h : l.Perm l') (hone : l.length ≤ 1) : l = l' := by
  rcases l with _ | ⟨x, _ | ⟨y, l⟩⟩
  · exact (List.nil_perm.1 h).symm
  · exact (List.perm_singleton.1 h.symm).symm
  · simp at hone

/-- The search goes through the list. -/
theorem findNamedList_eq (name : String) : ∀ cs : List AxiomNode,
    findNamedList name cs = (cs.filterMap (AxiomNode.findNamed name)).head?
  | [] => rfl
  | c :: cs => by
    rw [findNamedList, List.filterMap_cons, findNamedList_eq name cs]
    cases c.findNamed name <;> rfl

theorem findNamedList_perm {name : String} {cs cs' : List AxiomNode} (h : cs.Perm cs')
    (hone : (cs.filterMap (AxiomNode.findNamed name)).length ≤ 1) : findNamedList name cs = findNamedList name cs' := by
  rw [findNamedList_eq, findNamedList_eq, eq_of_perm (h.filterMap _) hone]

section Items

variable {env : Env} {item item' : AxiomNode}

theorem ItemReordered.isItem (h : ItemReordered item item') : item.IsNamed "item" ↔ item'.IsNamed "item" := by
  cases h <;> exact Iff.rfl

/-- **Reordered items give the same keyword.** -/
theorem ItemReordered.parse (h : ItemReordered item item') (hone : item.IsNamed "item" → OneEach item) :
    parseKeywordItem env item = parseKeywordItem env item' := by
  cases h with
  | refl => rfl
  | @item ns attrs cs cs' hperm =>
    have hone := hone rfl
    -- a member is looked for among the children
    have hnamed : ∀ name ∈ ["name", "type", "value"], (AxiomNode.element "item" ns attrs cs).namedText name =
        (AxiomNode.element "item" ns attrs cs').namedText name := by
      intro name hname
      have hne : "item" ≠ name := by
        rintro rfl
        simp at hname
      have hfind := findNamedList_perm hperm (hone name hname)
      unfold AxiomNode.namedText
      rw [AxiomNode.findNamed, AxiomNode.findNamed, if_neg hne, if_neg hne, hfind]
    have hnil : cs = [] ↔ cs' = [] := by
      rw [← List.length_eq_zero_iff, ← List.length_eq_zero_iff, hperm.length_eq]
    have hkeyword : itemKeyword env (.element "item" ns attrs cs) = itemKeyword env (.element "item" ns attrs cs') := by
      unfold itemKeyword
      rw [hnamed "name" (by simp), hnamed "type" (by simp), hnamed "value" (by simp)]
    unfold parseKeywordItem
    rw [hkeyword]
    exact if_congr hnil rfl rfl

/-- So they do in an array. -/
theorem parseItems_reordered {items items' : List AxiomNode} (h : List.Forall₂ ItemReordered items items')
    (hone : ∀ i ∈ items, i.IsNamed "item" → OneEach i) (array : List Keyword) :
    parseItems (parseKeywordItem env) items array = parseItems (parseKeywordItem env) items' array := by
  induction h generalizing array with
  | nil => rfl
  | @cons i i' is is' hi his ih =>
    rw [List.forall_mem_cons] at hone
    rw [parseItems, parseItems, hi.parse hone.1]
    refine if_congr hi.isItem ?_ rfl
    rcases parseKeywordItem env i' with e | _ | k
    · rfl
    · rfl
    · exact ih hone.2 (array ++ [k])

end Items

/-! ## Children -/

/-- Each keyword item among the children of the request has one member of each name. -/
def ItemsOneEach (cs : List AxiomNode) : Prop := ∀ c ∈ cs, c.IsNamed "keywords" → ∀ i ∈ c.items, OneEach i

instance (cs : List AxiomNode) : Decidable (ItemsOneEach cs) := inferInstanceAs (Decidable (∀ c ∈ _, _ → _))

section Children

variable {env : Env} {c c' n n' : AxiomNode} {cs cs' : List AxiomNode}

theorem ArrayReordered.isNamed (h : ArrayReordered c c') (name : String) : c.IsNamed name ↔ c'.IsNamed name := by
  cases h <;> exact Iff.rfl

/-- **Reordered arrays are read the same** by `setKeywords`. -/
theorem ArrayReordered.read (h : ArrayReordered c c') (hone : c.IsNamed "keywords" → ∀ i ∈ c.items, OneEach i)
    (vars : KeywordsRequest) : vars.read env c = vars.read env c' := by
  cases h with
  | refl => rfl
  | @keywords ns attrs items items' hitems =>
    have hparse : parseKeywords env (.element "keywords" ns attrs items) vars.keywords =
        parseKeywords env (.element "keywords" ns attrs items') vars.keywords := by
      have hall : ∀ i ∈ items, i.IsNamed "item" → OneEach i := fun i hi hitem =>
        hone rfl i (List.mem_filter.2 ⟨hi, decide_eq_true hitem⟩)
      exact if_congr Iff.rfl (parseItems_reordered hitems hall vars.keywords) rfl
    have hname : ∀ is : List AxiomNode, (AxiomNode.element "keywords" ns attrs is).IsNamed "keywords" := fun _ => rfl
    unfold KeywordsRequest.read
    rw [if_pos (hname items), if_pos (hname items'), hparse]

/-- `setParameters` does not read them. -/
theorem ArrayReordered.readParameters (h : ArrayReordered c c') (vars : Parameters) :
    vars.read none c = vars.read none c' := by
  cases h <;> rfl

theorem foldlM_read_reordered (h : List.Forall₂ ArrayReordered cs cs') (hone : ItemsOneEach cs) (vars : KeywordsRequest) :
    cs.foldlM (KeywordsRequest.read env) vars = cs'.foldlM (KeywordsRequest.read env) vars := by
  induction h generalizing vars with
  | nil => rfl
  | @cons c c' cs cs' hc hcs ih =>
    rw [ItemsOneEach, List.forall_mem_cons] at hone
    rw [List.foldlM_cons, List.foldlM_cons, hc.read hone.1]
    congr 1
    funext vars'
    exact ih hone.2 vars'

theorem foldl_read_reordered (h : List.Forall₂ ArrayReordered cs cs') (vars : Parameters) :
    cs.foldl (Parameters.read none) vars = cs'.foldl (Parameters.read none) vars := by
  induction h generalizing vars with
  | nil => rfl
  | cons hc _ ih => rw [List.foldl_cons, List.foldl_cons, hc.readParameters, ih]

/-- The children of a name that occurs once keep their order. -/
theorem filter_named_perm {name : String} (h : cs.Perm cs')
    (honce : (cs.filter fun c => c.IsNamed name).length ≤ 1) :
    (cs.filter fun c => c.IsNamed name) = cs'.filter fun c => c.IsNamed name := eq_of_perm (h.filter _) honce

/-- `setKeywords` reads the children named keywords, id and final. -/
theorem keywordsRequest_congr (hkeywords : n.named "keywords" = n'.named "keywords") (hid : n.named "id" = n'.named "id")
    (hfinal : n.named "final" = n'.named "final") : n.keywordsRequest env = n'.keywordsRequest env := by
  obtain ⟨habort, hread⟩ := keywordsRequest_cases env n
  obtain ⟨habort', hread'⟩ := keywordsRequest_cases env n'
  by_cases hab : ∃ c ∈ n.named "keywords", Aborts env c
  · rw [habort hab, habort' (hkeywords ▸ hab)]
  · rw [hread hab, hread' (hkeywords ▸ hab)]
    unfold AxiomNode.ids AxiomNode.finals
    rw [hkeywords, hid, hfinal]

/-- `setParameters` reads the children named lifetime, contributors and id. -/
theorem parameters_congr (hlifetime : n.named "lifetime" = n'.named "lifetime")
    (hcontributors : n.named "contributors" = n'.named "contributors") (hid : n.named "id" = n'.named "id") :
    n.parameters none = n'.parameters none := by
  rw [parameters_eq, parameters_eq]
  unfold AxiomNode.lifetimes AxiomNode.ids
  rw [hlifetime, hcontributors, hid]

end Children

/-! ## Requests -/

/-- The names that are read. -/
def memberNames : List String := ["id", "final", "keywords", "lifetime", "contributors"]

section Requests

variable {env : Env} {req req' : AxiomNode}

/-- **Reordered requests are read the same.** -/
theorem Reordered.read (h : Reordered req req') (honce : ∀ name ∈ memberNames, (req.named name).length ≤ 1)
    (hone : ItemsOneEach req.children) :
    req.keywordsRequest env = req'.keywordsRequest env ∧ req.parameters none = req'.parameters none := by
  cases h with
  | @mk name ns attrs cs cs' cs'' hitems hperm =>
    -- the items first, then the children
    have hnamed : ∀ x ∈ memberNames, (AxiomNode.element name ns attrs cs').named x =
        (AxiomNode.element name ns attrs cs'').named x := by
      intro x hx
      have hlen : (cs.filter fun c => c.IsNamed x).length = (cs'.filter fun c => c.IsNamed x).length :=
        (List.rel_filter (fun _ _ hc => by simpa using hc.isNamed x) hitems).length_eq
      exact filter_named_perm hperm (hlen ▸ honce x hx)
    have hkeywords : (AxiomNode.element name ns attrs cs).keywordsRequest env =
        (AxiomNode.element name ns attrs cs').keywordsRequest env := foldlM_read_reordered hitems hone .init
    have hparameters : (AxiomNode.element name ns attrs cs).parameters none =
        (AxiomNode.element name ns attrs cs').parameters none := foldl_read_reordered hitems (.init none)
    refine ⟨hkeywords.trans (keywordsRequest_congr ?_ ?_ ?_), hparameters.trans (parameters_congr ?_ ?_ ?_)⟩ <;>
      exact hnamed _ (by simp [memberNames])

/-- What a request makes the adapter do. -/
def adapterCalls (o : Outcome SvcSig Abort (Option AxiomNode) World) : List (Act SvcSig) :=
  o.acts.filter fun a => (adapterOutcome a).isSome

/-- An empty cache has no duplicates. -/
theorem exists_purge_empty {cache : MessageCache} (hempty : cache.cache = []) (t : Int) (id : ImageId) (msg : String) :
    (cache.purgeOldMessages t).exists id msg = false := by
  have hentries : cache.entries id = [] := by
    unfold MessageCache.entries
    rw [hempty]
    rfl
  rw [← Bool.not_eq_true, MessageCache.exists_iff, MessageCache.entries_purge, hentries]
  simp

/-- The reply to a request that is no duplicate, by the answer of the adapter. -/
def replyTo (out : Except String DhsStatus) : AxiomNode :=
  if out = .ok .S_SUCCESS then buildSuccessResponse none else keywordsReply out

/-- A request that is no duplicate makes one call, and its answer decides the reply. -/
theorem Served.of_missed {vars : KeywordsRequest} {msg : String} {w : World}
    {o : Outcome SvcSig Abort (Option AxiomNode) World} (h : Served vars msg w o)
    (hmissed : (w.cache.purgeOldMessages w.now).exists vars.id msg = false) :
    o.result = .ok (some (replyTo ((w.outcomes 0).map Prod.fst))) ∧ adapterCalls o =
      [⟨.setImageKeywords vars.id vars.keywords vars.final, (w.outcomes 0).map Prod.fst⟩] := by
  unfold adapterCalls replyTo
  cases h with
  | duplicate found => cases hmissed.symm.trans found
  | recorded _ outcome acts _ result =>
    rw [result, acts, outcome]
    exact ⟨rfl, rfl⟩
  | failed _ outcome acts _ result =>
    rw [result, acts, if_neg outcome]
    exact ⟨rfl, rfl⟩

/-- Two requests with the same variables are served the same. -/
theorem keywords_same (hop : req.IsNamed "setKeywords") (hop' : req'.IsNamed "setKeywords")
    (hread : req.keywordsRequest env = req'.keywordsRequest env) {w : World} (hempty : w.cache.cache = []) :
    (serveIn env req w).result = (serveIn env req' w).result ∧
      adapterCalls (serveIn env req w) = adapterCalls (serveIn env req' w) := by
  cases hvars : req.keywordsRequest env with
  | error e =>
    unfold serveIn
    rw [serve_aborted hop hvars, serve_aborted hop' (hread ▸ hvars)]
    exact ⟨rfl, rfl⟩
  | ok vars =>
    by_cases hok : vars.id ≠ "" ∧ vars.keywordsParsed = true
    · have hserved := serveIn_served ⟨hop, hvars, hok.1, hok.2⟩ w
      have hserved' := serveIn_served ⟨hop', hread ▸ hvars, hok.1, hok.2⟩ w
      obtain ⟨hresult, hcalls⟩ := hserved.of_missed (exists_purge_empty hempty _ _ _)
      obtain ⟨hresult', hcalls'⟩ := hserved'.of_missed (exists_purge_empty hempty _ _ _)
      exact ⟨hresult.trans hresult'.symm, hcalls.trans hcalls'.symm⟩
    · unfold serveIn
      rw [serve_rejection hop hvars hok, serve_rejection hop' (hread ▸ hvars) hok]
      exact ⟨rfl, rfl⟩

/-- Two requests with the same parameters are served the same. -/
theorem parameters_same (hop : req.IsNamed "setParameters") (hop' : req'.IsNamed "setParameters")
    (hread : req.parameters none = req'.parameters none) : serve env req = serve env req' := by
  have hbody : setParametersOf none env (some (.root req)) = setParametersOf none env (some (.root req')) := by
    rw [setParametersOf_eq, setParametersOf_eq]
    exact hread ▸ rfl
  rw [serve_setParameters hop, serve_setParameters hop']
  unfold setParameters
  rw [hbody]

theorem Reordered.isNamed (h : Reordered req req') (name : String) : req.IsNamed name ↔ req'.IsNamed name := by
  cases h
  exact Iff.rfl

/-- **Member order does not matter**: reordered requests are served the same, from an empty cache. -/
theorem member_order (env : Env) (h : Reordered req req')
    (hop : req.IsNamed "setKeywords" ∨ req.IsNamed "setParameters")
    (honce : ∀ name ∈ memberNames, (req.named name).length ≤ 1) (hone : ItemsOneEach req.children) {w : World}
    (hempty : w.cache.cache = []) :
    (serveIn env req w).result = (serveIn env req' w).result ∧
      adapterCalls (serveIn env req w) = adapterCalls (serveIn env req' w) := by
  obtain ⟨hkeywords, hparameters⟩ : req.keywordsRequest env = req'.keywordsRequest env ∧ _ := h.read honce hone
  rcases hop with hop | hop
  · exact keywords_same hop ((h.isNamed _).1 hop) hkeywords hempty
  · unfold serveIn
    rw [parameters_same hop ((h.isNamed _).1 hop) hparameters]
    exact ⟨rfl, rfl⟩

end Requests

/-- The item of `objectRequest`, with its members the other way round. -/
def turnedItem : AxiomNode :=
  .element "item" none [] [field "value" "M31", field "type" "STRING", field "name" "OBJECT"]

/-- The request of `objectRequest`, with its members and those of its item the other way round. -/
def turnedRequest : AxiomNode :=
  .element "setKeywords" none []
    [arrayField "keywords" "object" [turnedItem], field "final" "false", field "id" "GS1"]

theorem reordered_turned : Reordered objectRequest turnedRequest := by
  have hitem : ItemReordered (KeywordText.item ⟨"OBJECT", "STRING", "M31"⟩) turnedItem :=
    .item none [] (List.reverse_perm _).symm
  have hitems : List.Forall₂ ArrayReordered objectRequest.children
      [field "id" "GS1", field "final" "false", arrayField "keywords" "object" [turnedItem]] :=
    .cons (.refl _) (.cons (.refl _) (.cons (.keywords none _ (.cons hitem .nil)) .nil))
  exact .mk "setKeywords" none [] hitems (List.reverse_perm _).symm

theorem member_order_turned :
    (serveIn plainEnv objectRequest (statusWorld .S_SUCCESS)).result =
      (serveIn plainEnv turnedRequest (statusWorld .S_SUCCESS)).result ∧
    adapterCalls (serveIn plainEnv objectRequest (statusWorld .S_SUCCESS)) =
      adapterCalls (serveIn plainEnv turnedRequest (statusWorld .S_SUCCESS)) :=
  member_order plainEnv reordered_turned (Or.inl rfl) (by decide) (by decide) rfl

end DhsTranslator
