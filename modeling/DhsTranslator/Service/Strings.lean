import DhsTranslator.Service.Delivery
import DhsTranslator.Service.Values

/-!
# String values of keyword items

The string reader takes the text of a text node as it is. An element for the empty string has no text node, so there
is nothing to take.

- `itemKeyword_string`: the keyword of an item of type `STRING`;
- `strings_kept_iff`: a string is kept, and the request with it, iff it is not empty;
- `empty_string_rejected`: an empty string takes the whole request with it.
-/

namespace DhsTranslator

open Conc DhsService

/-- The node is a value element for the string: its first child is the text, or, for the empty string, no child is a
text node. -/
def HoldsString (v : AxiomNode) (s : String) : Prop :=
  if s = "" then ∀ c ∈ v.children, c.nodeType ≠ .TEXT else v.firstText = some s

/-- An item of type `STRING` with this name and value. -/
structure StringItem (item : AxiomNode) (name s : String) : Prop where
  isItem : item.IsNamed "item"
  name : item.namedText "name" = some name
  type : item.namedText "type" = some "STRING"
  value : ∃ v, item.findNamed "value" = some v ∧ HoldsString v s

/-- The request has one array of keywords, with the item in it, and nothing but the item may be wrong with it. -/
structure FineBut (env : Env) (item req n : AxiomNode) : Prop where
  op : req.IsNamed "setKeywords"
  id : req.ids.getLastD "" ≠ ""
  array : req.named "keywords" = [n]
  type : n.hasArrayType "object" = true
  mem : item ∈ n.children
  others : ∀ c ∈ n.children, c = item ∨ ∃ k, Decodes env c k

/-- The string is carried as it is, and a request is not rejected for it. -/
structure StringKept (env : Env) (p : NodePtr) (name s : String) : Prop where
  decoded : ∃ k, (parseVal env p.firstChild : Except Abort (Option Keyword)) = .ok (some k) ∧ k.name = name ∧
    k.type = .STRING ∧ k.getValue String = .ok s
  accepted : ∀ req n, FineBut env p.node req n → ∃ vars, WellFormed env req vars

section Strings

variable {env : Env} {item req n : AxiomNode} {name s : String}

/-- Without a text node there is no text. -/
theorem firstText_none {v : AxiomNode} (h : ∀ c ∈ v.children, c.nodeType ≠ .TEXT) : v.firstText = none := by
  unfold AxiomNode.firstText
  cases hc : v.children with
  | nil => rfl
  | cons c cs =>
    have hne := h c (hc ▸ List.mem_cons_self)
    cases c with
    | text t => exact absurd rfl hne
    | _ => rfl

/-- The text a string is read from. -/
theorem StringItem.namedText_value (h : StringItem item name s) :
    item.namedText "value" = if s = "" then none else some s := by
  obtain ⟨v, hfind, hv⟩ := h.value
  unfold AxiomNode.namedText
  rw [hfind, Option.bind_some]
  unfold HoldsString at hv
  by_cases hs : s = ""
  · rw [if_pos hs] at hv ⊢
    exact firstText_none hv
  · rw [if_neg hs] at hv ⊢
    exact hv

/-- **The keyword of a string item.** -/
theorem itemKeyword_string (env : Env) (h : StringItem item name s) :
    itemKeyword env item = if s = "" then none else some (Keyword.of name s) := by
  unfold itemKeyword
  rw [h.name, h.type, h.namedText_value]
  by_cases hs : s = ""
  · rw [if_pos hs, if_pos hs]
    rfl
  · rw [if_neg hs, if_neg hs]
    rfl

theorem StringItem.children_ne_nil (h : StringItem item name s) : item.children ≠ [] :=
  h.isItem.children_ne_nil (by decide) h.name

/-- The keyword reader, on the first child of the item. -/
theorem StringItem.parseVal_eq (env : Env) {p : NodePtr} (h : StringItem p.node name s) :
    (parseVal env p.firstChild : Except Abort (Option Keyword)) = .ok (itemKeyword env p.node) := by
  rw [parseKeyword_firstChild]
  exact if_neg h.children_ne_nil

/-- Reading the array does not run into an item without children. -/
theorem FineBut.not_aborts (h : FineBut env item req n) (hitem : item.children ≠ []) : ¬Aborts env n := by
  rintro ⟨_, items, c, rest, hchildren, _, _, hnil⟩
  have hc : c ∈ n.children := by simp [hchildren]
  rcases h.others c hc with rfl | ⟨k, hk⟩
  · exact hitem hnil
  · exact hk.isItem.children_ne_nil (by decide) hk.name hnil

/-- If the item gives a keyword, the request is well formed. -/
theorem FineBut.wellFormed (h : FineBut env item req n) {k : Keyword} (hk : Decodes env item k) :
    ∃ vars, WellFormed env req vars := by
  have hdecodes : ∀ c ∈ n.children, ∃ k, Decodes env c k := by
    intro c hc
    rcases h.others c hc with rfl | hother
    · exact ⟨k, hk⟩
    · exact hother
  have hreadable : keywordsReadable env n = true := by
    unfold keywordsReadable allItems
    rw [h.type, Bool.true_and, List.all_eq_true]
    intro c hc
    obtain ⟨k, hk⟩ := hdecodes c hc
    obtain ⟨hitem, hkeyword⟩ := decodes_iff.1 hk
    simp [hitem, hkeyword]
  have hno : ¬Aborts env n := h.not_aborts (hk.isItem.children_ne_nil (by decide) hk.name)
  refine ⟨_, (wellFormed_iff h.op).2 ⟨?_, h.id, ?_, rfl, rfl, rfl⟩⟩
  · rw [h.array]
    exact List.forall_mem_singleton.2 hno
  · rw [h.array]
    exact hreadable

/-- **String values**: a string is kept iff it is not empty. -/
theorem strings_kept_iff (env : Env) {p : NodePtr} (h : StringItem p.node name s) : StringKept env p name s ↔ s ≠ "" := by
  have hread := itemKeyword_string env h
  constructor
  · rintro ⟨⟨k, hk, _⟩, _⟩ hs
    rw [h.parseVal_eq env, hread, if_pos hs] at hk
    cases hk
  · intro hs
    rw [if_neg hs] at hread
    have hdecodes : Decodes env p.node (Keyword.of name s) := decodes_iff.2 ⟨h.isItem, hread⟩
    refine ⟨⟨Keyword.of name s, ?_, rfl, rfl, getValue_of name s⟩, fun req n hfine => hfine.wellFormed hdecodes⟩
    rw [h.parseVal_eq env, hread]

/-- **An empty string** is no keyword, and the request is rejected. -/
theorem empty_string_rejected (h : StringItem item name "") (hfine : FineBut env item req n) : Rejected env req := by
  have hitem : item ∈ n.items := List.mem_filter.2 ⟨hfine.mem, decide_eq_true h.isItem⟩
  have hno := hfine.not_aborts h.children_ne_nil
  exact (incomplete_of_item hfine.array hno hitem (itemKeyword_string env h)).rejected hfine.op

end Strings

/-- An item of type `STRING`, as it is written: an empty value has no text. -/
def stringItem (name s : String) : AxiomNode :=
  .element "item" none [] [field "name" name, field "type" "STRING",
    .element "value" none [] (if s = "" then [] else [.text s])]

theorem stringItem_isString (name s : String) : StringItem (stringItem name s) name s := by
  refine ⟨rfl, rfl, rfl, _, rfl, ?_⟩
  unfold HoldsString
  by_cases hs : s = ""
  · rw [if_pos hs, if_pos hs]
    exact fun c hc => absurd hc List.not_mem_nil
  · rw [if_neg hs, if_neg hs]
    rfl

theorem strings_kept_iff_spaced : StringKept plainEnv (.root (stringItem "OBJECT" " M 31 ")) "OBJECT" " M 31 " ↔
    " M 31 " ≠ "" := strings_kept_iff plainEnv (stringItem_isString "OBJECT" " M 31 ")

/-- **An empty string** is not kept. -/
theorem empty_string_lost : ¬∀ (env : Env) (p : NodePtr) (name s : String), name ≠ "" → StringItem p.node name s →
    StringKept env p name s := by
  intro hall
  have hitem := stringItem_isString "OBJECT" ""
  obtain ⟨⟨k, hk, _⟩, _⟩ := hall plainEnv (.root (stringItem "OBJECT" "")) "OBJECT" "" (by decide) hitem
  rw [hitem.parseVal_eq (p := .root (stringItem "OBJECT" "")) plainEnv] at hk
  cases hk

end DhsTranslator
