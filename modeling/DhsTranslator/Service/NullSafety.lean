import DhsTranslator.Service.Replies

/-!
# `NULL` nodes and malformed keyword items

- `parseItems_keywords`: reading an array of keywords gives its leading items, or passes `NULL` to
  `axiom_node_get_parent` at the first item without children, if that is reached (`ReachesChildless`);
- `keywordsRequest_cases`: so does reading a `setKeywords` request;
- `null_safe_iff`: the requests on which no `NULL` node is read through and malformed items are answered with
  `BAD_REQUEST`; `childless_item_aborts`: an empty item is none of them.
-/

namespace DhsTranslator

open Conc DhsService

/-! ## Arrays of keywords -/

/-- An item without children is reached: everything before it is a readable item. -/
def ReachesChildless (env : Env) (ns : List AxiomNode) : Prop :=
  ∃ items c rest, ns = items ++ c :: rest ∧ (∀ i ∈ items, i.IsNamed "item" ∧ itemKeyword env i ≠ none) ∧
    c.IsNamed "item" ∧ c.children = []

section Arrays

variable {env : Env}

theorem reachesChildless_cons {n : AxiomNode} {ns : List AxiomNode} : ReachesChildless env (n :: ns) ↔
    n.IsNamed "item" ∧ (n.children = [] ∨ (itemKeyword env n ≠ none ∧ ReachesChildless env ns)) := by
  constructor
  · rintro ⟨items, c, rest, heq, hitems, hc, hchildren⟩
    rcases items with _ | ⟨m, items⟩
    · obtain rfl := (List.cons.inj heq).1
      exact ⟨hc, Or.inl hchildren⟩
    · obtain ⟨rfl, rfl⟩ := List.cons.inj heq
      have hn := hitems n List.mem_cons_self
      exact ⟨hn.1, Or.inr ⟨hn.2, items, c, rest, rfl, fun i hi => hitems i (List.mem_cons_of_mem _ hi), hc, hchildren⟩⟩
  · rintro ⟨hn, hchildren | ⟨hread, items, c, rest, rfl, hitems, hc, hchildren⟩⟩
    · exact ⟨[], n, ns, rfl, fun i hi => absurd hi List.not_mem_nil, hn, hchildren⟩
    · refine ⟨n :: items, c, rest, rfl, ?_, hc, hchildren⟩
      intro i hi
      rcases List.mem_cons.1 hi with rfl | hi
      · exact ⟨hn, hread⟩
      · exact hitems i hi

/-- **Reading an array of keywords.** -/
theorem parseItems_keywords (env : Env) (ns : List AxiomNode) (array : List Keyword) :
    (ReachesChildless env ns → parseItems (parseKeywordItem env) ns array = .error (.nullNode .getParent)) ∧
    (¬ReachesChildless env ns → parseItems (parseKeywordItem env) ns array =
      .ok (allItems (itemKeyword env) ns, array ++ leadingItems (itemKeyword env) ns)) := by
  induction ns generalizing array with
  | nil =>
    refine ⟨?_, fun _ => by simp [parseItems, allItems, leadingItems]⟩
    rintro ⟨items, c, rest, heq, _⟩
    simp at heq
  | cons n ns ih =>
    rw [reachesChildless_cons]
    by_cases hn : n.IsNamed "item"
    · by_cases hc : n.children = []
      · refine ⟨fun _ => ?_, fun h => absurd ⟨hn, Or.inl hc⟩ h⟩
        simp [parseItems, parseKeywordItem, hn, hc]
      · cases hk : itemKeyword env n with
        | none =>
          refine ⟨?_, fun _ => by simp [parseItems, parseKeywordItem, allItems, leadingItems, hn, hc, hk]⟩
          rintro ⟨_, h | ⟨h, _⟩⟩
          · exact absurd h hc
          · exact absurd rfl h
        | some k =>
          have hstep : parseItems (parseKeywordItem env) (n :: ns) array =
              parseItems (parseKeywordItem env) ns (array ++ [k]) := by
            simp [parseItems, parseKeywordItem, hn, hc, hk]
          rw [hstep]
          refine ⟨?_, fun h => ?_⟩
          · rintro ⟨_, h | ⟨_, h⟩⟩
            · exact absurd h hc
            · exact (ih _).1 h
          · rw [(ih _).2 fun h' => h ⟨hn, Or.inr ⟨Option.some_ne_none k, h'⟩⟩]
            simp [allItems, leadingItems, hn, hk]
    · exact ⟨fun h => absurd h.1 hn, fun _ => by simp [parseItems, allItems, leadingItems, hn]⟩

end Arrays

/-- The keywords that an array node gives. -/
def keywordsOf (env : Env) (n : AxiomNode) : List Keyword :=
  if n.hasArrayType "object" then leadingItems (itemKeyword env) n.children else []

/-- The node is an array of objects in which every child is a readable item. -/
def keywordsReadable (env : Env) (n : AxiomNode) : Bool :=
  n.hasArrayType "object" && allItems (itemKeyword env) n.children

/-- Reading the node passes `NULL` to `axiom_node_get_parent`. -/
def Aborts (env : Env) (n : AxiomNode) : Prop := n.hasArrayType "object" = true ∧ ReachesChildless env n.children

theorem parseKeywords_cases (env : Env) (n : AxiomNode) (keywords : List Keyword) :
    (Aborts env n → parseKeywords env n keywords = .error (.nullNode .getParent)) ∧
    (¬Aborts env n → parseKeywords env n keywords = .ok (keywordsReadable env n, keywords ++ keywordsOf env n)) := by
  obtain ⟨habort, hok⟩ := parseItems_keywords env n.children keywords
  unfold Aborts parseKeywords keywordsReadable keywordsOf
  cases ht : n.hasArrayType "object" with
  | true => exact ⟨fun h => habort h.2, fun h => hok fun h' => h ⟨rfl, h'⟩⟩
  | false => exact ⟨fun h => Bool.noConfusion h.1, fun _ => by simp⟩

/-! ## Requests -/

/-- The values of the flag that the children of that name give. -/
def AxiomNode.finals (n : AxiomNode) (env : Env) : List Bool :=
  (n.named "final").filterMap fun c => c.firstText.bind (ReadText.readText env)

/-- **Reading one child** of the request. -/
theorem read_cases (env : Env) (c : AxiomNode) (vars : KeywordsRequest) :
    (c.IsNamed "keywords" ∧ Aborts env c → vars.read env c = .error (.nullNode .getParent)) ∧
    (¬(c.IsNamed "keywords" ∧ Aborts env c) → vars.read env c = .ok
      { keywords := vars.keywords ++ if c.IsNamed "keywords" then keywordsOf env c else []
        id := (if c.IsNamed "id" then c.firstText else none).getD vars.id
        final := (if c.IsNamed "final" then c.firstText.bind (ReadText.readText env) else none).getD vars.final
        keywordsParsed := if c.IsNamed "keywords" then keywordsReadable env c else vars.keywordsParsed }) := by
  unfold KeywordsRequest.read
  by_cases h₁ : c.IsNamed "keywords"
  · have h₂ : ¬c.IsNamed "id" := fun h => absurd (h₁.unique h) (by decide)
    have h₃ : ¬c.IsNamed "final" := fun h => absurd (h₁.unique h) (by decide)
    obtain ⟨habort, hok⟩ := parseKeywords_cases env c vars.keywords
    refine ⟨fun h => ?_, fun h => ?_⟩
    · simp [h₁, habort h.2, Except.map]
    · simp [h₁, h₂, h₃, hok fun h' => h ⟨h₁, h'⟩, Except.map]
  · refine ⟨fun h => absurd h.1 h₁, fun _ => ?_⟩
    by_cases h₂ : c.IsNamed "id"
    · have h₃ : ¬c.IsNamed "final" := fun h => absurd (h₂.unique h) (by decide)
      cases ht : c.firstText <;> simp [h₁, h₂, h₃]
    · by_cases h₃ : c.IsNamed "final"
      · cases ht : c.firstText.bind (ReadText.readText (T := Bool) env) <;> simp [h₁, h₂, h₃]
      · simp [h₁, h₂, h₃]

/-- The last value that a list gives, after one more element. -/
theorem getLastD_filterMap {α β : Type} (p : α → Prop) [DecidablePred p] (f : α → Option β) (l : List β) (x : α)
    (d : β) : (l ++ ([x].filter fun x => p x).filterMap f).getLastD d = (if p x then f x else none).getD (l.getLastD d) := by
  by_cases h : p x
  · cases hf : f x <;> simp [h, hf]
  · simp [h]

/-- **The keywords of a request**: reading it aborts, or gives these variables. -/
theorem keywordsRequest_cases (env : Env) (n : AxiomNode) :
    ((∃ c ∈ n.named "keywords", Aborts env c) → n.keywordsRequest env = .error (.nullNode .getParent)) ∧
    ((¬∃ c ∈ n.named "keywords", Aborts env c) → n.keywordsRequest env =
      .ok ⟨(n.named "keywords").flatMap (keywordsOf env), n.ids.getLastD "", (n.finals env).getLastD false,
        ((n.named "keywords").map (keywordsReadable env)).getLastD false⟩) := by
  unfold AxiomNode.keywordsRequest AxiomNode.ids AxiomNode.finals AxiomNode.named
  generalize n.children = ns
  induction ns using List.reverseRecOn with
  | nil => exact ⟨fun ⟨c, hc, _⟩ => absurd hc List.not_mem_nil, fun _ => rfl⟩
  | append_singleton ns c ih =>
    have hexists : (∃ d ∈ (ns ++ [c]).filter fun c => c.IsNamed "keywords", Aborts env d) ↔
        (∃ d ∈ ns.filter fun c => c.IsNamed "keywords", Aborts env d) ∨ (c.IsNamed "keywords" ∧ Aborts env c) := by
      simp [or_and_right, exists_or, and_assoc]
    rw [hexists, List.foldlM_append]
    by_cases hbefore : ∃ d ∈ ns.filter fun c => c.IsNamed "keywords", Aborts env d
    · rw [ih.1 hbefore]
      exact ⟨fun _ => rfl, fun h => absurd (Or.inl hbefore) h⟩
    · rw [ih.2 hbefore]
      simp only [List.foldlM_cons, List.foldlM_nil, bind, Except.bind]
      obtain ⟨habort, hok⟩ := read_cases env c
        ⟨(ns.filter fun c => c.IsNamed "keywords").flatMap (keywordsOf env),
          ((ns.filter fun c => c.IsNamed "id").filterMap AxiomNode.firstText).getLastD "",
          ((ns.filter fun c => c.IsNamed "final").filterMap fun c =>
            c.firstText.bind (ReadText.readText env)).getLastD false,
          ((ns.filter fun c => c.IsNamed "keywords").map (keywordsReadable env)).getLastD false⟩
      refine ⟨fun h => ?_, fun h => ?_⟩
      · rw [habort (h.resolve_left hbefore)]
      · rw [hok fun h' => h (Or.inr h')]
        simp only [List.filter_append, List.filterMap_append, List.flatMap_append, List.map_append, getLastD_filterMap,
          pure, Except.pure]
        by_cases hc : c.IsNamed "keywords" <;> simp [hc]

/-- No `NULL` node is read through, and malformed keyword items are answered with `BAD_REQUEST`. -/
structure NullSafe (env : Env) (req : AxiomNode) : Prop where
  noNull : ∀ w fn, (serveIn env req w).result ≠ .error (.nullNode fn)
  malformed : req.IsNamed "setKeywords" → (∃ n ∈ req.named "keywords", ∃ c ∈ n.items, itemKeyword env c = none) →
    ∀ w, Replies (serveIn env req w) (HasErrorType BAD_REQUEST)

/-- No childless item is reached, and where some item is malformed the id is missing or the last array of keywords is
not readable. -/
structure WellShaped (env : Env) (req : AxiomNode) : Prop where
  noChildless : ∀ n ∈ req.named "keywords", ¬Aborts env n
  malformed : (∃ n ∈ req.named "keywords", ∃ c ∈ n.items, itemKeyword env c = none) →
    req.ids.getLastD "" = "" ∨ ((req.named "keywords").map (keywordsReadable env)).getLastD false = false

section Requests

variable {env : Env} {req : AxiomNode}

theorem result_aborted (hop : req.IsNamed "setKeywords") (h : ∃ c ∈ req.named "keywords", Aborts env c) (w : World) :
    (serveIn env req w).result = .error (.nullNode .getParent) := by
  unfold serveIn
  rw [serve_aborted hop ((keywordsRequest_cases env req).1 h)]
  rfl

/-- A request that is read without aborting is rejected iff its id or its keywords are missing. -/
theorem badRequest_iff (hop : req.IsNamed "setKeywords") (h : ∀ c ∈ req.named "keywords", ¬Aborts env c) (w : World) :
    (∃ reply, (serveIn env req w).result = .ok (some reply)) ∧
    (Replies (serveIn env req w) (HasErrorType BAD_REQUEST) ↔
      req.ids.getLastD "" = "" ∨ ((req.named "keywords").map (keywordsReadable env)).getLastD false = false) := by
  have hread := (keywordsRequest_cases env req).2 fun ⟨c, hc, hab⟩ => h c hc hab
  by_cases hok : req.ids.getLastD "" ≠ "" ∧
      ((req.named "keywords").map (keywordsReadable env)).getLastD false = true
  · have hwf := WellFormed.mk hop hread hok.1 hok.2
    have hcond : ¬(req.ids.getLastD "" = "" ∨
        ((req.named "keywords").map (keywordsReadable env)).getLastD false = false) := by
      rintro (hid | hlast)
      · exact hok.1 hid
      · exact Bool.noConfusion (hlast.symm.trans hok.2)
    have hserved := serveIn_served hwf w
    cases hserved with
    | duplicate _ _ _ result =>
      exact ⟨⟨_, result⟩, (replies_iff result _).trans (iff_of_false (not_errorType_success _) hcond)⟩
    | recorded _ _ _ _ result =>
      exact ⟨⟨_, result⟩, (replies_iff result _).trans (iff_of_false (not_errorType_success _) hcond)⟩
    | failed _ _ _ _ result =>
      exact ⟨⟨_, result⟩,
        (replies_iff result _).trans (iff_of_false (isFailureReply_keywords _).not_badRequest hcond)⟩
  · have hcond : req.ids.getLastD "" = "" ∨
        ((req.named "keywords").map (keywordsReadable env)).getLastD false = false := by
      by_cases hid : req.ids.getLastD "" = ""
      · exact Or.inl hid
      · exact Or.inr (Bool.eq_false_iff.2 fun hlast => hok ⟨hid, hlast⟩)
    obtain ⟨message, hserve⟩ := serve_rejected hop hread hok
    have hres : (serveIn env req w).result = .ok (some (buildErrorResponse BAD_REQUEST message)) := by
      unfold serveIn
      rw [hserve]
      rfl
    exact ⟨⟨_, hres⟩, (replies_iff hres _).trans (iff_of_true (errorType_error.2 rfl) hcond)⟩

/-- `createImage` and `setParameters` always reply. -/
theorem replies_of_parameters (env : Env) (hop : req.IsNamed "createImage" ∨ req.IsNamed "setParameters") (w : World) :
    ∃ reply, (serveIn env req w).result = .ok (some reply) := by
  have hends := run_ends handler (serve env req) w
  rcases hop with hop | hop
  · obtain ⟨reply, hres, _⟩ := ends_createImage hop hends
    exact ⟨reply, hres⟩
  · rcases ends_setParameters hop hends with ⟨_, _, hres⟩ | ⟨_, reply, hres, _⟩
    · exact ⟨noImageId, hres⟩
    · exact ⟨reply, hres⟩

/-- **Where requests are safe**: always, except for `setKeywords` requests that are not well shaped. -/
theorem null_safe_iff (env : Env)
    (hop : req.IsNamed "createImage" ∨ req.IsNamed "setParameters" ∨ req.IsNamed "setKeywords") :
    NullSafe env req ↔ (req.IsNamed "setKeywords" → WellShaped env req) := by
  by_cases hkey : req.IsNamed "setKeywords"
  · constructor
    · intro hsafe _
      have hno : ∀ c ∈ req.named "keywords", ¬Aborts env c := fun c hc hab =>
        hsafe.noNull (statusWorld .S_SUCCESS) _ (result_aborted hkey ⟨c, hc, hab⟩ _)
      exact ⟨hno, fun hbad => (badRequest_iff hkey hno _).2.1 (hsafe.malformed hkey hbad (statusWorld .S_SUCCESS))⟩
    · intro hshape
      obtain ⟨hno, hmal⟩ := hshape hkey
      refine ⟨fun w fn hnull => ?_, fun _ hbad w => (badRequest_iff hkey hno w).2.2 (hmal hbad)⟩
      obtain ⟨reply, hres⟩ := (badRequest_iff hkey hno w).1
      cases hres.symm.trans hnull
  · have hop' : req.IsNamed "createImage" ∨ req.IsNamed "setParameters" := by
      rcases hop with h | h | h
      · exact Or.inl h
      · exact Or.inr h
      · exact absurd h hkey
    refine iff_of_true ⟨fun w fn hnull => ?_, fun h => absurd h hkey⟩ fun h => absurd h hkey
    obtain ⟨reply, hres⟩ := replies_of_parameters env hop' w
    cases hres.symm.trans hnull

end Requests

theorem null_safe_iff_object : NullSafe plainEnv objectRequest ↔
    (objectRequest.IsNamed "setKeywords" → WellShaped plainEnv objectRequest) :=
  null_safe_iff plainEnv (Or.inr (Or.inr rfl))

/-- A request with a keyword item without members. -/
def childlessRequest : AxiomNode :=
  .element "setKeywords" none [] [field "id" "GS1", arrayField "keywords" "object" [.element "item" none [] []]]

/-- **An item without members ends the process.** -/
theorem childless_item_aborts : ¬∀ req : AxiomNode,
    req.IsNamed "createImage" ∨ req.IsNamed "setParameters" ∨ req.IsNamed "setKeywords" → NullSafe plainEnv req := by
  intro hall
  have hsafe := hall childlessRequest (Or.inr (Or.inr rfl))
  exact hsafe.noNull (statusWorld .S_SUCCESS) .getParent rfl

end DhsTranslator
