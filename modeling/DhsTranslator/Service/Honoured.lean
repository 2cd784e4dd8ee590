import DhsTranslator.Service.Replies

/-!
# What a reply of success promises

A request for parameters of an image that is answered with success.

- `NamesLifetime`: the lifetimes by their names; `Honoured`: the lifetime and the contributors in the request were
  passed on as they stand there;
- `leadingItems_complete_iff`: when the items before the first unreadable node are all items;
- `honoured_iff`: success promises this exactly for requests in which everything can be read, or that lack the id;
  `lifetime_dropped`: a lifetime that is none is dropped.
-/

namespace DhsTranslator

open Conc DhsService

/-! ## Complete arrays -/

section Arrays

variable {T : Type}

/-- Where a list whose head is known is split. -/
theorem split_cons {α : Type} {p q : α → Prop} {x : α} {xs : List α} :
    (∃ front back, x :: xs = front ++ back ∧ (∀ y ∈ front, p y) ∧ ∀ y ∈ back, q y) ↔
      (∀ y ∈ x :: xs, q y) ∨
      (p x ∧ ∃ front back, xs = front ++ back ∧ (∀ y ∈ front, p y) ∧ ∀ y ∈ back, q y) := by
  constructor
  · rintro ⟨front, back, heq, hfront, hback⟩
    cases front with
    | nil =>
      rw [heq]
      exact Or.inl hback
    | cons y front =>
      obtain ⟨rfl, rfl⟩ := List.cons.inj heq
      obtain ⟨hx, hfront⟩ := List.forall_mem_cons.1 hfront
      exact Or.inr ⟨hx, front, back, rfl, hfront, hback⟩
  · rintro (h | ⟨hx, front, back, rfl, hfront, hback⟩)
    · exact ⟨[], _, rfl, fun y hy => absurd hy List.not_mem_nil, h⟩
    · exact ⟨x :: front, back, rfl, List.forall_mem_cons.2 ⟨hx, hfront⟩, hback⟩

/-- Nothing is missing from the leading items iff they are readable and no item follows the rest. -/
theorem leadingItems_complete_iff (read : AxiomNode → Option T) (ns : List AxiomNode) :
    (ns.filter fun c => c.IsNamed "item").map read = (leadingItems read ns).map some ↔
      ∃ items others, ns = items ++ others ∧ (∀ c ∈ items, c.IsNamed "item" ∧ read c ≠ none) ∧
        ∀ c ∈ others, ¬c.IsNamed "item" := by
  induction ns with
  | nil => exact iff_of_true rfl ⟨[], [], rfl, by simp, by simp⟩
  | cons n ns ih =>
    rw [split_cons, ← ih, List.forall_mem_cons]
    by_cases hn : n.IsNamed "item"
    · cases hr : read n with
      | none => simp [leadingItems, hn, hr]
      | some v => simp [leadingItems, hn, hr]
    · simp [leadingItems, hn]

end Arrays

/-! ## Honoured requests -/

/-- The lifetimes by their names. -/
inductive NamesLifetime : String → DhsBdLifetime → Prop
  | permanent : NamesLifetime "PERMANENT" .PERMANENT
  | temporary : NamesLifetime "TEMPORARY" .TEMPORARY
  | transient : NamesLifetime "TRANSIENT" .TRANSIENT

/-- The names that the decoder knows. -/
theorem translateLifetime_iff {text : Option String} {lt : DhsBdLifetime} :
    translateLifetime text = some lt ↔ ∃ name, text = some name ∧ NamesLifetime name lt := by
  constructor
  · intro h
    unfold translateLifetime at h
    split at h <;> cases h
    · exact ⟨_, rfl, .permanent⟩
    · exact ⟨_, rfl, .temporary⟩
    · exact ⟨_, rfl, .transient⟩
  · rintro ⟨name, rfl, h⟩
    cases h <;> rfl

/-- What success promises: the lifetime that the request names was set, and its contributors were set to all items. -/
structure Honoured (req : AxiomNode) (o : Outcome SvcSig Abort (Option AxiomNode) World) : Prop where
  lifetime : ∀ n ∈ req.named "lifetime", ∃ name lt, n.firstText = some name ∧ NamesLifetime name lt ∧
    ∃ id out, ⟨.setImageLifeTime id lt, out⟩ ∈ o.acts
  contributors : ∀ n ∈ req.named "contributors", ∃ texts : List String,
    n.items.map AxiomNode.firstText = texts.map some ∧
      (texts ≠ [] → ∃ id out, ⟨.setImageContrib id texts, out⟩ ∈ o.acts)

/-- An array of strings in which nothing is in the way of an item, or no items at all. -/
def ReadableContributors (n : AxiomNode) : Prop :=
  n.items = [] ∨ (n.hasArrayType "string" = true ∧ ∃ items others, n.children = items ++ others ∧
    (∀ c ∈ items, c.IsNamed "item" ∧ c.firstText ≠ none) ∧ ∀ c ∈ others, ¬c.IsNamed "item")

/-- Contributors are read completely iff they are readable. -/
theorem readableContributors_iff (n : AxiomNode) :
    ReadableContributors n ↔ n.items.map AxiomNode.firstText = (contributorsOf n).map some := by
  unfold ReadableContributors contributorsOf
  have hcomplete := leadingItems_complete_iff AxiomNode.firstText n.children
  rw [← hcomplete]
  by_cases ht : n.hasArrayType "string" = true
  · rw [if_pos ht]
    constructor
    · rintro (h | ⟨_, h⟩)
      · have hnone : ∀ c ∈ n.children, ¬c.IsNamed "item" := by
          intro c hc
          simpa using List.filter_eq_nil_iff.1 h c hc
        exact hcomplete.2 ⟨[], n.children, rfl, fun c hc => absurd hc List.not_mem_nil, hnone⟩
      · exact h
    · exact fun h => Or.inr ⟨ht, h⟩
  · rw [if_neg ht]
    constructor
    · rintro (h | ⟨h, _⟩)
      · rw [h]; rfl
      · exact absurd h ht
    · intro h
      exact Or.inl (List.map_eq_nil_iff.1 h)

/-- The answer that the adapter gives to the call in a world where every call succeeds. -/
def AnsweredWell : Act SvcSig → Prop
  | ⟨.createImage, out⟩ => out = .ok (.S_SUCCESS, "GS1")
  | ⟨.setImageLifeTime _ _, out⟩ => out = .ok .S_SUCCESS
  | ⟨.setImageContrib _ _, out⟩ => out = .ok .S_SUCCESS
  | _ => True

theorem answeredWell (env : Env) (req : AxiomNode) :
    ∀ a ∈ (serveIn env req (statusWorld .S_SUCCESS)).acts, AnsweredWell a := by
  have hinv : ∀ (c : SvcCmd) (w : World), (w.outcomes = fun _ => .ok (.S_SUCCESS, "GS1")) →
      AnsweredWell ⟨c, (handler c w).1⟩ ∧ (handler c w).2.outcomes = fun _ => .ok (.S_SUCCESS, "GS1") := by
    intro c w hw
    cases c <;> simp [AnsweredWell, handler, World.called, hw, Except.map]
  exact run_forall (I := fun w => w.outcomes = fun _ => .ok (.S_SUCCESS, "GS1")) hinv _ rfl

/-- Calls that are answered well end with success. -/
theorem CallsEnd.done_of_answeredWell {id : ImageId} {cs : List ParamCall} {ok reply : AxiomNode}
    {tr : List (Act SvcSig)} (h : CallsEnd id cs ok tr reply) (htr : ∀ a ∈ tr, AnsweredWell a) :
    tr = succeeded id cs ∧ reply = ok := by
  cases h with
  | done => exact ⟨rfl, rfl⟩
  | failed done c rest out hcs hout =>
    have hlast := htr (c.act id out) (by simp)
    cases c <;> exact absurd hlast hout

section Requests

variable {env : Env} {req : AxiomNode}

/-- A reply of success means that all calls succeeded. -/
theorem calls_of_success {w : World} (hop : req.IsNamed "setParameters" ∨ req.IsNamed "createImage")
    (h : Replies (serveIn env req w) IsSuccess) :
    ∃ id, ∀ c ∈ (req.parameters none).calls, c.act id (.ok .S_SUCCESS) ∈ (serveIn env req w).acts := by
  have hends := run_ends handler (serve env req) w
  obtain ⟨reply, hreply, hok⟩ := h
  have hreply' : ((serve env req).run handler w).result = .ok (some reply) := hreply
  -- the calls behind a reply of success are all there
  have hdone : ∀ {id cs ok tr}, CallsEnd id cs ok tr reply → ∀ c ∈ cs, c.act id (.ok .S_SUCCESS) ∈ tr := by
    intro id cs ok tr hend
    cases hend with
    | done => exact fun c hc => List.mem_map_of_mem hc
    | failed done c rest out _ _ => exact absurd hok (isFailureReply_param c out).not_isSuccess
  unfold serveIn
  rcases hop with hop | hop
  · rcases ends_setParameters hop hends with ⟨_, _, hres⟩ | ⟨_, reply', hres, hend⟩
    · cases hreply'.symm.trans hres
      exact absurd hok (not_isSuccess_error _ _)
    · cases hreply'.symm.trans hres
      exact ⟨_, hdone hend⟩
  · obtain ⟨reply', hres, hend⟩ := ends_createImage hop hends
    cases hreply'.symm.trans hres
    generalize ((serve env req).run handler w).acts = tr at hend
    cases hend with
    | failed out hout => cases out <;> exact absurd hok (not_isSuccess_error _ _)
    | bare id hc =>
      have hnone : (req.parameters none).calls = [] := by
        unfold AxiomNode.parameters
        rw [hc]
        rfl
      rw [hnone]
      exact ⟨id, fun c hmem => absurd hmem List.not_mem_nil⟩
    | noId hc => exact absurd hok (not_isSuccess_error _ _)
    | calls id hc hid hcalls =>
      rw [calls_eq] at hcalls
      exact ⟨id, fun c hmem => List.mem_cons_of_mem _ (hdone hcalls c hmem)⟩

/-- Only the calls for the parameters are made, apart from the creation of an image. -/
theorem call_of_act {w : World} (hop : req.IsNamed "setParameters" ∨ req.IsNamed "createImage") {a : Act SvcSig}
    (ha : a ∈ (serveIn env req w).acts) : a.cmd = .createImage ∨
      ∃ c ∈ (req.parameters none).calls, ∃ id, ∃ out : Except String DhsStatus, a = c.act id out := by
  have hends := run_ends handler (serve env req) w
  unfold serveIn at ha
  rcases hop with hop | hop
  · rcases ends_setParameters hop hends with ⟨_, hacts, _⟩ | ⟨_, reply, _, hend⟩
    · rw [hacts] at ha
      exact absurd ha List.not_mem_nil
    · obtain ⟨c, hc, out, rfl⟩ := hend.mem ha
      exact Or.inr ⟨c, hc, _, out, rfl⟩
  · obtain ⟨reply, _, hend⟩ := ends_createImage hop hends
    generalize ((serve env req).run handler w).acts = tr at hend ha
    cases hend with
    | failed out hout => rw [List.mem_singleton.1 ha]; exact Or.inl rfl
    | bare id hc => rw [List.mem_singleton.1 ha]; exact Or.inl rfl
    | noId hc => rw [List.mem_singleton.1 ha]; exact Or.inl rfl
    | calls id hc hid hcalls =>
      rw [calls_eq] at hcalls
      rcases List.mem_cons.1 ha with rfl | ha
      · exact Or.inl rfl
      · obtain ⟨c, hc', out, rfl⟩ := hcalls.mem ha
        exact Or.inr ⟨c, hc', id, out, rfl⟩

/-- Where every call succeeds, a request that names an image is answered with success. -/
theorem success_of_answeredWell (env : Env) (hop : req.IsNamed "setParameters" ∨ req.IsNamed "createImage")
    (hid : req.IsNamed "setParameters" → req.ids.getLastD "" ≠ "") :
    Replies (serveIn env req (statusWorld .S_SUCCESS)) IsSuccess := by
  have hends := run_ends handler (serve env req) (statusWorld .S_SUCCESS)
  have hwell := answeredWell env req
  unfold serveIn at hwell
  rcases hop with hop | hop
  · have hids : (req.parameters none).id = req.ids.getLastD "" := by rw [parameters_eq]; rfl
    rcases ends_setParameters hop hends with ⟨hempty, _, _⟩ | ⟨_, reply, hres, hend⟩
    · exact absurd (hids.symm.trans hempty) (hid hop)
    · obtain ⟨_, rfl⟩ := hend.done_of_answeredWell hwell
      exact ⟨_, hres, isSuccess_success none⟩
  · obtain ⟨reply, hres, hend⟩ := ends_createImage hop hends
    refine ⟨reply, hres, ?_⟩
    generalize ((serve env req).run handler (statusWorld .S_SUCCESS)).acts = tr at hend hwell
    cases hend with
    | failed out hout =>
      have hout' : out = .ok (.S_SUCCESS, "GS1") := hwell _ List.mem_cons_self
      subst hout'
      exact absurd rfl hout
    | bare id hc => rfl
    | noId hc =>
      have hcreated : (Except.ok (DhsStatus.S_SUCCESS, "") : Except String (DhsStatus × ImageId)) =
        .ok (.S_SUCCESS, "GS1") := hwell _ List.mem_cons_self
      exact absurd (Except.ok.inj hcreated) (by decide)
    | calls id hc hne hcalls =>
      obtain ⟨_, rfl⟩ := hcalls.done_of_answeredWell fun a ha => hwell a (List.mem_cons_of_mem _ ha)
      rfl

/-- Everything the request asks for can be read. -/
structure Readable (req : AxiomNode) : Prop where
  lifetime : ∀ n ∈ req.named "lifetime", ∃ name lt, n.firstText = some name ∧ NamesLifetime name lt
  contributors : ∀ n ∈ req.named "contributors", ReadableContributors n

theorem eq_singleton_of_mem {α : Type} {l : List α} {x : α} (hx : x ∈ l) (hl : l.length ≤ 1) : l = [x] := by
  rcases l with _ | ⟨y, _ | ⟨z, l⟩⟩
  · exact absurd hx List.not_mem_nil
  · rw [List.mem_singleton.1 hx]
  · simp at hl

/-- The calls for the parameters that were read. -/
theorem mem_calls {c : ParamCall} : c ∈ (req.parameters none).calls ↔
    (req.lifetimes ≠ [] ∧ c = .lifeTime (req.lifetimes.getLastD .TRANSIENT)) ∨
    ((req.named "contributors").flatMap contributorsOf ≠ [] ∧
      c = .contrib ((req.named "contributors").flatMap contributorsOf)) := by
  rw [parameters_eq]
  unfold Parameters.calls
  rw [List.mem_append]
  by_cases hl : req.lifetimes = [] <;> by_cases hc : (req.named "contributors").flatMap contributorsOf = [] <;>
    simp only [hl, hc] <;> simp [hl]

/-- A request is readable if what success promises came about in any run. -/
theorem Honoured.readable {w : World} (h : Honoured req (serveIn env req w))
    (hop : req.IsNamed "setParameters" ∨ req.IsNamed "createImage") (hcon : (req.named "contributors").length ≤ 1) :
    Readable req where
  lifetime n hn := by
    obtain ⟨name, lt, htext, hnames, _⟩ := h.lifetime n hn
    exact ⟨name, lt, htext, hnames⟩
  contributors n hn := by
    obtain ⟨texts, hitems, hcall⟩ := h.contributors n hn
    by_cases hne : texts = []
    · subst hne
      exact Or.inl (List.map_eq_nil_iff.1 hitems)
    · obtain ⟨id, out, hmem⟩ := hcall hne
      rcases call_of_act hop hmem with hcreate | ⟨c, hc, id', out', hact⟩
      · cases hcreate
      · rw [readableContributors_iff, hitems]
        cases c with
        | lifeTime lt => cases hact
        | contrib contribs =>
          cases hact
          rcases mem_calls.1 hc with ⟨_, h⟩ | ⟨_, h⟩
          · cases h
          · rw [eq_singleton_of_mem hn hcon] at h
            cases h
            simp

/-- A readable request that is answered with success was honoured. -/
theorem Readable.honoured {w : World} (h : Readable req)
    (hop : req.IsNamed "setParameters" ∨ req.IsNamed "createImage") (hlt : (req.named "lifetime").length ≤ 1)
    (hcon : (req.named "contributors").length ≤ 1) (hok : Replies (serveIn env req w) IsSuccess) :
    Honoured req (serveIn env req w) := by
  obtain ⟨id, hcalls⟩ := calls_of_success hop hok
  constructor
  · intro n hn
    obtain ⟨name, lt, htext, hnames⟩ := h.lifetime n hn
    have htranslated := translateLifetime_iff.2 ⟨name, htext, hnames⟩
    have hlifetimes : req.lifetimes = [lt] := by
      unfold AxiomNode.lifetimes
      rw [eq_singleton_of_mem hn hlt]
      simp [htranslated]
    refine ⟨name, lt, htext, hnames, id, _, hcalls (.lifeTime lt) (mem_calls.2 (Or.inl ⟨?_, ?_⟩))⟩
    · rw [hlifetimes]; exact List.cons_ne_nil _ _
    · rw [hlifetimes]; rfl
  · intro n hn
    refine ⟨contributorsOf n, (readableContributors_iff n).1 (h.contributors n hn), fun hne => ?_⟩
    have hall : (req.named "contributors").flatMap contributorsOf = contributorsOf n := by
      rw [eq_singleton_of_mem hn hcon]
      simp
    exact ⟨id, _, hcalls (.contrib (contributorsOf n)) (mem_calls.2 (Or.inr ⟨by rw [hall]; exact hne, by rw [hall]⟩))⟩

/-- **What success promises**: everything in the request was passed on, for exactly the requests in which everything
can be read or that cannot succeed for lack of an id. -/
theorem honoured_iff (env : Env) (hop : req.IsNamed "setParameters" ∨ req.IsNamed "createImage")
    (hlt : (req.named "lifetime").length ≤ 1) (hcon : (req.named "contributors").length ≤ 1) :
    (∀ w, Replies (serveIn env req w) IsSuccess → Honoured req (serveIn env req w)) ↔
      (req.IsNamed "setParameters" ∧ req.ids.getLastD "" = "") ∨ Readable req := by
  constructor
  · intro hall
    by_cases hid : req.IsNamed "setParameters" ∧ req.ids.getLastD "" = ""
    · exact Or.inl hid
    · have hok := success_of_answeredWell env hop fun h hempty => hid ⟨h, hempty⟩
      exact Or.inr ((hall _ hok).readable hop hcon)
  · rintro (⟨hop', hid⟩ | hread) w hok
    · rcases ((setParameters_reports env w hop').success.1 hok).1 with ⟨_, hne⟩ | ⟨vars, hwf⟩
      · exact absurd hid hne
      · exact absurd (hop'.unique hwf.op) (by decide)
    · exact hread.honoured hop hlt hcon hok

end Requests

/-- A request that can be read. -/
def plainParameters : AxiomNode := setParametersRequest "GS1" (some .PERMANENT) ["A", "B"]

theorem honoured_iff_plain :
    (∀ w, Replies (serveIn plainEnv plainParameters w) IsSuccess →
      Honoured plainParameters (serveIn plainEnv plainParameters w)) ↔
      (plainParameters.IsNamed "setParameters" ∧ plainParameters.ids.getLastD "" = "") ∨ Readable plainParameters :=
  honoured_iff plainEnv (Or.inl rfl) (by decide) (by decide)

/-- A lifetime that is none. -/
def badLifetime : AxiomNode := .element "setParameters" none [] [field "id" "GS1", field "lifetime" "FOREVER"]

/-- A contributor without text. -/
def badContributor : AxiomNode :=
  .element "setParameters" none []
    [field "id" "GS1", arrayField "contributors" "string" [field "item" "A", .element "item" none [] []]]

/-- **A lifetime that cannot be read is dropped**, and the reply is success. -/
theorem lifetime_dropped : ¬∀ (req : AxiomNode) (w : World), req.IsNamed "setParameters" ∨ req.IsNamed "createImage" →
    (req.named "lifetime").length ≤ 1 → (req.named "contributors").length ≤ 1 →
    Replies (serveIn plainEnv req w) IsSuccess → Honoured req (serveIn plainEnv req w) := by
  intro hall
  have hok : Replies (serveIn plainEnv badLifetime (statusWorld .S_SUCCESS)) IsSuccess := ⟨_, rfl, isSuccess_success none⟩
  have hhon := hall badLifetime _ (Or.inl rfl) (by decide) (by decide) hok
  obtain ⟨name, lt, htext, hnames, _⟩ := hhon.lifetime _ (List.mem_singleton.2 rfl : _ ∈ badLifetime.named "lifetime")
  cases translateLifetime_iff.2 ⟨name, htext, hnames⟩

/-- So is a contributor, and every one after it. -/
theorem contributor_dropped : Replies (serveIn plainEnv badContributor (statusWorld .S_SUCCESS)) IsSuccess ∧
    ¬Honoured badContributor (serveIn plainEnv badContributor (statusWorld .S_SUCCESS)) := by
  refine ⟨⟨_, rfl, isSuccess_success none⟩, fun hhon => ?_⟩
  obtain ⟨texts, hitems, _⟩ := hhon.contributors _ (List.mem_singleton.2 rfl : _ ∈ badContributor.named "contributors")
  rcases texts with _ | ⟨t, _ | ⟨t', texts⟩⟩ <;> cases hitems

end DhsTranslator
