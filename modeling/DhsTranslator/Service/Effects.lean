import DhsTranslator.Service.Replies

/-!
# What failed requests leave behind

- `CallsEnd.effects`: the calls for the parameters of an image behind an error reply;
- `error_effects`: what has taken effect when `createImage` or `setParameters` replies with an error;
- `image_left_behind`: an image may have been created.
-/

namespace DhsTranslator

open Conc DhsService

/-- A failing call for the parameters of an image is the first one, or the contributors after the lifetime. -/
theorem calls_split {vars : Parameters} {done rest : List ParamCall} {c : ParamCall}
    (h : vars.calls = done ++ c :: rest) :
    done = [] ∨ ∃ lt contribs, done = [.lifeTime lt] ∧ c = .contrib contribs := by
  obtain ⟨contributors, lifetime, lifetimeSet, id⟩ := vars
  unfold Parameters.calls at h
  rcases done with _ | ⟨d, _ | ⟨d', done⟩⟩
  · exact Or.inl rfl
  · cases lifetimeSet <;> by_cases hc : contributors = [] <;> simp [hc] at h
    obtain ⟨rfl, rfl, _⟩ := h
    exact Or.inr ⟨lifetime, contributors, rfl, rfl⟩
  · cases lifetimeSet <;> by_cases hc : contributors = [] <;> simp [hc] at h

/-- The calls for an image behind an error reply: one that did not succeed, or the lifetime with success and then the
contributors without. -/
theorem CallsEnd.effects {vars : Parameters} {id : ImageId} {ok reply : AxiomNode} {tr : List (Act SvcSig)}
    (h : CallsEnd id vars.calls ok tr reply) (hok : IsSuccess ok) (herr : ¬IsSuccess reply) :
    ∃ (c : ParamCall) (out : Except String DhsStatus), out ≠ .ok .S_SUCCESS ∧ (tr = [c.act id out] ∨
      ∃ lt contribs, c = .contrib contribs ∧ tr = [⟨.setImageLifeTime id lt, .ok .S_SUCCESS⟩, c.act id out]) := by
  cases h with
  | done => exact absurd hok herr
  | failed done c rest out hcs hout =>
    refine ⟨c, out, hout, ?_⟩
    rcases calls_split hcs with rfl | ⟨lt, contribs, rfl, rfl⟩
    · exact Or.inl rfl
    · exact Or.inr ⟨lt, contribs, rfl, rfl⟩

/-- What has taken effect behind an error reply: no contributors; a lifetime only if setting the contributors did not
succeed after it; an image only if a call for it did not succeed after it, or it has no id. -/
structure ErrorEffects (tr : List (Act SvcSig)) : Prop where
  contrib : ∀ id contribs, ⟨.setImageContrib id contribs, .ok .S_SUCCESS⟩ ∉ tr
  lifeTime : ∀ id lt, ⟨.setImageLifeTime id lt, .ok .S_SUCCESS⟩ ∈ tr →
    ∃ pre contribs out, tr = pre ++ [⟨.setImageContrib id contribs, out⟩] ∧ out ≠ .ok .S_SUCCESS
  image : ∀ id, ⟨.createImage, .ok (.S_SUCCESS, id)⟩ ∈ tr →
    id = "" ∨ ∃ pre, ∃ c : ParamCall, ∃ out, tr = pre ++ [c.act id out] ∧ out ≠ .ok .S_SUCCESS

theorem act_eq_contrib {c : ParamCall} {id id' : ImageId} {contribs : List String} {out out' : Except String DhsStatus}
    (h : (⟨.setImageContrib id contribs, out⟩ : Act SvcSig) = c.act id' out') : out = out' ∧ id = id' := by
  cases c with
  | lifeTime lt => cases h
  | contrib cs => cases h; exact ⟨rfl, rfl⟩

theorem act_eq_lifeTime {c : ParamCall} {id id' : ImageId} {lt : DhsBdLifetime} {out out' : Except String DhsStatus}
    (h : (⟨.setImageLifeTime id lt, out⟩ : Act SvcSig) = c.act id' out') : out = out' ∧ id = id' := by
  cases c with
  | lifeTime lt => cases h; exact ⟨rfl, rfl⟩
  | contrib cs => cases h

theorem CallsEnd.errorEffects {vars : Parameters} {id : ImageId} {ok reply : AxiomNode} {tr : List (Act SvcSig)}
    (h : CallsEnd id vars.calls ok tr reply) (hok : IsSuccess ok) (herr : ¬IsSuccess reply) : ErrorEffects tr := by
  obtain ⟨c, out, hout, rfl | ⟨lt, contribs, rfl, rfl⟩⟩ := h.effects hok herr
  · refine ⟨?_, ?_, ?_⟩
    · intro id' cs hmem
      exact hout (act_eq_contrib (List.mem_singleton.1 hmem)).1.symm
    · intro id' lt hmem
      exact absurd (act_eq_lifeTime (List.mem_singleton.1 hmem)).1.symm hout
    · intro id' hmem
      cases c <;> cases List.mem_singleton.1 hmem
  · refine ⟨?_, ?_, ?_⟩
    · intro id' cs hmem
      rcases List.mem_cons.1 hmem with hmem | hmem
      · cases hmem
      · exact hout (act_eq_contrib (List.mem_singleton.1 hmem)).1.symm
    · intro id' lt' hmem
      rcases List.mem_cons.1 hmem with hmem | hmem
      · cases hmem
        exact ⟨[_], contribs, out, rfl, hout⟩
      · cases List.mem_singleton.1 hmem
    · intro id' hmem
      rcases List.mem_cons.1 hmem with hmem | hmem
      · cases hmem
      · cases List.mem_singleton.1 hmem

/-- After the image `id`, calls behind an error reply. -/
theorem ErrorEffects.created {vars : Parameters} {id : ImageId} {ok reply : AxiomNode} {tr : List (Act SvcSig)}
    (h : CallsEnd id vars.calls ok tr reply) (hok : IsSuccess ok) (herr : ¬IsSuccess reply) :
    ErrorEffects (⟨.createImage, .ok (.S_SUCCESS, id)⟩ :: tr) := by
  have heff := h.errorEffects hok herr
  refine ⟨?_, ?_, ?_⟩
  · intro id' cs hmem
    rcases List.mem_cons.1 hmem with hmem | hmem
    · cases hmem
    · exact heff.contrib id' cs hmem
  · intro id' lt hmem
    rcases List.mem_cons.1 hmem with hmem | hmem
    · cases hmem
    · obtain ⟨pre, cs, out, rfl, hout⟩ := heff.lifeTime id' lt hmem
      exact ⟨_ :: pre, cs, out, rfl, hout⟩
  · intro id' hmem
    have hid : id' = id := by
      rcases List.mem_cons.1 hmem with hmem | hmem
      · cases hmem; rfl
      · obtain ⟨c, _, out, hact⟩ := h.mem hmem
        cases c <;> cases hact
    subst hid
    obtain ⟨c, out, hout, rfl | ⟨lt, contribs, rfl, rfl⟩⟩ := h.effects hok herr
    · exact Or.inr ⟨[_], c, out, rfl, hout⟩
    · exact Or.inr ⟨[_, _], _, out, rfl, hout⟩

/-- The creation of an image alone, which fails or gives no id. -/
theorem ErrorEffects.creation {out : Except String (DhsStatus × ImageId)}
    (h : ∀ id, out = .ok (.S_SUCCESS, id) → id = "") : ErrorEffects [⟨.createImage, out⟩] where
  contrib id cs hmem := by cases List.mem_singleton.1 hmem
  lifeTime id lt hmem := by cases List.mem_singleton.1 hmem
  image id hmem := by
    cases List.mem_singleton.1 hmem
    exact Or.inl (h id rfl)

theorem ErrorEffects.nothing : ErrorEffects [] where
  contrib _ _ := List.not_mem_nil
  lifeTime _ _ hmem := absurd hmem List.not_mem_nil
  image _ hmem := absurd hmem List.not_mem_nil

theorem isSuccess_text (id : ImageId) : IsSuccess (buildSuccessResponse (some (.text id))) := rfl

/-- **Error replies and effects.** -/
theorem error_effects (env : Env) {req : AxiomNode} (w : World)
    (hop : req.IsNamed "createImage" ∨ req.IsNamed "setParameters")
    (herr : Replies (serveIn env req w) fun reply => ¬IsSuccess reply) : ErrorEffects (serveIn env req w).acts := by
  have hends := run_ends handler (serve env req) w
  obtain ⟨reply, hreply, hnot⟩ := herr
  have hreply' : ((serve env req).run handler w).result = .ok (some reply) := hreply
  unfold serveIn
  rcases hop with hop | hop
  · obtain ⟨reply', hres, hend⟩ := ends_createImage hop hends
    cases hreply'.symm.trans hres
    generalize ((serve env req).run handler w).acts = tr at hend
    cases hend with
    | failed out hout =>
      refine .creation fun id hid => ?_
      subst hid
      exact absurd rfl hout
    | bare id hc => exact absurd (isSuccess_text id) hnot
    | noId hc =>
      refine .creation fun id hid => ?_
      cases hid
      rfl
    | calls id hc hid hcalls => exact .created hcalls (isSuccess_text id) hnot
  · rcases ends_setParameters hop hends with ⟨_, hacts, _⟩ | ⟨_, reply', hres, hend⟩
    · rw [hacts]
      exact .nothing
    · cases hreply'.symm.trans hres
      exact hend.errorEffects (isSuccess_success none) hnot

/-- An adapter that creates an image and fails from then on. -/
def failingWorld : World :=
  ⟨.new boostHash 90, 0, fun n => if n = 0 then .ok (.S_SUCCESS, "GS1") else .ok (.E_CTL_CMD, "")⟩

/-- The creation of an image with a lifetime that cannot be set. -/
theorem failing_replies : Replies (serveIn plainEnv (createImageRequest (some .PERMANENT) []) failingWorld)
    fun reply => ¬IsSuccess reply := ⟨_, rfl, not_isSuccess_error _ _⟩

theorem error_effects_failing :
    ErrorEffects (serveIn plainEnv (createImageRequest (some .PERMANENT) []) failingWorld).acts :=
  error_effects plainEnv failingWorld (Or.inl rfl) failing_replies

/-- **An image is left behind** by a request that is answered with an error. -/
theorem image_left_behind : ¬∀ (req : AxiomNode) (w : World), req.IsNamed "createImage" ∨ req.IsNamed "setParameters" →
    (Replies (serveIn plainEnv req w) fun reply => ¬IsSuccess reply) →
    ∀ a ∈ (serveIn plainEnv req w).acts, adapterOutcome a ≠ some (.ok .S_SUCCESS) := by
  intro hall
  have hcreated : ⟨.createImage, .ok (.S_SUCCESS, "GS1")⟩ ∈
      (serveIn plainEnv (createImageRequest (some .PERMANENT) []) failingWorld).acts := List.mem_cons_self
  exact hall (createImageRequest (some .PERMANENT) []) failingWorld (Or.inl rfl) failing_replies _ hcreated rfl

end DhsTranslator
