import DhsTranslator.Service.Sequential
import DhsTranslator.Store.Overwrite

/-!
# What duplicate suppression does to the stored keywords

The keyword values in the data handling system after a sequential run, and what they would be had every acknowledged
request been sent. Of the system it is assumed that a successful `setImageKeywords` overwrites the keywords it names.

- `actual`, `ideal`: the two stores;
- `transparent`: they hold the same values if nothing that disagrees with a withheld request came after the request it
  repeats;
- `restored_value_lost`: setting a keyword, setting it to another value and back within the window leaves the other
  value.
-/

namespace DhsTranslator

open Conc DhsService Overwrite

/-- The values of keywords by image and name. -/
abbrev KeywordStore := Store (ImageId × String) Keyword

def keywordWrites (id : ImageId) (keywords : List Keyword) : List ((ImageId × String) × Keyword) :=
  keywords.map fun k => ((id, k.name), k)

section Stores

variable (S : KeywordStore) (env : Env) (hasher : String → UInt32) (w : Int)

/-- What an action does to the store. -/
def effect (s : S.State) : Act SvcSig → S.State
  | ⟨.setImageKeywords id keywords _, .ok .S_SUCCESS⟩ => S.put s (keywordWrites id keywords)
  | _ => s

/-- The reply reports success. -/
def acknowledged (o : Outcome SvcSig Abort (Option AxiomNode) World) : Bool :=
  match o.result with
  | .ok (some reply) => decide (IsSuccess reply)
  | _ => false

/-- What a request asks to write. -/
def requestWrites (a : Arrival) : List ((ImageId × String) × Keyword) :=
  match a.request.keywordsRequest env with
  | .ok vars => keywordWrites vars.id vars.keywords
  | .error _ => []

/-- A store that follows a run by `update`. -/
def follow (update : S.State → Arrival → Outcome SvcSig Abort (Option AxiomNode) World → S.State) (s : S.State)
    (run : List Arrival) : MessageCache × S.State :=
  run.foldl (fun cs a => ((serveOne env cs.1 a).state.cache, update cs.2 a (serveOne env cs.1 a)))
    (.new hasher w, s)

/-- The store after what was sent. -/
def actual (s : S.State) (run : List Arrival) : S.State :=
  (follow S env hasher w (fun s _ o => o.acts.foldl (effect S) s) s run).2

/-- The store if every acknowledged request had been sent. -/
def ideal (s : S.State) (run : List Arrival) : S.State :=
  (follow S env hasher w (fun s a o => if acknowledged o then S.put s (requestWrites env a) else s) s run).2

end Stores

section Runs

variable {S : KeywordStore} {env : Env} {hasher : String → UInt32} {w : Int} {s : S.State}

theorem follow_snoc (update : S.State → Arrival → Outcome SvcSig Abort (Option AxiomNode) World → S.State)
    (run : List Arrival) (a : Arrival) :
    (follow S env hasher w update s (run ++ [a])).2 =
      update (follow S env hasher w update s run).2 a (served env hasher w run a) := by
  have hcache : ∀ (run : List Arrival), (follow S env hasher w update s run).1 = cacheAfter env (.new hasher w) run := by
    intro run
    induction run using List.reverseRecOn with
    | nil => rfl
    | append_singleton run b ih =>
      rw [cacheAfter_snoc, ← ih]
      unfold follow
      rw [List.foldl_append]
      rfl
  unfold served
  rw [← hcache]
  unfold follow
  rw [List.foldl_append]
  rfl

/-- With an adapter that succeeds a request is acknowledged, and sent unless it is withheld. -/
theorem served_ok (hasher : String → UInt32) (w : Int) (pre : List Arrival) {a : Arrival} {vars : KeywordsRequest}
    (ha : WellFormed env a.request vars) (hok : (a.outcomes 0).map Prod.fst = .ok .S_SUCCESS) (s : S.State) :
    acknowledged (served env hasher w pre a) = true ∧
    ((Withheld (served env hasher w pre a) ∧ (served env hasher w pre a).acts.foldl (effect S) s = s) ∨
      (¬Withheld (served env hasher w pre a) ∧
        (served env hasher w pre a).acts.foldl (effect S) s = S.put s (requestWrites env a))) := by
  have hwrites : requestWrites env a = keywordWrites vars.id vars.keywords := by
    unfold requestWrites
    rw [ha.read]
  have hserved := serveOne_served (cacheAfter env (.new hasher w) pre) ha
  have hwithheld := hserved.withheld_iff
  unfold served acknowledged
  cases hserved with
  | duplicate found acts _ result =>
    rw [result]
    refine ⟨decide_eq_true (isSuccess_success none), Or.inl ⟨hwithheld.2 found, ?_⟩⟩
    rw [acts]
    rfl
  | recorded missed _ acts _ result =>
    rw [result]
    have hnot : ¬Withheld (serveOne env (cacheAfter env (.new hasher w) pre) a) := by
      intro h
      exact Bool.noConfusion (missed.symm.trans (hwithheld.1 h))
    refine ⟨decide_eq_true (isSuccess_success none), Or.inr ⟨hnot, ?_⟩⟩
    rw [acts, hwrites]
    rfl
  | failed _ outcome => exact absurd hok outcome

/-- With an adapter that succeeds a request writes to the actual store unless it is withheld. -/
theorem actual_snoc (hasher : String → UInt32) (w : Int) (run : List Arrival) {a : Arrival} {vars : KeywordsRequest}
    (ha : WellFormed env a.request vars) (hok : (a.outcomes 0).map Prod.fst = .ok .S_SUCCESS) (s : S.State) :
    (Withheld (served env hasher w run a) → actual S env hasher w s (run ++ [a]) = actual S env hasher w s run) ∧
    (¬Withheld (served env hasher w run a) →
      actual S env hasher w s (run ++ [a]) = S.put (actual S env hasher w s run) (requestWrites env a)) := by
  have hsnoc : actual S env hasher w s (run ++ [a]) =
      (served env hasher w run a).acts.foldl (effect S) (actual S env hasher w s run) := by
    unfold actual
    rw [follow_snoc]
  rw [hsnoc]
  rcases (served_ok hasher w run ha hok (actual S env hasher w s run)).2 with ⟨hw, hnone⟩ | ⟨hw, hput⟩
  · exact ⟨fun _ => hnone, fun h => absurd hw h⟩
  · exact ⟨fun h => absurd h hw, fun _ => hput⟩

theorem ideal_snoc (hasher : String → UInt32) (w : Int) (run : List Arrival) {a : Arrival} {vars : KeywordsRequest}
    (ha : WellFormed env a.request vars) (hok : (a.outcomes 0).map Prod.fst = .ok .S_SUCCESS) (s : S.State) :
    ideal S env hasher w s (run ++ [a]) = S.put (ideal S env hasher w s run) (requestWrites env a) := by
  have hack := (served_ok hasher w run ha hok s).1
  unfold ideal
  rw [follow_snoc, if_pos hack]

/-- With an adapter that succeeds the ideal store has all writes. -/
theorem ideal_eq_replay {run : List Arrival} (hwf : ∀ a ∈ run, ∃ vars, WellFormed env a.request vars)
    (hok : AlwaysSucceeds run) : ideal S env hasher w s run = S.replay s (run.map (requestWrites env)) := by
  induction run using List.reverseRecOn with
  | nil => rfl
  | append_singleton run a ih =>
    obtain ⟨vars, ha⟩ := hwf a (by simp)
    have ih' := ih (fun b hb => hwf b (List.mem_append_left _ hb)) fun b hb => hok b (List.mem_append_left _ hb)
    rw [ideal_snoc hasher w run ha (hok a (by simp) 0), List.map_append, Store.replay_append, ih']
    rfl

/-- After the request that a withheld one repeats, nothing came that gives one of its keywords another value. -/
def Undisturbed (env : Env) (hasher : String → UInt32) (w : Int) (run : List Arrival) : Prop :=
  ∀ pre r post, run = pre ++ r :: post → Withheld (served env hasher w pre r) →
    ∃ pre' f mid, pre = pre' ++ f :: mid ∧ SameMessage env f r ∧
      ∀ b ∈ mid, Agree (requestWrites env r) (requestWrites env b)

/-- Of the serialiser: the text of a request determines what is read from it. -/
def TextDetermines (env : Env) (run : List Arrival) : Prop :=
  ∀ a ∈ run, ∀ b ∈ run, env.nodeToString a.request = env.nodeToString b.request →
    a.request.keywordsRequest env = b.request.keywordsRequest env

/-- **Undisturbed duplicates are not missed.** -/
theorem transparent {run : List Arrival} (hwf : ∀ a ∈ run, ∃ vars, WellFormed env a.request vars)
    (hok : AlwaysSucceeds run) (htext : TextDetermines env run) (hund : Undisturbed env hasher w run)
    (k : ImageId × String) : S.get (actual S env hasher w s run) k = S.get (ideal S env hasher w s run) k := by
  induction run using List.reverseRecOn generalizing k with
  | nil => rfl
  | append_singleton run a ih =>
    have hwf' : ∀ b ∈ run, ∃ vars, WellFormed env b.request vars := fun b hb => hwf b (List.mem_append_left _ hb)
    have hok' : AlwaysSucceeds run := fun b hb => hok b (List.mem_append_left _ hb)
    have ih' : ∀ k, S.get (actual S env hasher w s run) k = S.get (ideal S env hasher w s run) k := by
      refine ih hwf' hok' ?_ ?_
      · exact fun b hb c hc => htext b (List.mem_append_left _ hb) c (List.mem_append_left _ hc)
      · rintro pre r post rfl
        exact hund pre r (post ++ [a]) (by simp)
    obtain ⟨vars, ha⟩ := hwf a (by simp)
    obtain ⟨hskip, hput⟩ := actual_snoc hasher w run ha (hok a (by simp) 0) s
    rw [ideal_snoc hasher w run ha (hok a (by simp) 0)]
    by_cases hwithheld : Withheld (served env hasher w run a)
    · -- what the withheld request would write is in the ideal store since the request it repeats
      obtain ⟨pre', f, mid, rfl, ⟨vf, va, hf, ha', hid, hmsg⟩, hmid⟩ := hund run a [] rfl hwithheld
      have hsame : requestWrites env f = requestWrites env a := by
        unfold requestWrites
        rw [htext f (by simp) a (by simp) hmsg]
      have hsettled : S.Settled (ideal S env hasher w s (pre' ++ f :: mid)) (requestWrites env a) := by
        rw [ideal_eq_replay hwf' hok', List.map_append, Store.replay_append, List.map_cons, hsame, Store.replay_cons]
        refine settled_replay (settled_put _ _) ?_
        intro kvs hkvs
        obtain ⟨b, hb, rfl⟩ := List.mem_map.1 hkvs
        exact hmid b hb
      rw [hskip hwithheld, ih', get_put_settled hsettled]
    · rw [hput hwithheld]
      exact get_put_congr ih' k

end Runs

/-! ## Setting a keyword back -/

/-- A request for the keyword of `objectRequest`, with another value. -/
def otherRequest : AxiomNode := setKeywordsRequest "GS1" false [⟨"OBJECT", "STRING", "M33"⟩]

theorem wellFormed_other : WellFormed plainEnv otherRequest ⟨[Keyword.of "OBJECT" "M33"], "GS1", false, true⟩ where
  op := rfl
  read := setKeywordsRequest_read "GS1" false rfl
  id := by decide
  parsed := rfl

def otherArrival (now : Int) : Arrival := ⟨otherRequest, now, fun _ => .ok (.S_SUCCESS, "")⟩

theorem text_ne : plainEnv.nodeToString objectRequest ≠ plainEnv.nodeToString otherRequest := fun h =>
  absurd (String.ofList_injective h) (by decide +kernel)

/-- Runs of these two requests. -/
def Sample (run : List Arrival) : Prop := ∀ a ∈ run, ∃ now, a = objectArrival now ∨ a = otherArrival now

namespace Sample

variable {run : List Arrival}

theorem wellFormed (h : Sample run) : ∀ a ∈ run, ∃ vars, WellFormed plainEnv a.request vars := by
  intro a ha
  obtain ⟨now, rfl | rfl⟩ := h a ha
  · exact ⟨_, wellFormed_object⟩
  · exact ⟨_, wellFormed_other⟩

theorem alwaysSucceeds (h : Sample run) : AlwaysSucceeds run := by
  intro a ha n
  obtain ⟨now, rfl | rfl⟩ := h a ha <;> rfl

theorem textDetermines (h : Sample run) : TextDetermines plainEnv run := by
  intro a ha b hb heq
  obtain ⟨_, rfl | rfl⟩ := h a ha <;> obtain ⟨_, rfl | rfl⟩ := h b hb
  · rfl
  · exact absurd heq text_ne
  · exact absurd heq.symm text_ne
  · rfl

end Sample

/-- A store without keywords. -/
def noKeywords : (Store.ofFun : KeywordStore).State := fun _ => none

theorem transparent_retry :
    Store.ofFun.get (actual Store.ofFun plainEnv boostHash 90 noKeywords [objectArrival 0, objectArrival 50])
        ("GS1", "OBJECT") =
      Store.ofFun.get (ideal Store.ofFun plainEnv boostHash 90 noKeywords [objectArrival 0, objectArrival 50])
        ("GS1", "OBJECT") := by
  have hsample : Sample [objectArrival 0, objectArrival 50] := by
    intro a ha
    obtain ⟨t, rfl⟩ := mem_retriedRun ha
    exact ⟨t, Or.inl rfl⟩
  refine transparent hsample.wellFormed hsample.alwaysSucceeds hsample.textDetermines ?_ ("GS1", "OBJECT")
  intro pre r post heq hw
  rcases pre with _ | ⟨x, _ | ⟨y, pre⟩⟩
  · obtain rfl := (List.cons.inj heq).1
    exact absurd hw sent_objectArrival.not_withheld
  · obtain rfl := (List.cons.inj (List.cons.inj heq).2).1
    obtain rfl := (List.cons.inj heq).1
    exact ⟨[], objectArrival 0, [], rfl, sameMessage_object 0 50, fun b hb => absurd hb List.not_mem_nil⟩
  · simp at heq

/-- A keyword is set, changed and set back. -/
def restoredRun : List Arrival := [objectArrival 0, otherArrival 10, objectArrival 20]

theorem sample_restored : Sample restoredRun := by
  intro a ha
  simp only [restoredRun, List.mem_cons, List.not_mem_nil, or_false] at ha
  rcases ha with rfl | rfl | rfl
  · exact ⟨0, Or.inl rfl⟩
  · exact ⟨10, Or.inr rfl⟩
  · exact ⟨20, Or.inl rfl⟩

theorem restored_times : restoredRun.Pairwise fun a b => a.now ≤ b.now := by decide

/-- The change is sent. -/
theorem changed_not_withheld : ¬Withheld (served plainEnv boostHash 90 [objectArrival 0] (otherArrival 10)) := by
  rw [withheld_iff_recent (isNamed_of_wellFormed sample_restored.wellFormed) restored_times rfl wellFormed_other]
  rintro ⟨t, ⟨pre, b, post, vb, heq, _, _, hx⟩, _⟩
  rcases pre with _ | ⟨c, pre⟩
  · obtain rfl := (List.cons.inj heq).1
    exact absurd (congrArg (fun x => x.1.2) hx).symm text_ne
  · simp at heq

/-- The restored value is not. -/
theorem restored_withheld :
    Withheld (served plainEnv boostHash 90 [objectArrival 0, otherArrival 10] (objectArrival 20)) := by
  rw [withheld_iff_recent (isNamed_of_wellFormed sample_restored.wellFormed) restored_times rfl wellFormed_object]
  exact ⟨0, ⟨[], objectArrival 0, [otherArrival 10], objectVars, rfl, wellFormed_object, sent_objectArrival, rfl⟩,
    by decide⟩

theorem restored_actual : actual Store.ofFun plainEnv boostHash 90 noKeywords restoredRun =
    Store.ofFun.put (Store.ofFun.put noKeywords (requestWrites plainEnv (objectArrival 0)))
      (requestWrites plainEnv (otherArrival 10)) := by
  have h₁ := (actual_snoc boostHash 90 [] wellFormed_object rfl noKeywords).2 sent_objectArrival.not_withheld
  have h₂ := (actual_snoc boostHash 90 [objectArrival 0] wellFormed_other rfl noKeywords).2 changed_not_withheld
  have h₃ := (actual_snoc boostHash 90 [objectArrival 0, otherArrival 10] wellFormed_object rfl noKeywords).1
    restored_withheld
  exact h₃.trans (h₂.trans (congrArg (Store.ofFun.put · _) h₁))

/-- **A value set back within the window is lost**: the adapter is not told. -/
theorem restored_value_lost : ¬∀ run : List Arrival, (∀ a ∈ run, ∃ vars, WellFormed plainEnv a.request vars) →
    run.Pairwise (fun a b => a.now ≤ b.now) → AlwaysSucceeds run → TextDetermines plainEnv run →
    ∀ k, Store.ofFun.get (actual Store.ofFun plainEnv boostHash 90 noKeywords run) k =
      Store.ofFun.get (ideal Store.ofFun plainEnv boostHash 90 noKeywords run) k := by
  intro hall
  have hwf := sample_restored.wellFormed
  have hok := sample_restored.alwaysSucceeds
  have hlost := hall _ hwf restored_times hok sample_restored.textDetermines ("GS1", "OBJECT")
  have hobject : requestWrites plainEnv (objectArrival 0) = [(("GS1", "OBJECT"), Keyword.of "OBJECT" "M31")] := by
    unfold requestWrites
    rw [show (objectArrival 0).request.keywordsRequest plainEnv = _ from wellFormed_object.read]
    rfl
  have hother : requestWrites plainEnv (otherArrival 10) = [(("GS1", "OBJECT"), Keyword.of "OBJECT" "M33")] := by
    unfold requestWrites
    rw [show (otherArrival 10).request.keywordsRequest plainEnv = _ from wellFormed_other.read]
    rfl
  have hwrites : restoredRun.map (requestWrites plainEnv) =
      [requestWrites plainEnv (objectArrival 0), requestWrites plainEnv (otherArrival 10),
        requestWrites plainEnv (objectArrival 0)] := rfl
  rw [restored_actual, ideal_eq_replay hwf hok, hwrites, hobject, hother] at hlost
  have hvalues : some (Keyword.of "OBJECT" "M33") = some (Keyword.of "OBJECT" "M31") := hlost
  exact absurd hvalues (by decide)

end DhsTranslator
