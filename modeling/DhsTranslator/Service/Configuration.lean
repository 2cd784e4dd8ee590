import DhsTranslator.Service.Sequential
import Mathlib.Logic.Function.Basic

/-!
# The configuration of the service

`stubInitWithConfig` reads the parameters of the service: which adapter to use, and for how long messages are
remembered. The hash of a text and reading a number from it are parameters of the model, as is a conversion to `time_t`
that the language leaves undefined.

- `memoryPeriod_unreadable`: a text without a number is a period of 0, not the default one;
- `logged`, `recent_iff`: what the logs of the window 0 and of a longer one have in common;
- `same_forwarded_iff`: the two windows pass on the same requests iff no message comes again within the longer one;
- `unreadable_period_iff`: so the fallback works as the default only for runs without such messages.
-/

namespace DhsTranslator

open Conc Aging DhsService IStream

/-! ## Numbers -/

/-- What `std::istringstream >> double` finds in a text: a number, one that is out of range, for which it stores
another one, or none. -/
inductive DoubleText where
  | number (d : CDouble)
  | outOfRange (d : CDouble)
  | unreadable
  deriving DecidableEq, Repr

/-- The variable after it. -/
def DoubleText.stored : DoubleText → CDouble
  | number d => d
  | outOfRange d => d
  | unreadable => ⟨0⟩

/-- The integral part of a finite number. -/
def CDouble.trunc (d : CDouble) : Option Int :=
  let exponent := (d.bits.extractLsb' 52 11).toNat
  let mantissa := (d.bits.extractLsb' 0 52).toNat
  if exponent = 2047 then none
  else
    -- a number with the least exponent is less than 1
    let n : Nat := if exponent = 0 then 0 else (2 ^ 52 + mantissa) * 2 ^ exponent / 2 ^ 1075
    some (if d.bits.msb then -n else n)

/-- What the configuration gets from outside: `boost::hash`, what a text contains, and what the conversion to `time_t`
makes of a number that the type does not have. -/
structure ConfEnv where
  hasher : String → UInt32
  readDouble : String → DoubleText
  undefinedTime : CDouble → Int

/-- `(time_t) d`. -/
def ConfEnv.toTime (cenv : ConfEnv) (d : CDouble) : Int :=
  match d.trunc with
  | some n => if -2 ^ 31 ≤ n ∧ n < 2 ^ 31 then n else cenv.undefinedTime d
  | none => cenv.undefinedTime d

/-! ## The parameters -/

/-- The parameters of the service: one that is there may have no value. -/
abbrev Conf := String → Option (Option String)

/-- How the configuration can end without a service. -/
inductive ConfAbort where
  /-- `AXIS2_FAILURE` -/
  | failure
  /-- the value of a missing parameter was asked for: the process is gone -/
  | nullParam (name : String)
  /-- an exception -/
  | exception (what : String)
  deriving DecidableEq, Repr

/-- The adapter of a service. -/
structure AdapterChoice where
  simulate : Bool
  myName : String
  dhsHost : String
  dhsName : String
  deriving DecidableEq, Repr

namespace DhsService

def SIM_PARAM : String := "dhsSimulate"

def MY_NAME_PARAM : String := "myName"

def DHS_HOST_PARAM : String := "dhsHost"

def DHS_NAME_PARAM : String := "dhsName"

def CACHE_MEMORY_PARAM : String := "memoryPeriod"

def DEFAULT_CACHE_MEMORY : Int := 90

/-- A service that was configured. -/
structure Configured where
  dhsAdapter : AdapterChoice
  msgCache : MessageCache

/-- A flag that cannot be read stays off. -/
def simulate (conf : Conf) : Bool :=
  match conf SIM_PARAM with
  | some (some simFlag) => (extractBool simFlag.toList).getD false
  | _ => false

/-- `string((const char*) axutil_param_get_value(param, env))`. -/
def stringParam (conf : Conf) (name : String) : Except ConfAbort String :=
  match conf name with
  | none => .error (.nullParam name)
  | some none => .error (.exception "basic_string::_S_construct null not valid")
  | some (some value) => .ok value

/-- The stream does not throw, so the `catch` is never reached: the variable is used whatever was read. -/
def memoryPeriod (cenv : ConfEnv) (conf : Conf) : Int :=
  match conf CACHE_MEMORY_PARAM with
  | some (some v) => cenv.toTime (cenv.readDouble v).stored
  | _ => DEFAULT_CACHE_MEMORY

/-- `stubInitWithConfig`; `theService` tells whether the service was created. -/
def stubInitWithConfig (cenv : ConfEnv) (theService : Bool) (conf : Conf) : Except ConfAbort Configured := do
  if !theService then
    throw .failure
  let myName ← stringParam conf MY_NAME_PARAM
  let dhsHost ← stringParam conf DHS_HOST_PARAM
  let dhsName ← stringParam conf DHS_NAME_PARAM
  return ⟨⟨simulate conf, myName, dhsHost, dhsName⟩, .new cenv.hasher (memoryPeriod cenv conf)⟩

end DhsService

section Configuration

variable {cenv : ConfEnv} {conf : Conf} {theService : Bool} {s : Configured}

/-- A configuration without a parameter. -/
def Conf.without (conf : Conf) (name : String) : Conf := Function.update conf name none

/-- The cache of a configured service. -/
theorem configured_cache (h : stubInitWithConfig cenv theService conf = .ok s) :
    s.msgCache = .new cenv.hasher (memoryPeriod cenv conf) := by
  unfold stubInitWithConfig at h
  cases theService with
  | false => cases h
  | true =>
    rcases hname : stringParam conf MY_NAME_PARAM with e | myName
    · rw [hname] at h; cases h
    rcases hhost : stringParam conf DHS_HOST_PARAM with e | dhsHost
    · rw [hname, hhost] at h; cases h
    rcases hdhs : stringParam conf DHS_NAME_PARAM with e | dhsName
    · rw [hname, hhost, hdhs] at h; cases h
    rw [hname, hhost, hdhs] at h
    cases h
    rfl

/-- **A text without a number** is a period of 0. -/
theorem memoryPeriod_unreadable {v : String} (hparam : conf CACHE_MEMORY_PARAM = some (some v))
    (hv : cenv.readDouble v = .unreadable) : memoryPeriod cenv conf = 0 := by
  unfold memoryPeriod
  rw [hparam]
  show cenv.toTime (cenv.readDouble v).stored = 0
  rw [hv]
  rfl

theorem memoryPeriod_without : memoryPeriod cenv (conf.without CACHE_MEMORY_PARAM) = DEFAULT_CACHE_MEMORY := by
  unfold memoryPeriod Conf.without
  rw [Function.update_self]

end Configuration

/-! ## Two windows -/

section Order

variable {α : Type} {l : List α}

/-- A relation that holds wherever the list is split at two elements. -/
theorem pairwise_of_splits {R : α → α → Prop} (h : ∀ pre b mid a post, l = pre ++ b :: (mid ++ a :: post) → R b a) :
    l.Pairwise R := by
  induction l with
  | nil => exact .nil
  | cons x l ih =>
    refine List.pairwise_cons.2 ⟨fun y hy => ?_, ih fun pre b mid a post heq => h (x :: pre) b mid a post (by rw [heq]; rfl)⟩
    obtain ⟨mid, post, rfl⟩ := List.append_of_mem hy
    exact h [] x mid y post rfl

/-- In a list in the order of `f`, the smaller element comes first. -/
theorem earlier_of_lt {f : α → Int} (hl : l.Pairwise fun a b => f a ≤ f b) {pre pre' post post' : List α} {x y : α}
    (hx : l = pre ++ x :: post) (hy : l = pre' ++ y :: post') (hlt : f x < f y) : ∃ mid, pre' = pre ++ x :: mid := by
  rcases List.append_eq_append_iff.1 (hx.symm.trans hy) with ⟨mid, rfl, heq⟩ | ⟨mid, rfl, heq⟩
  · rcases mid with _ | ⟨z, mid⟩
    · obtain rfl := (List.cons.inj heq).1
      omega
    · obtain rfl := (List.cons.inj heq).1
      exact ⟨mid, rfl⟩
  · rcases mid with _ | ⟨z, mid⟩
    · obtain rfl := (List.cons.inj heq).1
      omega
    · -- `x` would be after `y`
      obtain rfl := (List.cons.inj heq).1
      subst hx
      have hle := (List.pairwise_append.1 hl).2.2 y (by simp) x List.mem_cons_self
      omega

end Order

/-- The request is passed on to the adapter. -/
def Forwarded (env : Env) (c : MessageCache) (pre : List Arrival) (a : Arrival) : Prop :=
  ¬Withheld (serveOne env (cacheAfter env c pre) a)

/-- From both caches on, the same requests of the run are passed on. -/
def SameForwarded (env : Env) (c c' : MessageCache) (run : List Arrival) : Prop :=
  ∀ pre a post, run = pre ++ a :: post → (Forwarded env c pre a ↔ Forwarded env c' pre a)

/-- No message comes again later, and not later than `w` after. -/
def NoneRepeated (env : Env) (w : Int) (run : List Arrival) : Prop :=
  run.Pairwise fun b a => SameMessage env b a → ¬(0 < a.now - b.now ∧ a.now - b.now ≤ w)

section Windows

variable {env : Env} {hasher : String → UInt32} {w : Int} {run pre post : List Arrival} {a : Arrival}
  {vars : KeywordsRequest}

/-- A request that is well formed is passed on iff it is sent with success. -/
theorem forwarded_iff_sent (ha : WellFormed env a.request vars) (hok : ∀ n, (a.outcomes n).map Prod.fst = .ok .S_SUCCESS) :
    Forwarded env (.new hasher w) pre a ↔ Sent (served env hasher w pre a) := by
  have hserved := serveOne_served (cacheAfter env (.new hasher w) pre) ha
  have hwithheld := hserved.withheld_iff
  unfold Forwarded served
  cases hserved with
  | duplicate found acts cache result =>
    refine iff_of_false (not_not.2 (hwithheld.2 found)) fun hsent => ?_
    exact hsent.not_withheld (hwithheld.2 found)
  | recorded missed outcome acts cache result =>
    refine iff_of_true (fun h => Bool.noConfusion (missed.symm.trans (hwithheld.1 h))) ?_
    exact ⟨vars.id, vars.keywords, vars.final, by simp [acts, Stage.acts]⟩
  | failed missed outcome => exact absurd (hok 0) outcome

/-- One that is not is not passed on. -/
theorem not_forwarded_malformed (hop : a.request.IsNamed "setKeywords") (ha : ¬∃ vars, WellFormed env a.request vars)
    (c : MessageCache) : ¬Forwarded env c pre a := by
  unfold Forwarded Withheld
  rw [(serveOne_malformed _ hop ha).1]
  simp

/-- The log holds requests of the run. -/
theorem mem_of_successes {k : ImageId × String} {t : Int} (h : (k, t) ∈ successes env hasher w run) :
    ∃ b ∈ run, ∃ vb, WellFormed env b.request vb ∧ k = (vb.id, env.nodeToString b.request) ∧ b.now = t := by
  obtain ⟨pre, b, post, vb, rfl, hb, _, heq⟩ := h
  obtain ⟨rfl, rfl⟩ := Prod.mk.inj heq
  exact ⟨b, by simp, vb, hb, rfl, rfl⟩

variable (hop : ∀ a ∈ run, a.request.IsNamed "setKeywords") (htimes : run.Pairwise fun a b => a.now ≤ b.now)
  (hok : AlwaysSucceeds run)

include hop htimes hok

variable (hasher) in
/-- With the window 0, the log holds every message with its time. -/
theorem logged (hrun : run = pre ++ a :: post) (ha : WellFormed env a.request vars) :
    ((vars.id, env.nodeToString a.request), a.now) ∈ successes env hasher 0 (pre ++ [a]) := by
  have hwithheld : Withheld (served env hasher 0 pre a) ↔
      Recent 0 (successes env hasher 0 pre) (vars.id, env.nodeToString a.request) a.now :=
    withheld_iff_recent hop htimes hrun ha
  have hsent : Forwarded env (.new hasher 0) pre a ↔ Sent (served env hasher 0 pre a) :=
    forwarded_iff_sent ha (hok a (by rw [hrun]; simp))
  rw [mem_successes_snoc ha]
  by_cases hw : Withheld (served env hasher 0 pre a)
  · -- it was logged before, and not at an earlier time
    obtain ⟨t, hlog, hage⟩ := hwithheld.1 hw
    obtain ⟨b, hb, _, _, _, rfl⟩ := mem_of_successes hlog
    subst hrun
    have hle := (List.pairwise_append.1 htimes).2.2 b hb a List.mem_cons_self
    unfold Expired at hage
    have hnow : b.now = a.now := by omega
    rw [← hnow]
    exact Or.inl hlog
  · exact Or.inr ⟨hsent.1 hw, rfl⟩

variable (hasher) in
/-- So at the time of a message it is sent, by this request or another one. -/
theorem sent_at_time (hrun : run = pre ++ a :: post) (ha : WellFormed env a.request vars) :
    ∃ pre' a' post' vars', run = pre' ++ a' :: post' ∧ WellFormed env a'.request vars' ∧
      Sent (served env hasher 0 pre' a') ∧ a'.now = a.now ∧
      (vars'.id, env.nodeToString a'.request) = (vars.id, env.nodeToString a.request) := by
  obtain ⟨pre', a', rest, vars', heq, hwf, hsent, hlog⟩ := logged hasher hop htimes hok hrun ha
  obtain ⟨hkey, hnow⟩ := Prod.mk.inj hlog
  refine ⟨pre', a', rest ++ post, vars', ?_, hwf, hsent, hnow.symm, hkey.symm⟩
  calc run = (pre ++ [a]) ++ post := by rw [hrun]; simp
    _ = pre' ++ a' :: (rest ++ post) := by rw [heq]; simp

omit hop hok in
/-- Where no message comes again, the windows find the same in one log. -/
theorem recent_iff (hw : 0 ≤ w) (hnone : NoneRepeated env w run) (hrun : run = pre ++ a :: post)
    (ha : WellFormed env a.request vars) (v : Int) :
    Recent 0 (successes env hasher v pre) (vars.id, env.nodeToString a.request) a.now ↔
      Recent w (successes env hasher v pre) (vars.id, env.nodeToString a.request) a.now := by
  subst hrun
  refine exists_congr fun t => and_congr_right fun hlog => ?_
  obtain ⟨b, hb, vb, hwf, hkey, rfl⟩ := mem_of_successes hlog
  obtain ⟨hid, hmsg⟩ := Prod.mk.inj hkey
  have hle := (List.pairwise_append.1 htimes).2.2 b hb a List.mem_cons_self
  have hrep := (List.pairwise_append.1 hnone).2.2 b hb a List.mem_cons_self ⟨vb, vars, hwf, ha, hid.symm, hmsg.symm⟩
  unfold Expired
  omega

omit hok in
/-- One request, where the logs of the two windows are the same. -/
theorem forwarded_congr (hw : 0 ≤ w) (hnone : NoneRepeated env w run) (hrun : run = pre ++ a :: post)
    (hlog : successes env hasher 0 pre = successes env hasher w pre) :
    Forwarded env (.new hasher 0) pre a ↔ Forwarded env (.new hasher w) pre a := by
  have hname := hop a (by rw [hrun]; simp)
  by_cases hwf : ∃ vars, WellFormed env a.request vars
  · obtain ⟨vars, ha⟩ := hwf
    refine not_congr ?_
    have hzero : Withheld (served env hasher 0 pre a) ↔ _ := withheld_iff_recent hop htimes hrun ha
    have hwide : Withheld (served env hasher w pre a) ↔ _ := withheld_iff_recent hop htimes hrun ha
    refine hzero.trans (Iff.trans ?_ hwide.symm)
    rw [← hlog]
    exact recent_iff htimes hw hnone hrun ha 0
  · exact iff_of_false (not_forwarded_malformed hname hwf _) (not_forwarded_malformed hname hwf _)

/-- Then the logs are the same all along. -/
theorem successes_same (hw : 0 ≤ w) (hnone : NoneRepeated env w run) (hrun : run = pre ++ post) :
    successes env hasher 0 pre = successes env hasher w pre := by
  induction pre using List.reverseRecOn generalizing post with
  | nil =>
    ext x
    simp [successes]
  | append_singleton pre a ih =>
    have hrun' : run = pre ++ a :: post := by simpa using hrun
    have hlog := ih hrun'
    by_cases hwf : ∃ vars, WellFormed env a.request vars
    · obtain ⟨vars, ha⟩ := hwf
      have hok' := hok a (by rw [hrun']; simp)
      have hsame := forwarded_congr hop htimes hw hnone hrun' hlog
      rw [forwarded_iff_sent ha hok', forwarded_iff_sent ha hok'] at hsame
      ext x
      rw [mem_successes_snoc ha, mem_successes_snoc ha, hlog, hsame]
    · rw [successes_malformed hwf, successes_malformed hwf, hlog]

/-- **Two windows**: they pass on the same requests iff no message comes again within the longer one. -/
theorem same_forwarded_iff (hw : 0 ≤ w) :
    SameForwarded env (.new hasher 0) (.new hasher w) run ↔ NoneRepeated env w run := by
  constructor
  · intro hsame
    refine pairwise_of_splits fun pre b mid a post hrun ⟨vb, va, hb, ha, hid, hmsg⟩ ⟨hlo, hhi⟩ => ?_
    have hrun' : run = (pre ++ b :: mid) ++ a :: post := by simpa using hrun
    have hsent : ∀ {pre a post vars} (v : Int), run = pre ++ a :: post → WellFormed env a.request vars →
        (Forwarded env (.new hasher v) pre a ↔ Sent (served env hasher v pre a)) := by
      intro pre a post vars v hrun ha
      exact forwarded_iff_sent ha (hok a (by rw [hrun]; simp))
    -- with the window 0, the message is sent at both times; with the other, it is then withheld at the second
    obtain ⟨pa, a', qa, va', hruna, hwfa, hsenta, hnowa, hkeya⟩ := sent_at_time hasher hop htimes hok hrun' ha
    obtain ⟨pb, b', qb, vb', hrunb, hwfb, hsentb, hnowb, hkeyb⟩ := sent_at_time hasher hop htimes hok hrun hb
    have hforwarded := (hsame pa a' qa hruna).1 ((hsent 0 hruna hwfa).2 hsenta)
    have hbefore := (hsent w hrunb hwfb).1 ((hsame pb b' qb hrunb).1 ((hsent 0 hrunb hwfb).2 hsentb))
    obtain ⟨mid', hmid⟩ := earlier_of_lt htimes hrunb hruna (by omega)
    refine hforwarded ((withheld_iff_recent hop htimes hruna hwfa).2 ?_)
    refine ⟨b'.now, ⟨pb, b', mid', vb', hmid, hwfb, hbefore, ?_⟩, ?_⟩
    · rw [hkeya, hkeyb, hid, hmsg]
    · unfold Expired
      omega
  · intro hnone pre a post hrun
    exact forwarded_congr hop htimes hw hnone hrun (successes_same hop htimes hok hw hnone hrun)

end Windows

/-! ## The fallback -/

/-- **An unreadable period** works as the default one for the runs in which no message comes again within that. -/
theorem unreadable_period_iff (env : Env) {cenv : ConfEnv} {theService : Bool} {conf : Conf} {v : String}
    {s s' : Configured} {run : List Arrival} (hparam : conf CACHE_MEMORY_PARAM = some (some v))
    (hv : cenv.readDouble v = .unreadable) (hs : stubInitWithConfig cenv theService conf = .ok s)
    (hs' : stubInitWithConfig cenv theService (conf.without CACHE_MEMORY_PARAM) = .ok s')
    (hop : ∀ a ∈ run, a.request.IsNamed "setKeywords") (htimes : run.Pairwise fun a b => a.now ≤ b.now)
    (hok : AlwaysSucceeds run) :
    SameForwarded env s.msgCache s'.msgCache run ↔ NoneRepeated env DEFAULT_CACHE_MEMORY run := by
  rw [configured_cache hs, configured_cache hs', memoryPeriod_unreadable hparam hv, memoryPeriod_without]
  exact same_forwarded_iff hop htimes hok (by decide)

/-- A configuration with a word for the period. -/
def wordConf : Conf := fun name =>
  if name = MY_NAME_PARAM then some (some "dhs-http")
  else if name = DHS_HOST_PARAM then some (some "localhost")
  else if name = DHS_NAME_PARAM then some (some "dataServer")
  else if name = CACHE_MEMORY_PARAM then some (some "ninety")
  else none

/-- No word is a number. -/
def wordEnv : ConfEnv := ⟨boostHash, fun _ => .unreadable, fun _ => 0⟩

theorem wordConf_param : wordConf CACHE_MEMORY_PARAM = some (some "ninety") := rfl

theorem wordEnv_unreadable : wordEnv.readDouble "ninety" = .unreadable := rfl

theorem wordConf_ready : stubInitWithConfig wordEnv true wordConf =
    .ok ⟨⟨false, "dhs-http", "localhost", "dataServer"⟩, .new boostHash 0⟩ := rfl

theorem wordConf_default : stubInitWithConfig wordEnv true (wordConf.without CACHE_MEMORY_PARAM) =
    .ok ⟨⟨false, "dhs-http", "localhost", "dataServer"⟩, .new boostHash 90⟩ := rfl

theorem retried_succeeds : AlwaysSucceeds retriedRun := by
  intro a ha n
  obtain ⟨t, rfl⟩ := mem_retriedRun ha
  rfl

theorem unreadable_period_iff_word :
    SameForwarded plainEnv (.new boostHash 0) (.new boostHash 90) retriedRun ↔
      NoneRepeated plainEnv DEFAULT_CACHE_MEMORY retriedRun :=
  unreadable_period_iff plainEnv wordConf_param wordEnv_unreadable wordConf_ready wordConf_default
    (isNamed_of_wellFormed retried_wellFormed) retried_times retried_succeeds

/-- **A word for the period** stops the suppression of duplicates. -/
theorem word_disables_window : ¬∀ (env : Env) (cenv : ConfEnv) (theService : Bool) (conf : Conf) (v : String)
    (s s' : Configured) (run : List Arrival), conf CACHE_MEMORY_PARAM = some (some v) →
    cenv.readDouble v = .unreadable → stubInitWithConfig cenv theService conf = .ok s →
    stubInitWithConfig cenv theService (conf.without CACHE_MEMORY_PARAM) = .ok s' →
    (∀ a ∈ run, a.request.IsNamed "setKeywords") → (run.Pairwise fun a b => a.now ≤ b.now) → AlwaysSucceeds run →
    SameForwarded env s.msgCache s'.msgCache run := by
  intro hall
  have hsame := hall plainEnv wordEnv true wordConf "ninety" _ _ retriedRun wordConf_param wordEnv_unreadable
    wordConf_ready wordConf_default (isNamed_of_wellFormed retried_wellFormed) retried_times retried_succeeds
  have hnone :=
    (same_forwarded_iff (isNamed_of_wellFormed retried_wellFormed) retried_times retried_succeeds (by decide)).1 hsame
  exact List.rel_of_pairwise_cons hnone List.mem_cons_self (sameMessage_object 0 50) (by decide)

end DhsTranslator
