import DhsTranslator.Adapter.Operations
import DhsTranslator.Conc.Discipline

/-!
# The discipline of the adapter

What a call of an operation may do with the lock, the library and the connection, whatever other calls do next to it.

- `connects`, `assignsSince`: the successful `dhsConnect` calls of a trace, and the assignments to the field after the
  first of them;
- `Phase` is what a call knows: whether it holds the lock, whether it is inside of a library call, and what it has seen
  of the connection; `connectOnce` is the discipline;
- `follows_operation`: every operation follows it, for all arguments, and no getter throws under the lock
  (`avValue_isOk`).
-/

namespace DhsTranslator

open Conc DhsAdapter

/-! ## The connection in a trace -/

section Traces

variable {ι : Type}

/-- The connection of a `dhsConnect` that succeeds. -/
def connected : Act AdapterSig → Option DhsConnect
  | ⟨.leave (.dhsConnect _ _), ⟨c, .S_SUCCESS⟩⟩ => some c
  | _ => none

/-- The value that is assigned to the field `connection`. -/
def assigned : Act AdapterSig → Option DhsConnect
  | ⟨.setConnection c, _⟩ => some c
  | _ => none

/-- The connections of the successful `dhsConnect` calls. -/
def connects (tr : List (Event ι AdapterSig)) : List DhsConnect := tr.filterMap fun e => connected e.act

/-- The assignments to the field after the first successful `dhsConnect`. -/
def assignsSince : List (Event ι AdapterSig) → List DhsConnect
  | [] => []
  | e :: tr => if (connected e.act).isSome then tr.filterMap fun e => assigned e.act else assignsSince tr

@[simp] theorem connects_nil : connects ([] : List (Event ι AdapterSig)) = [] := rfl

theorem connects_snoc (tr : List (Event ι AdapterSig)) (e : Event ι AdapterSig) :
    connects (tr ++ [e]) = connects tr ++ (connected e.act).toList := by
  unfold connects
  rw [List.filterMap_append]
  cases h : connected e.act <;> simp [h]

theorem assignsSince_snoc (tr : List (Event ι AdapterSig)) (e : Event ι AdapterSig) :
    assignsSince (tr ++ [e]) = if connects tr = [] then [] else assignsSince tr ++ (assigned e.act).toList := by
  induction tr with
  | nil => simp [assignsSince]
  | cons d tr ih =>
    cases h : connected d.act with
    | none =>
      have hconnects : connects (d :: tr) = connects tr := by simp [connects, h]
      simp [assignsSince, h, hconnects, ih]
    | some c =>
      have hconnects : connects (d :: tr) ≠ [] := by simp [connects, h]
      rw [if_neg hconnects]
      cases h' : assigned e.act <;> simp [assignsSince, h, h']

theorem assignsSince_of_connects {tr : List (Event ι AdapterSig)} (h : connects tr = []) : assignsSince tr = [] := by
  induction tr with
  | nil => rfl
  | cons e tr ih =>
    cases hc : connected e.act with
    | none =>
      have hconnects : connects (e :: tr) = connects tr := by simp [connects, hc]
      rw [hconnects] at h
      simp [assignsSince, hc, ih h]
    | some c => simp [connects, hc] at h

end Traces

/-! ## The discipline -/

/-- What a call that holds the lock knows of the connection. -/
inductive Link where
  | unknown
  /-- there is a connection -/
  | up
  /-- there is a connection, and this is the field -/
  | read (c : DhsConnect)
  /-- there is no connection -/
  | down
  /-- `dhsConnect` returned -/
  | answered (c : DhsConnect) (ok : Bool)
  /-- and the field is assigned -/
  | stored (c : DhsConnect) (ok : Bool)
  deriving DecidableEq

/-- Where a call is. -/
inductive Phase where
  /-- without the lock; it may know that there is a connection -/
  | free (up : Bool)
  | held (l : Link)
  /-- with the lock, inside of a library call -/
  | within (f : LibCall) (l : Link)
  deriving DecidableEq

/-- Nothing is under way that the other calls must not see. -/
def Link.Settled : Link → Prop
  | .unknown | .up | .read _ => True
  | _ => False

def Link.isUp : Link → Bool
  | .up | .read _ => true
  | _ => false

def Link.ofBool (up : Bool) : Link := if up then .up else .unknown

@[simp] theorem settled_unknown : Link.unknown.Settled := trivial

@[simp] theorem settled_up : Link.up.Settled := trivial

@[simp] theorem settled_read (c : DhsConnect) : (Link.read c).Settled := trivial

@[simp] theorem settled_ofBool (up : Bool) : (Link.ofBool up).Settled := by
  cases up <;> trivial

theorem settled_of_isUp {l : Link} (h : l.isUp) : l.Settled := by
  cases l <;> trivial

@[simp] theorem isUp_up : Link.up.isUp = true := rfl

@[simp] theorem isUp_read (c : DhsConnect) : (Link.read c).isUp = true := rfl

@[simp] theorem isUp_ofBool (up : Bool) : (Link.ofBool up).isUp = up := by
  cases up <;> rfl

/-- The connection a library call is made with. -/
def LibCall.connection? : LibCall → Option DhsConnect
  | .dhsBdName c | .dhsBdCtlLifetime c _ _ | .dhsBdCtlContrib c _ _ _ | .dhsBdPut c _ _ _ => some c
  | _ => none

/-- What a library call needs. -/
def Link.Allows (l : Link) : LibCall → Prop
  | .dhsConnect _ _ => l = .down
  | f => match f.connection? with
    | some c => l = .read c
    | none => l.Settled

/-- What a call knows after a library call. -/
def Link.after (l : Link) : (f : LibCall) → f.Answer → Link
  | .dhsConnect _ _, ⟨c, status⟩ => .answered c (status = .S_SUCCESS)
  | _, _ => l

theorem Link.Allows.read {l : Link} {f : LibCall} {c : DhsConnect} (h : l.Allows f) (hf : f.connection? = some c) :
    l = .read c := by
  cases f <;> simp_all [LibCall.connection?, Link.Allows]

theorem allows_read {f : LibCall} {c : DhsConnect} (hf : f.connection? = some c) : (Link.read c).Allows f := by
  cases f <;> simp_all [LibCall.connection?, Link.Allows]

theorem after_other {l : Link} {f : LibCall} {r : f.Answer} (hf : ∀ host server, f ≠ .dhsConnect host server) :
    l.after f r = l := by
  cases f <;> first | rfl | exact absurd rfl (hf _ _)

theorem after_read {f : LibCall} {c : DhsConnect} {r : f.Answer} (hf : f.connection? = some c) :
    (Link.read c).after f r = .read c := by
  cases f <;> first | rfl | cases hf

/-- Which commands a call may issue: library calls under the lock, `dhsConnect` only if there is no connection, the
others with the one that is there. -/
def Phase.May (φ : Phase) : AdapterCmd → Prop
  | .timedLock => ∃ up, φ = .free up
  | .unlock => ∃ l, φ = .held l ∧ l.Settled
  | .getIsConnected => (∃ up, φ = .free up) ∨ ∃ l, φ = .held l ∧ l.Settled
  | .setIsConnected b => ∃ c, φ = .held (.stored c b)
  | .getConnection => ∃ l, φ = .held l ∧ l.isUp
  | .setConnection c => ∃ ok, φ = .held (.answered c ok)
  | .enter f _ => ∃ l, φ = .held l ∧ l.Allows f
  | .leave f => ∃ l, φ = .within f l ∧ l.Allows f

/-- Where a command with its response leads. -/
def Phase.next : Phase → Act AdapterSig → Phase
  | .free up, ⟨.timedLock, locked⟩ => if locked then .held (.ofBool up) else .free up
  | .free up, ⟨.getIsConnected, b⟩ => .free (up || b)
  | .held l, ⟨.unlock, _⟩ => .free l.isUp
  | .held _, ⟨.getIsConnected, b⟩ => .held (if b then .up else .down)
  | .held _, ⟨.getConnection, c⟩ => .held (.read c)
  | .held (.answered c ok), ⟨.setConnection _, _⟩ => .held (.stored c ok)
  | .held (.stored c ok), ⟨.setIsConnected _, _⟩ => .held (if ok then .read c else .unknown)
  | .held l, ⟨.enter f _, _⟩ => .within f l
  | .within _ l, ⟨.leave f, r⟩ => .held (l.after f r)
  | φ, _ => φ

def connectOnce : Discipline AdapterSig Phase := ⟨Phase.May, Phase.next⟩

/-! ## The operations follow it -/

section Commands

variable {up : Bool} {l : Link}

@[simp] theorem follows_timedLock {Q : Except AdapterAbort Bool → Phase → Prop} :
    Follows connectOnce timedLock (.free up) Q ↔ Q (.ok false) (.free up) ∧ Q (.ok true) (.held (.ofBool up)) := by
  simp [timedLock, connectOnce, Phase.May, Phase.next]

@[simp] theorem follows_unlock {Q : Except AdapterAbort Unit → Phase → Prop} :
    Follows connectOnce unlock (.held l) Q ↔ l.Settled ∧ Q (.ok ()) (.free l.isUp) := by
  simp only [unlock, connectOnce, follows_call, follows_ret, Phase.May, Phase.next, Phase.held.injEq, exists_eq_left']
  exact and_congr_right fun _ => ⟨fun h => h (), fun h _ => h⟩

@[simp] theorem follows_getIsConnected_free {Q : Except AdapterAbort Bool → Phase → Prop} :
    Follows connectOnce getIsConnected (.free up) Q ↔ ∀ b, Q (.ok b) (.free (up || b)) := by
  simp [getIsConnected, connectOnce, Phase.May, Phase.next]

@[simp] theorem follows_getIsConnected_held {Q : Except AdapterAbort Bool → Phase → Prop} :
    Follows connectOnce getIsConnected (.held l) Q ↔
      l.Settled ∧ Q (.ok false) (.held .down) ∧ Q (.ok true) (.held .up) := by
  simp [getIsConnected, connectOnce, Phase.May, Phase.next]

@[simp] theorem follows_getConnection {Q : Except AdapterAbort DhsConnect → Phase → Prop} :
    Follows connectOnce getConnection (.held l) Q ↔ l.isUp ∧ ∀ c, Q (.ok c) (.held (.read c)) := by
  simp [getConnection, connectOnce, Phase.May, Phase.next]

@[simp] theorem follows_setConnection {c : DhsConnect} {ok : Bool} {Q : Except AdapterAbort Unit → Phase → Prop} :
    Follows connectOnce (setConnection c) (.held (.answered c ok)) Q ↔ Q (.ok ()) (.held (.stored c ok)) := by
  simp [setConnection, connectOnce, Phase.May, Phase.next]
  exact ⟨fun h => h (), fun h _ => h⟩

@[simp] theorem follows_setIsConnected {c : DhsConnect} {ok : Bool} {Q : Except AdapterAbort Unit → Phase → Prop} :
    Follows connectOnce (setIsConnected ok) (.held (.stored c ok)) Q ↔
      Q (.ok ()) (.held (if ok then .read c else .unknown)) := by
  simp [setIsConnected, connectOnce, Phase.May, Phase.next]
  exact ⟨fun h => h (), fun h _ => h⟩

@[simp] theorem follows_lib {f : LibCall} {status : DhsStatus} {Q : Except AdapterAbort f.Answer → Phase → Prop} :
    Follows connectOnce (lib f status) (.held l) Q ↔ l.Allows f ∧ ∀ r, Q (.ok r) (.held (l.after f r)) := by
  simp +contextual [lib, connectOnce, Phase.May, Phase.next]

end Commands

section Operations

variable {α : Type} {cfg : AdapterConfig}

/-- A call that is over does not hold the lock. -/
def AtRest : Except AdapterAbort α → Phase → Prop := fun _ φ => ∃ up, φ = .free up

@[simp] theorem atRest_free {res : Except AdapterAbort α} {up : Bool} : AtRest res (.free up) := ⟨up, rfl⟩

/-- A check that answers yes leaves a call that knows of a connection. -/
theorem follows_checkConnection {up : Bool} {Q : Except AdapterAbort Bool → Phase → Prop}
    (h : ∀ b up', (b = true → up' = true) → Q (.ok b) (.free up')) :
    Follows connectOnce (checkConnection cfg) (.free up) Q := by
  have hend : ∀ l : Link, l.Settled → Follows connectOnce (do unlock; getIsConnected) (.held l) Q := by
    intro l hl
    rw [follows_bind, follows_unlock]
    refine ⟨hl, ?_⟩
    rw [then_ok, follows_getIsConnected_free]
    exact fun b => h b _ (by simp +contextual)
  unfold checkConnection
  rw [follows_bind, follows_timedLock]
  refine ⟨h false up (by simp), ?_⟩
  simp only [then_ok, Bool.not_true, Bool.false_eq_true, if_false]
  rw [follows_bind, follows_getIsConnected_held]
  refine ⟨settled_ofBool up, ?_, hend .up settled_up⟩
  simp only [then_ok, Bool.not_false, if_true]
  rw [follows_bind, follows_lib]
  refine ⟨rfl, fun r => ?_⟩
  -- the answer is stored, and whether it is a connection is recorded, before the lock is free
  simp only [then_ok, Link.after]
  rw [follows_bind, follows_setConnection, then_ok, follows_bind, follows_setIsConnected]
  refine hend _ ?_
  split
  · exact settled_read _
  · exact settled_unknown

/-- An operation goes on only with a connection. -/
theorem follows_connected {up : Bool} {a : α} {p : Adapter α} {Q : Except AdapterAbort α → Phase → Prop}
    (ha : ∀ up', Q (.ok a) (.free up')) (hp : Follows connectOnce p (.free true) Q) :
    Follows connectOnce (do if !(← checkConnection cfg) then return a else p) (.free up) Q := by
  rw [follows_bind]
  refine follows_checkConnection fun b up' hb => ?_
  cases b with
  | false => exact ha up'
  | true =>
    obtain rfl := hb rfl
    exact hp

/-- And only with the lock. -/
theorem follows_locked {up : Bool} {a : α} {p : Adapter α} {Q : Except AdapterAbort α → Phase → Prop}
    (ha : Q (.ok a) (.free up)) (hp : Follows connectOnce p (.held (.ofBool up)) Q) :
    Follows connectOnce (do if !(← timedLock) then return a else p) (.free up) Q := by
  rw [follows_bind, follows_timedLock]
  exact ⟨ha, hp⟩

/-- **One library call in a critical section**, with the connection of the adapter. -/
theorem follows_section {a : α} {f : DhsConnect → LibCall} {status : DhsStatus}
    {k : (c : DhsConnect) → (f c).Answer → Adapter α} (hf : ∀ c, (f c).connection? = some c)
    (hk : ∀ c r, Follows connectOnce (k c r) (.free true) AtRest) :
    Follows connectOnce (do
      if !(← timedLock) then return a
      else
        let connection ← getConnection
        let answer ← lib (f connection) status
        unlock
        k connection answer) (.free true) AtRest := by
  refine follows_locked atRest_free ?_
  rw [follows_bind, follows_getConnection]
  refine ⟨isUp_ofBool true, fun c => ?_⟩
  rw [then_ok, follows_bind, follows_lib]
  refine ⟨allows_read (hf c), fun r => ?_⟩
  rw [then_ok, after_read (hf c), follows_bind, follows_unlock]
  exact ⟨settled_read c, hk c r⟩

theorem follows_createImage {up : Bool} (id : ImageId) :
    Follows connectOnce (createImage cfg id) (.free up) AtRest := by
  refine follows_connected (fun _ => atRest_free) (follows_section (fun c => rfl) fun c r => ?_)
  obtain ⟨newId, status⟩ := r
  by_cases hs : status = .S_SUCCESS
  · cases newId <;> simp [hs]
  · simp [hs]

theorem follows_setImageLifeTime {up : Bool} (id : ImageId) (lifeTime : DhsBdLifetime) :
    Follows connectOnce (setImageLifeTime cfg id lifeTime) (.free up) AtRest :=
  follows_connected (fun _ => atRest_free) (follows_section (fun _ => rfl) fun _ _ => atRest_free)

theorem follows_setImageContrib {up : Bool} (id : ImageId) (contribs : List String) :
    Follows connectOnce (setImageContrib cfg id contribs) (.free up) AtRest := by
  refine follows_connected (fun _ => atRest_free) ?_
  split
  · exact atRest_free
  · exact follows_section (fun _ => rfl) fun _ _ => atRest_free

/-- No getter throws in the loop. -/
theorem avValue_isOk (k : Keyword) : ∃ value, avValue k = .ok value := by
  have hget : ∀ {T : Type} [KeywordType T] (f : T → AvValue), k.type = KeywordType.dataType T →
      ∃ value, f <$> k.getValue T = .ok value := by
    intro T _ f htype
    obtain ⟨v, hv⟩ := getValue_isOk.2 htype
    exact ⟨f v, by rw [hv]; rfl⟩
  unfold avValue
  split <;> exact hget _ ‹_›

/-- The loop over the keywords stays in the critical section. -/
theorem follows_addKeywords {avList : DhsAvList} {keywords : List Keyword} {status : DhsStatus} {l : Link}
    {Q : Except AdapterAbort DhsStatus → Phase → Prop} (hl : l.Settled) (hQ : ∀ status, Q (.ok status) (.held l)) :
    Follows connectOnce (keywords.foldlM (addKeyword avList) status) (.held l) Q := by
  induction keywords generalizing status with
  | nil => exact hQ status
  | cons k keywords ih =>
    obtain ⟨value, hvalue⟩ := avValue_isOk k
    rw [List.foldlM_cons, follows_bind, addKeyword, hvalue, eval, Prog.ret_bind, follows_bind, follows_lib]
    exact ⟨hl, fun r => ih⟩

theorem follows_putAvList {id : ImageId} {final : Bool} {avList : DhsAvList} {status : DhsStatus} {l : Link}
    {Q : Except AdapterAbort DhsStatus → Phase → Prop} (hl : l.isUp)
    (hQ : ∀ status c, Q (.ok status) (.held (.read c))) :
    Follows connectOnce (putAvList id final avList status) (.held l) Q := by
  rw [putAvList, follows_bind, follows_getConnection]
  refine ⟨hl, fun c => ?_⟩
  rw [then_ok, follows_bind, follows_lib]
  refine ⟨rfl, fun tag => ?_⟩
  rw [then_ok, follows_bind, follows_lib]
  refine ⟨settled_read c, fun _ => ?_⟩
  rw [then_ok, follows_bind, follows_lib]
  refine ⟨settled_read c, fun cmd => ?_⟩
  rw [then_ok, follows_bind, follows_lib]
  exact ⟨settled_read c, fun _ => hQ _ c⟩

theorem follows_setImageKeywords {up : Bool} (id : ImageId) (keywords : List Keyword) (final : Bool) :
    Follows connectOnce (setImageKeywords cfg id keywords final) (.free up) AtRest := by
  have hend : ∀ (avList : DhsAvList) (status : DhsStatus) (l : Link), l.Settled →
      Follows connectOnce (do let _ ← lib (.dhsAvListFree avList) .S_SUCCESS; unlock; return status) (.held l) AtRest := by
    intro avList status l hl
    rw [follows_bind, follows_lib]
    refine ⟨hl, fun r => ?_⟩
    rw [then_ok, follows_bind, follows_unlock]
    exact ⟨hl, _, rfl⟩
  refine follows_connected (fun _ => atRest_free) ?_
  split
  · exact atRest_free
  · refine follows_locked atRest_free ?_
    rw [follows_bind, follows_lib]
    refine ⟨settled_up, fun avList => ?_⟩
    rw [then_ok, follows_bind]
    refine follows_addKeywords settled_up fun status => ?_
    rw [then_ok, follows_bind, follows_lib]
    refine ⟨settled_up, fun size => ?_⟩
    simp only [then_ok]
    split
    · rw [follows_bind]
      exact follows_putAvList isUp_up fun status c => hend _ status _ (settled_read c)
    · exact hend _ _ _ settled_up

/-- **Every operation follows the discipline.** -/
theorem follows_operation (op : Operation) : Follows connectOnce (op.call cfg) (.free false) AtRest := by
  have hcall : ∀ {p : Adapter DhsStatus} {id : ImageId}, Follows connectOnce p (.free false) AtRest →
      Follows connectOnce (do return (← p, id)) (.free false) AtRest := by
    intro p id hp
    rw [follows_bind]
    refine hp.mono fun res φ hφ => ?_
    cases res <;> exact hφ
  cases op with
  | createImage id => exact follows_createImage id
  | setImageLifeTime id lifeTime => exact hcall (follows_setImageLifeTime id lifeTime)
  | setImageContrib id contribs => exact hcall (follows_setImageContrib id contribs)
  | setImageKeywords id keywords final => exact hcall (follows_setImageKeywords id keywords final)

end Operations

end DhsTranslator
