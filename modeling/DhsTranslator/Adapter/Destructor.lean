import DhsTranslator.Adapter.Safety
import DhsTranslator.Conc.Alone

/-!
# The destructor of the adapter

`~DhsAdapter` as a program over the commands of the adapter and those that only it issues: its lock, which it waits for,
the flag `dhsInitialized`, and three more calls of the client library.

- `ExitState`: the flag is written by a constructor that succeeds, and only then;
- `meets_destruct`: when no call is under way, the destructor does not wait, and it leaves no connection; the one thing it
  may not do is to read a flag that was never written (`Unwritten`);
- `closing`, `leaving`: the library calls that it makes.
-/

namespace DhsTranslator

open Conc

/-- Library calls with their arguments. -/
inductive ExitCall where
  | dhsDisconnect (connection : DhsConnect)
  | dhsEventLoopEnd
  | dhsExit
  deriving DecidableEq, Repr

inductive ExitCmd where
  | adapter (c : AdapterCmd)
  | lock
  | getDhsInitialized
  | enter (f : ExitCall) (status : DhsStatus)
  | leave (f : ExitCall)

abbrev ExitCmd.Resp : ExitCmd → Type
  | .adapter c => c.Resp
  | .getDhsInitialized => Bool
  | .leave _ => DhsStatus
  | _ => Unit

abbrev ExitSig : Sig := ⟨ExitCmd, ExitCmd.Resp⟩

abbrev Exit := Prog ExitSig Empty

namespace DhsAdapter

/-- A command on the adapter. -/
def exit (c : AdapterCmd) : Exit c.Resp := .call (S := ExitSig) (.adapter c) .ret

def waitLock : Exit Unit := .call (S := ExitSig) .lock .ret

def getDhsInitialized : Exit Bool := .call (S := ExitSig) .getDhsInitialized .ret

def exitLib (f : ExitCall) (status : DhsStatus) : Exit DhsStatus :=
  .call (S := ExitSig) (.enter f status) fun _ => .call (S := ExitSig) (.leave f) .ret

/-- The connection is closed, if there is one. -/
def disconnect : Exit Unit := do
  if (← exit .getConnection) ≠ .CONNECT_NULL then
    waitLock
    let connection ← exit .getConnection
    let _ ← exitLib (.dhsDisconnect connection) .S_SUCCESS
    exit (.setConnection .CONNECT_NULL)
    exit .unlock

/-- The destructor. -/
def destruct : Exit Unit := do
  disconnect
  if ← getDhsInitialized then
    let status ← exitLib .dhsEventLoopEnd .S_SUCCESS
    let _ ← exitLib .dhsExit status

end DhsAdapter

open DhsAdapter

/-- The adapter, what was written to the flag, and the library calls that the destructor has made. -/
structure ExitState (ι : Type) where
  adapter : AdapterState ι
  dhsInitialized : Option Bool
  called : List ExitCall

def exitSem {ι : Type} [DecidableEq ι] : Sem ι (ExitState ι) ExitSig
  | i, s, ⟨.adapter c, r⟩, s' => ∃ a, adapterSem i s.adapter ⟨c, r⟩ a ∧ s' = { s with adapter := a }
  | i, s, ⟨.lock, _⟩, s' =>
    s.adapter.owner = none ∧ s' = { s with adapter := { s.adapter with owner := some i } }
  -- without a value written, any is read
  | _, s, ⟨.getDhsInitialized, b⟩, s' => (∀ b', s.dhsInitialized = some b' → b = b') ∧ s' = s
  | _, s, ⟨.enter f _, _⟩, s' => s' = { s with called := s.called ++ [f] }
  | _, s, ⟨.leave _, _⟩, s' => s' = s

section Destructor

variable {ι : Type} [DecidableEq ι] {i : ι} {s : ExitState ι} {flag : Option Bool}

/-- What the destructor may do: it takes the lock when it is free, calls the library when nobody else does, and reads the
flag when it was written. -/
def ExitCmd.May (i : ι) : ExitCmd → ExitState ι → Prop
  | .lock, s => s.adapter.owner = none
  | .adapter .unlock, s => s.adapter.owner = some i
  | .enter _ _, s => ∀ j, s.adapter.inside j = none
  | .getDhsInitialized, s => s.dhsInitialized ≠ none
  | _, _ => True

/-- The flag is read, and nothing was written to it. -/
def ExitCmd.Unwritten (flag : Option Bool) (c : ExitCmd) : Prop := c = .getDhsInitialized ∧ flag = none

/-- What the destructor does: what it may do, and that. -/
abbrev ExitCmd.Does (flag : Option Bool) (i : ι) (c : ExitCmd) (s : ExitState ι) : Prop := c.Unwritten flag ∨ c.May i s

/-- The connection is closed if it is not `NULL`, whatever became of the attempt to establish it. -/
def closing : DhsConnect → List ExitCall
  | .CONNECT_NULL => []
  | c => [.dhsDisconnect c]

/-- The library is left if it was initialized. -/
def leaving (dhsInitialized : Bool) : List ExitCall := if dhsInitialized then [.dhsEventLoopEnd, .dhsExit] else []

theorem meets_exitLib {α : Type} {Q : Except Empty α → ExitState ι → Prop} {f : ExitCall} {status : DhsStatus}
    {k : DhsStatus → Exit α} (hout : ∀ j, s.adapter.inside j = none)
    (hk : ∀ r, Meets exitSem i (ExitCmd.Does flag i) Q (k r) { s with called := s.called ++ [f] }) :
    Meets exitSem i (ExitCmd.Does flag i) Q (exitLib f status >>= k) s := by
  refine ⟨Or.inr hout, ?_⟩
  rintro _ _ rfl
  refine ⟨Or.inr trivial, ?_⟩
  rintro r _ rfl
  exact hk r

theorem meets_disconnect {Q : Except Empty Unit → ExitState ι → Prop} (hfree : s.adapter.owner = none)
    (hout : ∀ j, s.adapter.inside j = none)
    (hQ : Q (.ok ()) { s with
      adapter := { s.adapter with connection := .CONNECT_NULL }, called := s.called ++ closing s.adapter.connection }) :
    Meets exitSem i (ExitCmd.Does flag i) Q disconnect s := by
  obtain ⟨⟨owner, up, connection, inside⟩, flag, called⟩ := s
  obtain rfl : owner = none := hfree
  refine ⟨Or.inr trivial, ?_⟩
  rintro connection _ ⟨_, ⟨rfl, rfl⟩, rfl⟩
  cases connection with
  | CONNECT_NULL =>
    rw [closing, List.append_nil] at hQ
    exact hQ
  | handle n =>
    refine ⟨Or.inr rfl, ?_⟩
    rintro _ _ ⟨_, rfl⟩
    refine ⟨Or.inr trivial, ?_⟩
    rintro _ _ ⟨_, ⟨rfl, rfl⟩, rfl⟩
    refine meets_exitLib hout fun r => ⟨Or.inr trivial, ?_⟩
    rintro _ _ ⟨_, rfl, rfl⟩
    refine ⟨Or.inr rfl, ?_⟩
    rintro _ _ ⟨_, rfl, rfl⟩
    exact hQ

/-- **The destructor** does not wait, closes the connection and leaves the library if that is what it reads. -/
theorem meets_destruct (hfree : s.adapter.owner = none) (hout : ∀ j, s.adapter.inside j = none) :
    Meets exitSem i (ExitCmd.Does s.dhsInitialized i) (fun _ s' => ∃ b, (∀ b', s.dhsInitialized = some b' → b = b') ∧
      s' = { s with
        adapter := { s.adapter with connection := .CONNECT_NULL },
        called := s.called ++ (closing s.adapter.connection ++ leaving b) }) destruct s := by
  have hread : ExitCmd.Does s.dhsInitialized i .getDhsInitialized { s with
      adapter := { s.adapter with connection := .CONNECT_NULL }, called := s.called ++ closing s.adapter.connection } := by
    by_cases hflag : s.dhsInitialized = none
    · exact Or.inl ⟨rfl, hflag⟩
    · exact Or.inr hflag
  refine meets_bind.2 (meets_disconnect hfree hout ⟨hread, ?_⟩)
  rintro b _ ⟨hb, rfl⟩
  cases b with
  | false =>
    refine ⟨false, hb, ?_⟩
    rw [leaving, if_neg (by simp), List.append_nil]
  | true =>
    refine meets_exitLib hout fun status => meets_exitLib hout fun _ => ⟨true, hb, ?_⟩
    simp [leaving]

end Destructor

end DhsTranslator
