import DhsTranslator.Conc.Interleaving
import DhsTranslator.Keyword

/-!
# The simulated adapter

`DhsAdapterSim::createImage` as a program over the commands `SimCmd`: the local date, the mutex and the shared counter.

- `OStream` is what is written to a `std::stringstream`: a width pads the next value only, a fill character stays;
- `simSem` is what the commands do to the adapter, whoever issues them. A thread waits for the mutex; the date may be any.
- Log messages are left out.
-/

namespace DhsTranslator

open Conc

/-! ## Output streams -/

/-- A stream that is written to: its text, and the padding of what comes next. -/
structure OStream where
  text : List Char
  fill : Char
  width : Nat
  deriving DecidableEq, Repr

namespace OStream

def new : OStream := ⟨[], ' ', 0⟩

def setfill (s : OStream) (c : Char) : OStream := { s with fill := c }

def setw (s : OStream) (n : Nat) : OStream := { s with width := n }

/-- `<<` of a value with these characters. -/
def put (s : OStream) (cs : List Char) : OStream := { s with text := s.text ++ cs.leftpad s.width s.fill, width := 0 }

def putChar (s : OStream) (c : Char) : OStream := s.put [c]

def putInt (s : OStream) (n : Int) : OStream := s.put (toString n).toList

def str (s : OStream) : String := String.ofList s.text

end OStream

/-! ## Commands -/

/-- `struct tm`, as far as it is read. -/
structure Tm where
  tm_year : Int
  tm_mon : Int
  tm_mday : Int
  mon_range : 0 ≤ tm_mon ∧ tm_mon ≤ 11
  mday_range : 1 ≤ tm_mday ∧ tm_mday ≤ 31

inductive SimCmd where
  | localtime
  | lock
  | unlock
  | getNextId
  | setNextId (n : Int)
  deriving DecidableEq, Repr

abbrev SimCmd.Resp : SimCmd → Type
  | .localtime => Tm
  | .getNextId => Int
  | _ => Unit

abbrev SimSig : Sig := ⟨SimCmd, SimCmd.Resp⟩

abbrev Sim := Prog SimSig Abort

namespace DhsAdapterSim

def localtime : Sim Tm := .call (S := SimSig) .localtime .ret

def lock : Sim Unit := .call (S := SimSig) .lock .ret

def unlock : Sim Unit := .call (S := SimSig) .unlock .ret

def getNextId : Sim Int := .call (S := SimSig) .getNextId .ret

def setNextId (n : Int) : Sim Unit := .call (S := SimSig) (.setNextId n) .ret

/-! ## The operations -/

def MAX_IMAGE_ID : Int := 10000

/-- The id of the image with a number. -/
def formatedId (date : Tm) (latchedId : Int) : OStream :=
  OStream.new |>.putChar 'S' |>.setfill '0' |>.setw 4 |>.putInt (date.tm_year + 1900)
    |>.setw 2 |>.putInt date.tm_mon |>.putInt date.tm_mday |>.putChar 'S' |>.setw 4
    |>.putInt latchedId

/-- `createImage`: the status and the id. -/
def createImage : Sim (DhsStatus × ImageId) := do
  let date ← localtime
  lock
  let latchedId ← getNextId
  -- `++nextId`
  let nextId ← getNextId
  setNextId (nextId + 1)
  if nextId + 1 ≥ MAX_IMAGE_ID then
    setNextId 1
  unlock
  return (.S_SUCCESS, (formatedId date latchedId).str)

end DhsAdapterSim

/-! ## The shared adapter -/

/-- The mutex with its owner, and the counter. -/
structure SimState (ι : Type) where
  owner : Option ι
  nextId : Int

/-- What a command does to the adapter. -/
def simSem {ι : Type} : Sem ι (SimState ι) SimSig
  | _, s, ⟨.localtime, _⟩, s' => s' = s
  | i, s, ⟨.lock, _⟩, s' => s.owner = none ∧ s' = { s with owner := some i }
  | _, s, ⟨.unlock, _⟩, s' => s' = { s with owner := none }
  | _, s, ⟨.getNextId, n⟩, s' => n = s.nextId ∧ s' = s
  | _, s, ⟨.setNextId n, _⟩, s' => s' = { s with nextId := n }

/-- After the constructor, calls of `createImage` that are about to start. -/
def simStart (ι : Type) : Config ι (SimState ι) SimSig Abort (DhsStatus × ImageId) :=
  ⟨⟨none, 1⟩, fun _ => DhsAdapterSim.createImage⟩

end DhsTranslator
