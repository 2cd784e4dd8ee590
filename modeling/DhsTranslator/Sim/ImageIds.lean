import DhsTranslator.Conc.Discipline
import DhsTranslator.Sim.Operations
import DhsTranslator.Text.Padding

/-!
# The ids of simulated images

Any number of calls of `createImage`, interleaved in any order, each with a date of its own.

- `formatedId_inj`: an id shows the day and the number of the image, although the day of the month is not padded;
- `counter` is the number of the image that is created after `k` others; `creating` is the discipline of the calls, and
  `keeps_numbered`: whoever takes the mutex next gets the next number;
- `Call.id_eq`: the id of a call; `ids_repeat_iff`: when two calls return the same one.
-/

namespace DhsTranslator

open Conc Text

/-! ## The text of an id -/

/-- Years that are written with four digits. -/
def Tm.FourDigits (date : Tm) : Prop := 1000 ≤ date.tm_year + 1900 ∧ date.tm_year + 1900 ≤ 9999

/-- Two times on one day. -/
def Tm.SameDay (date date' : Tm) : Prop :=
  date.tm_year = date'.tm_year ∧ date.tm_mon = date'.tm_mon ∧ date.tm_mday = date'.tm_mday

namespace DhsAdapterSim

/-- Year, month and day of the month as they are written. -/
structure Dated (date : Tm) (year month day : Nat) : Prop where
  year : date.tm_year + 1900 = year
  month : date.tm_mon = month
  day : date.tm_mday = day

theorem exists_dated {date : Tm} (h : 0 ≤ date.tm_year + 1900) : ∃ year month day, Dated date year month day := by
  obtain ⟨year, hyear⟩ := Int.eq_ofNat_of_zero_le h
  obtain ⟨month, hmonth⟩ := Int.eq_ofNat_of_zero_le date.mon_range.1
  obtain ⟨day, hday⟩ := Int.eq_ofNat_of_zero_le (show 0 ≤ date.tm_mday by have h := date.mday_range.1; omega)
  exact ⟨year, month, day, hyear, hmonth, hday⟩

/-- The year has four digits. -/
theorem Dated.year_lt {date : Tm} {year month day : Nat} (h : Dated date year month day) (hy : date.FourDigits) :
    year < 10 ^ 4 := by
  have hyear := h.year
  have hle := hy.2
  omega

/-- The month has at most two. -/
theorem Dated.month_lt {date : Tm} {year month day : Nat} (h : Dated date year month day) : month < 10 ^ 2 := by
  have hmonth := h.month
  have hle := date.mon_range.2
  omega

theorem toString_natCast (n : Nat) : (toString (n : Int)).toList = Nat.toDigits 10 n := by
  rw [← chars_ofInt]
  rfl

/-- **The text of an id**: only the day is not padded. -/
theorem formatedId_text {date : Tm} {year month day : Nat} (h : Dated date year month day) (n : Nat) :
    (formatedId date n).text =
      'S' :: (padded 4 year ++ (padded 2 month ++ (Nat.toDigits 10 day ++ 'S' :: padded 4 n))) := by
  unfold formatedId
  rw [h.year, h.month, h.day]
  simp only [OStream.new, OStream.putChar, OStream.putInt, OStream.setfill, OStream.setw, OStream.put,
    toString_natCast, padded]
  simp [List.leftpad]

/-- **An id shows the day and the number**: its fields cannot be mistaken for each other. -/
theorem formatedId_inj {date date' : Tm} (hy : date.FourDigits) (hy' : date'.FourDigits) {m n : Nat}
    (hm : m < 10000) (hn : n < 10000) :
    (formatedId date m).str = (formatedId date' n).str ↔ date.SameDay date' ∧ m = n := by
  obtain ⟨year, month, day, hd⟩ : ∃ year month day, Dated date year month day :=
    exists_dated (by have := hy.1; omega)
  obtain ⟨year', month', day', hd'⟩ : ∃ year month day, Dated date' year month day :=
    exists_dated (by have := hy'.1; omega)
  constructor
  · intro h
    have htext := String.ofList_injective h
    rw [formatedId_text hd, formatedId_text hd'] at htext
    obtain ⟨rfl, hmonths⟩ := padded_append_inj (by decide) (hd.year_lt hy) (hd'.year_lt hy') (List.cons.inj htext).2
    obtain ⟨rfl, hdays⟩ := padded_append_inj (by decide) hd.month_lt hd'.month_lt hmonths
    -- the day is as long as it is: the next `S` ends it
    obtain ⟨rfl, hends⟩ := digits_append_inj (by simp) (by simp) hdays
    have hnumber : padded 4 m ++ [] = padded 4 n ++ [] := by rw [(List.cons.inj hends).2]
    obtain ⟨rfl, -⟩ := padded_append_inj (by decide) hm hn hnumber
    refine ⟨⟨?_, hd.month.trans hd'.month.symm, hd.day.trans hd'.day.symm⟩, rfl⟩
    have := hd.year.trans hd'.year.symm
    omega
  · rintro ⟨⟨hyear, hmonth, hday⟩, rfl⟩
    unfold formatedId
    rw [hyear, hmonth, hday]

/-! ## The counter -/

/-- The number of the image that is created after `k` others. -/
def counter (k : Nat) : Nat := k % 9999 + 1

theorem counter_lt (k : Nat) : counter k < 10000 := by
  unfold counter
  omega

theorem counter_eq_iff {k k' : Nat} : counter k = counter k' ↔ k % 9999 = k' % 9999 := by
  unfold counter
  omega

/-- The number after the last one is 1 again. -/
theorem counter_wraps {k : Nat} (h : (counter k : Int) + 1 ≥ MAX_IMAGE_ID) : counter (k + 1) = 1 := by
  unfold MAX_IMAGE_ID counter at *
  omega

theorem counter_succ {k : Nat} (h : ¬(counter k : Int) + 1 ≥ MAX_IMAGE_ID) : counter (k + 1) = counter k + 1 := by
  unfold MAX_IMAGE_ID counter at *
  omega

/-! ## The discipline -/

/-- How far a call is, with the local date and with what it has read of the counter. -/
inductive Stage where
  | fresh
  | dated (date : Tm)
  | locked (date : Tm)
  | latched (date : Tm) (n : Int)
  | read (date : Tm) (n m : Int)
  /-- the counter is incremented -/
  | stored (date : Tm) (n m : Int)
  /-- and has wrapped -/
  | wrapped (date : Tm) (n : Int)
  | created (date : Tm) (n : Int)

namespace Stage

def holds : Stage → Bool
  | .fresh | .dated _ | .created _ _ => false
  | _ => true

def date? : Stage → Option Tm
  | .fresh => none
  | .dated date | .locked date | .latched date _ | .read date _ _ | .stored date _ _ | .wrapped date _
  | .created date _ => some date

def may : Stage → SimCmd → Prop
  | .fresh, .localtime | .dated _, .lock | .locked _, .getNextId | .latched _ _, .getNextId
  | .wrapped _ _, .unlock => True
  | .read _ _ m, .setNextId k => k = m + 1
  | .stored _ _ m, .setNextId k => m + 1 ≥ MAX_IMAGE_ID ∧ k = 1
  | .stored _ _ m, .unlock => ¬m + 1 ≥ MAX_IMAGE_ID
  | _, _ => False

def next : Stage → Act SimSig → Stage
  | .fresh, ⟨.localtime, date⟩ => .dated date
  | .dated date, ⟨.lock, _⟩ => .locked date
  | .locked date, ⟨.getNextId, n⟩ => .latched date n
  | .latched date n, ⟨.getNextId, m⟩ => .read date n m
  | .read date n m, ⟨.setNextId _, _⟩ => .stored date n m
  | .stored date n _, ⟨.setNextId _, _⟩ => .wrapped date n
  | .stored date n _, ⟨.unlock, _⟩ | .wrapped date n, ⟨.unlock, _⟩ => .created date n
  | p, _ => p

end Stage

/-- The order of the steps of a call. -/
def creating : Discipline SimSig Stage := ⟨Stage.may, Stage.next⟩

/-- A call returns success, and an id with its date and the number that it has read. -/
def Returns (res : Except Abort (DhsStatus × ImageId)) (p : Stage) : Prop :=
  ∃ date n, p = .created date n ∧ res = .ok (.S_SUCCESS, (formatedId date n).str)

theorem createImage_follows : Follows creating createImage .fresh Returns := by
  refine ⟨trivial, fun date => ⟨trivial, fun _ => ⟨trivial, fun n => ⟨trivial, fun m => ⟨rfl, fun _ => ?_⟩⟩⟩⟩⟩
  show Follows creating (if m + 1 ≥ MAX_IMAGE_ID then _ else _) (.stored date n m) Returns
  split
  · rename_i h
    exact ⟨⟨h, rfl⟩, fun _ => ⟨trivial, fun _ => ⟨date, n, rfl, rfl⟩⟩⟩
  · rename_i h
    exact ⟨h, fun _ => ⟨date, n, rfl, rfl⟩⟩

/-! ## The invariant -/

section Invariant

variable {ι : Type}

/-- The calls in the order in which they take the mutex. -/
def locks (tr : List (Event ι SimSig)) : List ι :=
  tr.filterMap fun e => if e.act.cmd = .lock then some e.tid else none

theorem locks_snoc (tr : List (Event ι SimSig)) (e : Event ι SimSig) :
    locks (tr ++ [e]) = locks tr ++ if e.act.cmd = .lock then [e.tid] else [] := by
  unfold locks
  rw [List.filterMap_append]
  split
  · rename_i h; simp [h]
  · rename_i h; simp [h]

/-- What is known at a stage of call number `k`, when `len` calls have taken the mutex. -/
def Stage.At (nextId : Int) (len k : Nat) : Stage → Prop
  | .fresh | .dated _ => False
  | .locked _ => k + 1 = len ∧ nextId = counter k
  | .latched _ n => k + 1 = len ∧ nextId = counter k ∧ n = counter k
  | .read _ n m => k + 1 = len ∧ nextId = counter k ∧ n = counter k ∧ m = counter k
  | .stored _ n m => k + 1 = len ∧ nextId = m + 1 ∧ n = counter k ∧ m = counter k
  | .wrapped _ n => k + 1 = len ∧ nextId = counter (k + 1) ∧ n = counter k
  | .created _ n => n = counter k

/-- The mutex, the counter and the numbers of the calls are as their stages say. -/
structure Numbered (tr : List (Event ι SimSig)) (s : SimState ι) (φ : ι → Stage) : Prop where
  owner : ∀ i, (φ i).holds = true ↔ s.owner = some i
  free : s.owner = none → s.nextId = counter (locks tr).length
  last : ∀ i, s.owner = some i → ∃ before, locks tr = before ++ [i]
  date : ∀ i date, ⟨i, ⟨.localtime, date⟩⟩ ∈ tr → (φ i).date? = some date
  number : ∀ i k, (locks tr)[k]? = some i → (φ i).At s.nextId (locks tr).length k

variable {tr : List (Event ι SimSig)} {s s' : SimState ι} {φ : ι → Stage} {i j : ι} {a : Act SimSig} {p : Stage}

/-- Without the mutex, only the own number is known. -/
theorem Stage.At.elsewhere {nextId nextId' : Int} {len len' k : Nat} (hp : p.holds = false) (h : p.At nextId len k) :
    p.At nextId' len' k := by
  cases p with
  | fresh | dated | created => exact h
  | _ => cases hp

theorem Numbered.alone (h : Numbered tr s φ) (hi : (φ i).holds = true) (hj : j ≠ i) : (φ j).holds = false := by
  have howner := (h.owner i).1 hi
  rw [Bool.eq_false_iff]
  intro hholds
  exact hj (Option.some.inj (((h.owner j).1 hholds).symm.trans howner))

theorem Numbered.nobody (h : Numbered tr s φ) (hfree : s.owner = none) (j : ι) : (φ j).holds = false := by
  rw [Bool.eq_false_iff]
  intro hholds
  have := (h.owner j).1 hholds
  rw [hfree] at this
  cases this

variable [DecidableEq ι]

/-- The date of a call stays what it is. -/
theorem Numbered.dates (h : Numbered tr s φ) (ha : a.cmd ≠ .localtime) (hp : p.date? = (φ i).date?) (j : ι) (date : Tm)
    (hmem : ⟨j, ⟨.localtime, date⟩⟩ ∈ tr ++ [⟨i, a⟩]) : (Function.update φ i p j).date? = some date := by
  have hold : (φ j).date? = some date := by
    rcases List.mem_append.1 hmem with hmem | hmem
    · exact h.date j date hmem
    · obtain ⟨-, rfl⟩ := Event.mk.inj (List.mem_singleton.1 hmem)
      exact absurd rfl ha
  by_cases hj : j = i
  · subst hj
    rw [Function.update_self, hp, hold]
  · rw [Function.update_of_ne hj, hold]

/-- A call asks for the date. -/
theorem Numbered.asks (h : Numbered tr s φ) (hφ : φ i = .fresh) (date : Tm) :
    Numbered (tr ++ [⟨i, ⟨.localtime, date⟩⟩]) s (Function.update φ i (.dated date)) := by
  have hlocks : locks (tr ++ [⟨i, ⟨.localtime, date⟩⟩]) = locks tr := by
    rw [locks_snoc]
    exact List.append_nil _
  refine ⟨fun j => ?_, ?_, ?_, fun j date' hmem => ?_, fun j k hk => ?_⟩
  · rw [← h.owner j]
    by_cases hj : j = i
    · subst hj
      rw [Function.update_self, hφ]
      rfl
    · rw [Function.update_of_ne hj]
  · rw [hlocks]
    exact h.free
  · rw [hlocks]
    exact h.last
  · rcases List.mem_append.1 hmem with hmem | hmem
    · have hdate := h.date j date' hmem
      by_cases hj : j = i
      · subst hj
        rw [hφ] at hdate
        cases hdate
      · rw [Function.update_of_ne hj, hdate]
    · cases List.mem_singleton.1 hmem
      rw [Function.update_self]
      rfl
  · rw [hlocks] at hk ⊢
    have hat := h.number j k hk
    by_cases hj : j = i
    · subst hj
      rw [hφ] at hat
      exact hat.elim
    · rw [Function.update_of_ne hj]
      exact hat

/-- A call takes the mutex, and with it the next number. -/
theorem Numbered.takes (h : Numbered tr s φ) {date : Tm} (hφ : φ i = .dated date) (hfree : s.owner = none) :
    Numbered (tr ++ [⟨i, ⟨.lock, ()⟩⟩]) { s with owner := some i } (Function.update φ i (.locked date)) := by
  have hlocks : locks (tr ++ [⟨i, ⟨.lock, ()⟩⟩]) = locks tr ++ [i] := locks_snoc _ _
  refine ⟨fun j => ?_, nofun, ?_, h.dates (by decide) (by rw [hφ]; rfl), fun j k hk => ?_⟩
  · by_cases hj : j = i
    · subst hj
      rw [Function.update_self]
      exact ⟨fun _ => rfl, fun _ => rfl⟩
    · rw [Function.update_of_ne hj, h.nobody hfree j]
      exact ⟨nofun, fun heq => absurd (Option.some.inj heq).symm hj⟩
  · intro j hj
    obtain rfl := Option.some.inj hj
    exact ⟨_, hlocks⟩
  · rw [hlocks] at hk ⊢
    rcases Nat.lt_trichotomy k (locks tr).length with hlt | rfl | hgt
    · -- an earlier call: it is not this one, which has not taken the mutex before
      rw [List.getElem?_append_left hlt] at hk
      have hat := h.number j k hk
      by_cases hj : j = i
      · subst hj
        rw [hφ] at hat
        exact hat.elim
      · rw [Function.update_of_ne hj]
        exact hat.elsewhere (h.nobody hfree j)
    · rw [List.getElem?_concat_length] at hk
      obtain rfl := Option.some.inj hk
      rw [Function.update_self, List.length_append]
      exact ⟨rfl, h.free hfree⟩
    · rw [List.getElem?_eq_none (by rw [List.length_append]; exact hgt)] at hk
      cases hk

/-- A call that holds the mutex goes on. -/
theorem Numbered.inside (h : Numbered tr s φ) {q : Stage} (hφ : φ i = q) (hq : q.holds = true) (hp : p.holds = true)
    (ha : a.cmd ≠ .lock) (ha' : a.cmd ≠ .localtime) (howner : s'.owner = s.owner) (hdate : p.date? = q.date?)
    (hat : ∀ k, q.At s.nextId (locks tr).length k → p.At s'.nextId (locks tr).length k) :
    Numbered (tr ++ [⟨i, a⟩]) s' (Function.update φ i p) := by
  subst hφ
  have hlocks : locks (tr ++ [⟨i, a⟩]) = locks tr := by
    rw [locks_snoc, if_neg ha, List.append_nil]
  refine ⟨fun j => ?_, ?_, ?_, h.dates ha' hdate, fun j k hk => ?_⟩
  · rw [howner, ← h.owner j]
    by_cases hj : j = i
    · subst hj
      rw [Function.update_self, hp, hq]
    · rw [Function.update_of_ne hj]
  · rw [howner, (h.owner i).1 hq]
    nofun
  · rw [howner, hlocks]
    exact h.last
  · rw [hlocks] at hk ⊢
    have hold := h.number j k hk
    by_cases hj : j = i
    · subst hj
      rw [Function.update_self]
      exact hat k hold
    · rw [Function.update_of_ne hj]
      exact hold.elsewhere (h.alone hq hj)

/-- A call gives the mutex back; the counter is that of the next call. -/
theorem Numbered.gives (h : Numbered tr s φ) {q : Stage} (hφ : φ i = q) {date : Tm} {n : Int} (hq : q.holds = true)
    (hdate : q.date? = some date)
    (hat : ∀ k, q.At s.nextId (locks tr).length k → s.nextId = counter (k + 1) ∧ n = counter k) :
    Numbered (tr ++ [⟨i, ⟨.unlock, ()⟩⟩]) { s with owner := none } (Function.update φ i (.created date n)) := by
  subst hφ
  have hlocks : locks (tr ++ [⟨i, ⟨.unlock, ()⟩⟩]) = locks tr := by
    rw [locks_snoc]
    exact List.append_nil _
  refine ⟨fun j => ?_, fun _ => ?_, nofun, h.dates (by decide) hdate.symm, fun j k hk => ?_⟩
  · by_cases hj : j = i
    · subst hj
      rw [Function.update_self]
      exact ⟨nofun, nofun⟩
    · rw [Function.update_of_ne hj, h.alone hq hj]
      exact ⟨nofun, nofun⟩
  · obtain ⟨before, hbefore⟩ := h.last i ((h.owner i).1 hq)
    have hlast : (locks tr)[before.length]? = some i := by
      rw [hbefore, List.getElem?_concat_length]
    rw [hlocks, (hat _ (h.number i _ hlast)).1, hbefore, List.length_append]
    rfl
  · rw [hlocks] at hk ⊢
    have hold := h.number j k hk
    by_cases hj : j = i
    · subst hj
      rw [Function.update_self]
      exact (hat k hold).2
    · rw [Function.update_of_ne hj]
      exact hold.elsewhere (h.alone hq hj)

/-- **Every permitted step keeps the numbers.** -/
theorem keeps_numbered : Keeps creating (simSem (ι := ι)) Numbered := by
  intro tr s φ i a s' h hmay hsem
  obtain ⟨cmd, r⟩ := a
  simp only [creating] at hmay ⊢
  cases hφ : φ i with
  | fresh =>
    rw [hφ] at hmay
    cases cmd with
    | localtime =>
      obtain rfl : s' = s := hsem
      exact h.asks hφ r
    | _ => exact hmay.elim
  | dated date =>
    rw [hφ] at hmay
    cases cmd with
    | lock =>
      obtain ⟨hfree, rfl⟩ : s.owner = none ∧ s' = _ := hsem
      exact h.takes hφ hfree
    | _ => exact hmay.elim
  | locked date =>
    rw [hφ] at hmay
    cases cmd with
    | getNextId =>
      obtain ⟨rfl, rfl⟩ : r = s.nextId ∧ s' = s := hsem
      exact h.inside hφ rfl rfl nofun nofun rfl rfl fun k hat => ⟨hat.1, hat.2, hat.2⟩
    | _ => exact hmay.elim
  | latched date n =>
    rw [hφ] at hmay
    cases cmd with
    | getNextId =>
      obtain ⟨rfl, rfl⟩ : r = s.nextId ∧ s' = s := hsem
      exact h.inside hφ rfl rfl nofun nofun rfl rfl fun k hat => ⟨hat.1, hat.2.1, hat.2.2, hat.2.1⟩
    | _ => exact hmay.elim
  | read date n m =>
    rw [hφ] at hmay
    cases cmd with
    | setNextId m' =>
      obtain rfl : m' = m + 1 := hmay
      obtain rfl : s' = _ := hsem
      exact h.inside hφ rfl rfl nofun nofun rfl rfl fun k hat => ⟨hat.1, rfl, hat.2.2⟩
    | _ => exact hmay.elim
  | stored date n m =>
    rw [hφ] at hmay
    cases cmd with
    | setNextId m' =>
      obtain ⟨hmax, rfl⟩ : m + 1 ≥ MAX_IMAGE_ID ∧ m' = 1 := hmay
      obtain rfl : s' = _ := hsem
      refine h.inside hφ rfl rfl nofun nofun rfl rfl fun k hat => ?_
      obtain ⟨hlen, -, hn, rfl⟩ := hat
      refine ⟨hlen, ?_, hn⟩
      rw [counter_wraps hmax]
      rfl
    | unlock =>
      obtain rfl : s' = _ := hsem
      refine h.gives hφ rfl rfl fun k hat => ?_
      obtain ⟨-, hnext, hn, rfl⟩ := hat
      refine ⟨?_, hn⟩
      rw [hnext, counter_succ hmay]
      rfl
    | _ => exact hmay.elim
  | wrapped date n =>
    rw [hφ] at hmay
    cases cmd with
    | unlock =>
      obtain rfl : s' = _ := hsem
      exact h.gives hφ rfl rfl fun k hat => hat.2
    | _ => exact hmay.elim
  | created date n =>
    rw [hφ] at hmay
    cases cmd <;> exact hmay.elim

omit [DecidableEq ι] in
theorem start_numbered : Numbered (ι := ι) [] ⟨none, 1⟩ fun _ => .fresh := by
  refine ⟨fun i => ⟨nofun, nofun⟩, fun _ => rfl, nofun, nofun, fun i k hk => ?_⟩
  cases hk

end Invariant

/-! ## Ids of a run -/

section Runs

variable {ι : Type} [DecidableEq ι]
  {tr : List (Event ι SimSig)} {b : Config ι (SimState ι) SimSig Abort (DhsStatus × ImageId)}

/-- A call that has returned an id: its local date, and its number in the order in which the calls took the mutex. -/
structure Call (tr : List (Event ι SimSig)) (b : Config ι (SimState ι) SimSig Abort (DhsStatus × ImageId)) (i : ι)
    (date : Tm) (k : Nat) (id : ImageId) : Prop where
  date : ⟨i, ⟨.localtime, date⟩⟩ ∈ tr
  number : (locks tr)[k]? = some i
  returned : b.prog i = .ret (.S_SUCCESS, id)

/-- **The id of a call** shows its date and its number, whatever the other calls do next to it. -/
theorem Call.id_eq {i : ι} {date : Tm} {k : Nat} {id : ImageId} (h : Run simSem (simStart ι) tr b)
    (hi : Call tr b i date k id) : id = (formatedId date (counter k)).str := by
  obtain ⟨φ, hφ, hret⟩ := h.disciplined keeps_numbered start_numbered fun _ => createImage_follows
  have hres := hret i
  rw [hi.returned, follows_ret] at hres
  obtain ⟨date', n, hcreated, hok⟩ := hres
  have hdate := hφ.date i date hi.date
  have hnumber := hφ.number i k hi.number
  rw [hcreated] at hdate hnumber
  obtain rfl := Option.some.inj hdate
  obtain rfl : n = counter k := hnumber
  exact (Prod.mk.inj (Except.ok.inj hok)).2

/-- **Ids repeat by a full wrap on one day**: two calls return one id exactly when they have one day and their numbers
differ by a multiple of 9999. Any 9999 consecutive calls return different ids. -/
theorem ids_repeat_iff {i j : ι} {date date' : Tm} {k k' : Nat} {id id' : ImageId}
    (h : Run simSem (simStart ι) tr b) (hi : Call tr b i date k id) (hj : Call tr b j date' k' id')
    (hy : date.FourDigits) (hy' : date'.FourDigits) :
    (id = id' ↔ date.SameDay date' ∧ k % 9999 = k' % 9999) ∧
    ∀ first, first ≤ k → k < first + 9999 → first ≤ k' → k' < first + 9999 → k ≠ k' → id ≠ id' := by
  have hiff : id = id' ↔ date.SameDay date' ∧ k % 9999 = k' % 9999 := by
    rw [hi.id_eq h, hj.id_eq h, formatedId_inj hy hy' (counter_lt k) (counter_lt k'), counter_eq_iff]
  refine ⟨hiff, fun first hk hk' hj hj' hne heq => ?_⟩
  have hmod := (hiff.1 heq).2
  omega

/-- What a call does that is alone and reads `n`, before the counter wraps. -/
def createActs (date : Tm) (n : Int) : List (Act SimSig) :=
  [⟨.localtime, date⟩, ⟨.lock, ()⟩, ⟨.getNextId, n⟩, ⟨.getNextId, n⟩, ⟨.setNextId (n + 1), ()⟩, ⟨.unlock, ()⟩]

theorem createActs_path (date : Tm) {n : Int} (h : ¬n + 1 ≥ MAX_IMAGE_ID) :
    Path createImage (createActs date n) (.ret (.S_SUCCESS, (formatedId date n).str)) := by
  simp only [createImage, createActs, localtime, lock, getNextId, setNextId, unlock, Prog.call_bind, Prog.ret_bind]
  refine .cons _ (.cons _ (.cons _ (.cons _ (.cons _ ?_))))
  rw [if_neg h]
  exact .cons _ (.nil _)

omit [DecidableEq ι] in
theorem createActs_exec (i : ι) (date : Tm) (n : Int) :
    Exec simSem ⟨none, n⟩ ((createActs date n).map (Event.mk i)) ⟨none, n + 1⟩ :=
  ⟨_, rfl, _, ⟨rfl, rfl⟩, _, ⟨rfl, rfl⟩, _, ⟨rfl, rfl⟩, _, rfl, _, rfl, rfl⟩

def someDay : Tm := ⟨115, 1, 18, by decide, by decide⟩

theorem ids_repeat_iff_two : ∃ tr b, Run simSem (simStart Bool) tr b ∧
    Call tr b false someDay 0 "S20150118S0001" ∧ Call tr b true someDay 1 "S20150118S0002" ∧
    ("S20150118S0001" = "S20150118S0002" ↔ someDay.SameDay someDay ∧ 0 % 9999 = 1 % 9999) := by
  have hfirst := run_solo (P := (simStart Bool).prog) (createActs_exec false someDay 1)
    (createActs_path someDay (by decide))
  have hsecond := run_solo (createActs_exec true someDay 2)
    (show Path (Function.update (simStart Bool).prog false (.ret (.S_SUCCESS, "S20150118S0001")) true) _ _ from
      createActs_path someDay (by decide))
  obtain ⟨tr, b, hrun, hi, hj⟩ : ∃ tr b, Run simSem (simStart Bool) tr b ∧
      Call tr b false someDay 0 "S20150118S0001" ∧ Call tr b true someDay 1 "S20150118S0002" :=
    ⟨_, _, hfirst.trans hsecond, ⟨List.mem_cons_self, rfl, rfl⟩, ⟨by simp [createActs], rfl, rfl⟩⟩
  have hday : someDay.FourDigits := ⟨by decide, by decide⟩
  exact ⟨tr, b, hrun, hi, hj, (ids_repeat_iff hrun hi hj hday hday).1⟩

end Runs

end DhsAdapterSim

end DhsTranslator
