import DhsTranslator.Sim.ImageIds

/-!
# The layout of simulated image ids

An id is meant as `S`, the date in eight digits, `S`, and the number in four. The width set before the month is used up
by it, so the day is as long as it is; and `tm_mon` counts from 0.

- `formatedId_year`, `formatedId_month`, `formatedId_late`: what is read at the places of the fields;
- `dated_name_iff`: no id shows the month of the calendar; apart from that, those of the tenth and later are as meant.
-/

namespace DhsTranslator

open Conc Text

namespace DhsAdapterSim

/-- An id of 14 characters with these numbers in it. -/
structure DatedName (id : ImageId) (year month day n : Nat) : Prop where
  length : id.toList.length = 14
  first : id.toList[0]? = some 'S'
  second : id.toList[9]? = some 'S'
  year : digitsAt id.toList 1 4 = some year
  month : digitsAt id.toList 5 2 = some month
  day : digitsAt id.toList 7 2 = some day
  number : digitsAt id.toList 10 4 = some n

section Layout

variable {date : Tm} {year month day : Nat}

theorem toList_str (s : OStream) : s.str.toList = s.text := String.toList_ofList

/-- The day has at most two digits. -/
theorem Dated.day_lt (h : Dated date year month day) : day < 10 ^ 2 := by
  have hday := h.day
  have hle := date.mday_range.2
  omega

theorem formatedId_year (h : Dated date year month day) (hy : date.FourDigits) (n : Nat) :
    digitsAt (formatedId date n).str.toList 1 4 = some year := by
  rw [toList_str, formatedId_text h]
  rw [digitsAt_cons _ _ 0 4]
  exact digitsAt_padded (by decide) (h.year_lt hy)

/-- **The month** is the one that counts from 0. -/
theorem formatedId_month (h : Dated date year month day) (hy : date.FourDigits) (n : Nat) :
    digitsAt (formatedId date n).str.toList 5 2 = some month := by
  have hyear := length_padded (w := 4) (by decide) (h.year_lt hy)
  rw [toList_str, formatedId_text h]
  rw [digitsAt_cons _ _ 4 2, digitsAt_append hyear _ 0 2]
  exact digitsAt_padded (by decide) h.month_lt

/-- **The length** depends on the day. -/
theorem formatedId_length (h : Dated date year month day) (hy : date.FourDigits) {n : Nat} (hn : n < 10 ^ 4) :
    (formatedId date n).str.toList.length = 12 + (Nat.toDigits 10 day).length := by
  rw [toList_str, formatedId_text h]
  simp only [List.length_cons, List.length_append, length_padded (w := 4) (by decide) (h.year_lt hy),
    length_padded (w := 2) (by decide) h.month_lt, length_padded (w := 4) (by decide) hn]
  omega

theorem formatedId_length_iff (h : Dated date year month day) (hy : date.FourDigits) {n : Nat} (hn : n < 10 ^ 4) :
    (formatedId date n).str.toList.length = 14 ↔ 10 ≤ day := by
  have hpos := Nat.length_toDigits_pos (b := 10) (n := day)
  have hone := Nat.length_toDigits_le_iff (b := 10) (n := day) (k := 1) (by decide) (by decide)
  have htwo := (Nat.length_toDigits_le_iff (b := 10) (n := day) (k := 2) (by decide) (by decide)).2 h.day_lt
  rw [formatedId_length h hy hn]
  omega

/-- **From the tenth on**, every field is in its place. -/
theorem formatedId_late (h : Dated date year month day) (hy : date.FourDigits) {n : Nat} (hn : n < 10 ^ 4)
    (hday : 10 ≤ day) : DatedName (formatedId date n).str year month day n := by
  have hfield : Nat.toDigits 10 day = padded 2 day := (padded_eq_toDigits (w := 1) hday).symm
  have htext : (formatedId date n).str.toList =
      'S' :: (padded 4 year ++ (padded 2 month ++ (padded 2 day ++ 'S' :: padded 4 n))) := by
    rw [toList_str, formatedId_text h, hfield]
  have hyear := length_padded (w := 4) (by decide) (h.year_lt hy)
  have hmonth := length_padded (w := 2) (by decide) h.month_lt
  have hmday := length_padded (w := 2) (by decide) h.day_lt
  refine ⟨(formatedId_length_iff h hy hn).2 hday, ?_, ?_, formatedId_year h hy n, formatedId_month h hy n, ?_, ?_⟩
  · rw [htext]
    rfl
  · have hsplit : (formatedId date n).str.toList =
        ('S' :: (padded 4 year ++ (padded 2 month ++ padded 2 day))) ++ 'S' :: padded 4 n := by
      rw [htext]
      simp
    have hlen : ('S' :: (padded 4 year ++ (padded 2 month ++ padded 2 day))).length = 9 := by
      simp [hyear, hmonth, hmday]
    rw [hsplit, List.getElem?_append_right (by omega), hlen]
    rfl
  · rw [htext, digitsAt_cons _ _ 6 2, digitsAt_append hyear _ 2 2, digitsAt_append hmonth _ 0 2]
    exact digitsAt_padded (by decide) h.day_lt
  · have hnumber : digitsAt (padded 4 n ++ []) 0 4 = some n := digitsAt_padded (by decide) hn
    rw [htext, digitsAt_cons _ _ 9 4, digitsAt_append hyear _ 5 4, digitsAt_append hmonth _ 3 4,
      digitsAt_append hmday _ 1 4, digitsAt_cons _ _ 0 4]
    rwa [List.append_nil] at hnumber

end Layout

section Runs

variable {ι : Type} [DecidableEq ι]
  {tr : List (Event ι SimSig)} {b : Config ι (SimState ι) SimSig Abort (DhsStatus × ImageId)}

/-- **Dated names**: no id has the month of the calendar in it; with the month as it counts from 0, an id is as meant
iff the day of the month has two digits. -/
theorem dated_name_iff {i : ι} {date : Tm} {k : Nat} {id : ImageId} (h : Run simSem (simStart ι) tr b)
    (hi : Call tr b i date k id) (hy : date.FourDigits) :
    ¬DatedName id (date.tm_year + 1900).toNat (date.tm_mon + 1).toNat date.tm_mday.toNat (counter k) ∧
    (DatedName id (date.tm_year + 1900).toNat date.tm_mon.toNat date.tm_mday.toNat (counter k) ↔ 10 ≤ date.tm_mday) := by
  obtain ⟨year, month, day, hd⟩ : ∃ year month day, Dated date year month day :=
    exists_dated (by have := hy.1; omega)
  have hn : counter k < 10 ^ 4 := counter_lt k
  obtain rfl := hi.id_eq h
  have hyear : (date.tm_year + 1900).toNat = year := by rw [hd.year]; rfl
  have hmonth : date.tm_mon.toNat = month := by rw [hd.month]; rfl
  have hday : date.tm_mday.toNat = day := by rw [hd.day]; rfl
  rw [hyear, hmonth, hday]
  constructor
  · intro hname
    have hread := Option.some.inj (hname.month.symm.trans (formatedId_month hd hy _))
    have hmon := hd.month
    omega
  · have hmday := hd.day
    constructor
    · intro hname
      have hlate := (formatedId_length_iff hd hy hn).1 hname.length
      omega
    · intro hlate
      exact formatedId_late hd hy hn (by omega)

/-- A call in February. -/
theorem someDay_call : ∃ tr b, Run simSem (simStart Bool) tr b ∧ Call tr b false someDay 0 "S20150118S0001" :=
  ⟨_, _, run_solo (P := (simStart Bool).prog) (createActs_exec false someDay 1) (createActs_path someDay (by decide)),
    ⟨List.mem_cons_self, rfl, rfl⟩⟩

theorem someDay_fourDigits : someDay.FourDigits := ⟨by decide, by decide⟩

theorem someDay_dated : Dated someDay 2015 1 18 := ⟨rfl, rfl, rfl⟩

theorem dated_name_iff_someDay : ∃ tr b, Run simSem (simStart Bool) tr b ∧
    Call tr b false someDay 0 "S20150118S0001" ∧ ¬DatedName "S20150118S0001" 2015 2 18 1 ∧
    (DatedName "S20150118S0001" 2015 1 18 1 ↔ (10 : Int) ≤ 18) := by
  obtain ⟨tr, b, hrun, hcall⟩ := someDay_call
  exact ⟨tr, b, hrun, hcall, dated_name_iff hrun hcall someDay_fourDigits⟩

/-- **February is written as January.** -/
theorem february_as_january : ¬∀ tr b (i : Bool) (date : Tm) (k : Nat) (id : ImageId),
    Run simSem (simStart Bool) tr b → Call tr b i date k id → date.FourDigits →
    DatedName id (date.tm_year + 1900).toNat (date.tm_mon + 1).toNat date.tm_mday.toNat (counter k) := by
  intro hall
  obtain ⟨tr, b, hrun, hcall⟩ := someDay_call
  have hmonth := (hall tr b false someDay 0 _ hrun hcall someDay_fourDigits).month
  have hread : digitsAt "S20150118S0001".toList 5 2 = some 1 :=
    formatedId_month someDay_dated someDay_fourDigits 1
  cases hread.symm.trans hmonth

end Runs

end DhsAdapterSim

end DhsTranslator
