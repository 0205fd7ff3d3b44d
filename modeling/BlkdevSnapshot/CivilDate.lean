import Mathlib.Data.Nat.Digits.Lemmas
import Mathlib.Tactic

/-!
# Civil dates and zero-padded decimals

The Gregorian date of a day count, computed over years that begin in March, so
that a leap day is the last day of its year. Dates of different days differ, and
so do their fixed-width decimal renderings.
-/
namespace BlkdevSnapshot.CivilDate

/-- A day by its 400-year era, century, 4-year group, year and day of the year. -/
structure MarchDay where
  era : ℕ
  century : ℕ
  quad : ℕ
  year : ℕ
  day : ℕ
  deriving DecidableEq, Repr

namespace MarchDay

/-- The day `z` days after the first of March of the year 0. -/
def ofDays (z : ℕ) : MarchDay :=
  let century := min (z % 146097 / 36524) 3
  let inCentury := z % 146097 - 36524 * century
  let year := min (inCentury % 1461 / 365) 3
  ⟨z / 146097, century, inCentury / 1461, year, inCentury % 1461 - 365 * year⟩

def toDays (m : MarchDay) : ℕ :=
  146097 * m.era + 36524 * m.century + 1461 * m.quad + 365 * m.year + m.day

/-- Years since the year 0, counted from March. -/
def years (m : MarchDay) : ℕ := 400 * m.era + 100 * m.century + 4 * m.quad + m.year

/-- The bounds of the fields that make `years` and `day` determine the day. -/
structure Valid (m : MarchDay) : Prop where
  century_le : m.century ≤ 3
  quad_le : m.quad ≤ 24
  year_le : m.year ≤ 3
  day_le : m.day ≤ 365

theorem ofDays_valid (z : ℕ) : (ofDays z).Valid := by
  have hz := Nat.mod_lt z (show 0 < 146097 by decide)
  constructor <;> simp only [ofDays] <;> omega

theorem toDays_ofDays (z : ℕ) : (ofDays z).toDays = z := by
  have hz := Nat.div_add_mod z 146097
  simp only [toDays, ofDays]
  omega

theorem Valid.eq {a b : MarchDay} (ha : a.Valid) (hb : b.Valid) (hy : a.years = b.years)
    (hd : a.day = b.day) : a.toDays = b.toDays := by
  obtain ⟨hac, haq, hay, -⟩ := ha
  obtain ⟨hbc, hbq, hby, -⟩ := hb
  simp only [years, toDays] at hy ⊢
  omega

/-- The month counted from March. -/
def marchMonth (m : MarchDay) : ℕ := (5 * m.day + 2) / 153

theorem Valid.marchMonth_le {m : MarchDay} (h : m.Valid) : m.marchMonth ≤ 11 := by
  have hd := h.day_le
  simp only [marchMonth]
  omega

end MarchDay

/-- A calendar date with months and days counted from one. -/
structure Date where
  year : ℕ
  month : ℕ
  day : ℕ
  deriving DecidableEq, Repr

/-- January and February belong to the next calendar year. -/
def MarchDay.date (m : MarchDay) : Date where
  year := m.years + if m.marchMonth < 10 then 0 else 1
  month := if m.marchMonth < 10 then m.marchMonth + 3 else m.marchMonth - 9
  day := m.day - (153 * m.marchMonth + 2) / 5 + 1

/-- The date `days` days after the first of January 1970. -/
def ofUnixDays (days : ℕ) : Date := (MarchDay.ofDays (days + 719468)).date

theorem MarchDay.Valid.date_injective {a b : MarchDay} (ha : a.Valid) (hb : b.Valid)
    (h : a.date = b.date) : a.toDays = b.toDays := by
  have hma := ha.marchMonth_le
  have hmb := hb.marchMonth_le
  simp only [date, Date.mk.injEq] at h
  obtain ⟨hyear, hmonth, hday⟩ := h
  have hm : a.marchMonth = b.marchMonth := by
    split at hmonth <;> split at hmonth <;> omega
  have hd : a.day = b.day := by
    rw [hm] at hday
    simp only [marchMonth] at hday hm
    omega
  rw [hm] at hyear
  exact ha.eq hb (Nat.add_right_cancel hyear) hd

/-- Different days have different dates. -/
theorem ofUnixDays_injective : Function.Injective ofUnixDays := by
  intro a b h
  have heq := (MarchDay.ofDays_valid _).date_injective (MarchDay.ofDays_valid _) h
  rw [MarchDay.toDays_ofDays, MarchDay.toDays_ofDays] at heq
  omega

theorem ofUnixDays_month_le (days : ℕ) : (ofUnixDays days).month ≤ 12 := by
  have hm := (MarchDay.ofDays_valid (days + 719468)).marchMonth_le
  simp only [ofUnixDays, MarchDay.date]
  split <;> omega

theorem ofUnixDays_month_pos (days : ℕ) : 0 < (ofUnixDays days).month := by
  simp only [ofUnixDays, MarchDay.date]
  split <;> omega

theorem ofUnixDays_day_le (days : ℕ) : (ofUnixDays days).day ≤ 31 := by
  have hd := (MarchDay.ofDays_valid (days + 719468)).day_le
  simp only [ofUnixDays, MarchDay.date, MarchDay.marchMonth]
  omega

theorem ofUnixDays_year_le (days : ℕ) :
    (ofUnixDays days).year ≤ 400 * ((days + 719468) / 146097) + 400 := by
  obtain ⟨hc, hq, hy, -⟩ := MarchDay.ofDays_valid (days + 719468)
  have hera : (MarchDay.ofDays (days + 719468)).era = (days + 719468) / 146097 := rfl
  simp only [ofUnixDays, MarchDay.date, MarchDay.years, hera]
  split <;> omega

/-- `%0wd`: decimal digits, padded with zeros to at least `w` of them. -/
def padDec (w n : ℕ) : List Char :=
  let digits := ((Nat.digits 10 n).map Nat.digitChar).reverse
  List.replicate (w - digits.length) '0' ++ digits

/-- The number that a string of decimal digits denotes. -/
def decValue (s : List Char) : ℕ := s.foldl (fun acc c => 10 * acc + (c.toNat - 48)) 0

theorem padDec_length {w n : ℕ} (h : n < 10 ^ w) : (padDec w n).length = w := by
  have hle := (Nat.digits_length_le_iff (by decide : 1 < 10) n).mpr h
  simp only [padDec, List.length_append, List.length_replicate, List.length_reverse,
    List.length_map]
  omega

theorem digitChar_toNat {d : ℕ} (h : d < 10) : (Nat.digitChar d).toNat - 48 = d := by
  interval_cases d <;> rfl

theorem decValue_padDec (w n : ℕ) : decValue (padDec w n) = n := by
  have hzeros (k : ℕ) (s : List Char) : decValue (List.replicate k '0' ++ s) = decValue s := by
    induction k with
    | zero => rfl
    | succ k ih =>
      rw [List.replicate_succ, List.cons_append]
      exact ih
  have hdigits (l : List ℕ) (hl : ∀ d ∈ l, d < 10) :
      decValue ((l.map Nat.digitChar).reverse) = Nat.ofDigits 10 l := by
    rw [decValue, List.foldl_reverse]
    induction l with
    | nil => rfl
    | cons d l ih =>
      rw [List.map_cons, List.foldr_cons, ih fun e he => hl e (List.mem_cons_of_mem _ he),
        digitChar_toNat (hl d List.mem_cons_self), Nat.ofDigits_cons]
      ring
  rw [padDec, hzeros, hdigits _ fun d hd => Nat.digits_lt_base (by decide) hd,
    Nat.ofDigits_digits]

theorem padDec_injective (w : ℕ) : Function.Injective (padDec w) := by
  intro a b h
  rw [← decValue_padDec w a, h, decValue_padDec]

end BlkdevSnapshot.CivilDate
