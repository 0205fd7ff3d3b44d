import BlkdevSnapshot.ByteFile
import Mathlib.Data.List.TakeWhile
import Mathlib.Data.Nat.Digits.Defs

/-!
# Text and numbers

The bytes of a text, `strtoull` in base ten and the text that `%ld` makes of 64 bits. The
text of a number from `2^63` on is that of a negative one, and `strtoull` takes the minus
sign modulo `2^64`.
-/
namespace BlkdevSnapshot

/-- The bytes of an ASCII text. -/
def asciiBytes (s : String) : Bytes := s.toList.map Char.toUInt8

def isdigit (b : UInt8) : Bool := 48 ≤ b && b ≤ 57

/-- `isspace` of the C library. -/
def cIsspace (b : UInt8) : Bool := (9 ≤ b && b ≤ 13) || b == 32

/-- The value of decimal digits. -/
def digitsValue (ds : Bytes) : ℕ := ds.foldl (fun v d => 10 * v + (d.toNat - 48)) 0

/-- `strtoull(arg, NULL, 10)`, with the value that it leaves in `errno`. Without digits the
result is zero. -/
def strtoull (arg : Bytes) : UInt64 × Option ℕ :=
  let text := arg.dropWhile cIsspace
  let signed := text.head? = some 45 ∨ text.head? = some 43
  let v := digitsValue ((if signed then text.tail else text).takeWhile isdigit)
  if 2 ^ 64 ≤ v then (UInt64.ofNat (2 ^ 64 - 1), some 34)
  else (if text.head? = some 45 then -UInt64.ofNat v else UInt64.ofNat v, none)

/-- The decimal digits of a number. -/
def decimal (n : ℕ) : Bytes :=
  if n = 0 then [48] else (Nat.digits 10 n).reverse.map fun d => UInt8.ofNat (48 + d)

/-- `"%ld"` -/
def ldText (x : UInt64) : Bytes :=
  if x.toBitVec.toInt < 0 then 45 :: decimal x.toBitVec.toInt.natAbs
  else decimal x.toBitVec.toInt.natAbs

theorem toNat_digit {d : ℕ} (h : d < 10) : (UInt8.ofNat (48 + d)).toNat = 48 + d := by
  rw [UInt8.toNat_ofNat', Nat.mod_eq_of_lt (by omega)]

theorem decimal_digits {n : ℕ} {b : UInt8} (h : b ∈ decimal n) : isdigit b = true := by
  unfold decimal at h
  split at h
  · rw [List.mem_singleton.mp h]
    rfl
  · obtain ⟨d, hd, rfl⟩ := List.mem_map.mp h
    have hlt := Nat.digits_lt_base (by decide : 1 < 10) (List.mem_reverse.mp hd)
    have hval := toNat_digit hlt
    simp only [isdigit, Bool.and_eq_true, decide_eq_true_eq, UInt8.le_iff_toNat_le, hval]
    have h48 : (48 : UInt8).toNat = 48 := rfl
    have h57 : (57 : UInt8).toNat = 57 := rfl
    omega

theorem decimal_ne_nil (n : ℕ) : decimal n ≠ [] := by
  unfold decimal
  split
  · simp
  · rename_i hn
    simpa [Nat.digits_eq_nil_iff_eq_zero] using hn

/-- The digits of a number have its value. -/
theorem digitsValue_decimal (n : ℕ) : digitsValue (decimal n) = n := by
  have hfold (ds : List ℕ) (hds : ∀ d ∈ ds, d < 10) :
      ds.foldr (fun d v => 10 * v + ((UInt8.ofNat (48 + d)).toNat - 48)) 0 =
        Nat.ofDigits 10 ds := by
    induction ds with
    | nil => rfl
    | cons d ds ih =>
      obtain ⟨hd, hrest⟩ := List.forall_mem_cons.mp hds
      rw [List.foldr_cons, ih hrest, toNat_digit hd, Nat.ofDigits_cons]
      omega
  unfold decimal
  split
  · rename_i hn
    rw [hn]
    rfl
  · rw [digitsValue, List.foldl_map, List.foldl_reverse,
      hfold _ fun d hd => Nat.digits_lt_base (by decide) hd, Nat.ofDigits_digits]

theorem takeWhile_decimal (n : ℕ) : (decimal n).takeWhile isdigit = decimal n :=
  List.takeWhile_eq_self_iff.mpr fun _ h => decimal_digits h

/-- The first digit of a number is neither white space nor a sign. -/
theorem head_decimal (n : ℕ) : (decimal n).dropWhile cIsspace = decimal n ∧
    (decimal n).head? ≠ some 45 ∧ (decimal n).head? ≠ some 43 := by
  obtain ⟨d, ds, hcons⟩ := List.exists_cons_of_ne_nil (decimal_ne_nil n)
  have hd : isdigit d = true := decimal_digits (n := n) (by rw [hcons]; exact List.mem_cons_self)
  simp only [isdigit, Bool.and_eq_true, decide_eq_true_eq, UInt8.le_iff_toNat_le] at hd
  have h48 : (48 : UInt8).toNat = 48 := rfl
  have hspace : cIsspace d = false := by
    have h13 : (13 : UInt8).toNat = 13 := rfl
    have h32 : d ≠ 32 := by
      rintro rfl
      exact absurd hd.1 (by decide)
    have hlarge : 13 < d.toNat := by omega
    simpa [cIsspace, UInt8.le_iff_toNat_le, h32] using fun _ => hlarge
  rw [hcons]
  refine ⟨by rw [List.dropWhile_cons_of_neg (by simp [hspace])], ?_, ?_⟩
  · rintro h
    obtain rfl : d = 45 := by simpa using h
    exact absurd hd.1 (by decide)
  · rintro h
    obtain rfl : d = 43 := by simpa using h
    exact absurd hd.1 (by decide)

/-- What `%ld` shows of 64 bits is read back as these bits. -/
theorem strtoull_ldText (x : UInt64) : strtoull (ldText x) = (x, none) := by
  have hlt := x.toNat_lt
  have hint := BitVec.toInt_eq_toNat_cond x.toBitVec
  simp only [UInt64.toNat_toBitVec] at hint
  unfold ldText
  by_cases hneg : x.toBitVec.toInt < 0
  · have habs : x.toBitVec.toInt.natAbs = 2 ^ 64 - x.toNat := by
      split at hint
      · omega
      · omega
    have hsmall : ¬ 2 ^ 64 ≤ 2 ^ 64 - x.toNat := by
      split at hint
      · omega
      · omega
    have hspace : cIsspace 45 = false := rfl
    have hback : -UInt64.ofNat (2 ^ 64 - x.toNat) = x := by
      have hval : (UInt64.ofNat (2 ^ 64 - x.toNat)).toNat = 2 ^ 64 - x.toNat := by
        rw [UInt64.toNat_ofNat']
        omega
      apply UInt64.toNat.inj
      rw [UInt64.toNat_neg, hval]
      show (2 ^ 64 - (2 ^ 64 - x.toNat)) % 2 ^ 64 = x.toNat
      omega
    rw [if_pos hneg, strtoull, List.dropWhile_cons_of_neg (by simp [hspace])]
    simp only [List.head?_cons, List.tail_cons, true_or, if_true, takeWhile_decimal,
      digitsValue_decimal, habs, if_neg hsmall, hback]
  · have habs : x.toBitVec.toInt.natAbs = x.toNat := by
      split at hint
      · omega
      · omega
    obtain ⟨hdrop, hminus, hplus⟩ := head_decimal x.toNat
    rw [if_neg hneg, strtoull, habs]
    simp only [hdrop, hminus, hplus, or_self, if_false, takeWhile_decimal, digitsValue_decimal,
      if_neg (not_le.mpr hlt), UInt64.ofNat_toNat]

example : ldText (UInt64.ofNat (2 ^ 64 - 5)) = [45, 53] := by decide

end BlkdevSnapshot
