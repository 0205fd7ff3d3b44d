import Mathlib.Data.Nat.Digits.Lemmas
import Mathlib.Tactic

/-!
# Fixed-width little-endian integers

A natural number is written on a fixed number of bytes, least significant byte
first, as an x86-64 store does. Reading back is the base-256 value of the bytes.
-/
namespace BlkdevSnapshot.LittleEndian

/-- The low `w` bytes of `n`, least significant first. -/
def leBytes : ℕ → ℕ → List UInt8
  | 0, _ => []
  | w + 1, n => UInt8.ofNat n :: leBytes w (n / 256)

/-- The number whose base-256 digits are the given bytes. -/
def leValue (bs : List UInt8) : ℕ := Nat.ofDigits 256 (bs.map UInt8.toNat)

@[simp] theorem leBytes_length (w n : ℕ) : (leBytes w n).length = w := by
  induction w generalizing n with
  | zero => rfl
  | succ w ih => simp [leBytes, ih]

theorem leValue_cons (b : UInt8) (bs : List UInt8) :
    leValue (b :: bs) = b.toNat + 256 * leValue bs := by
  simp [leValue, Nat.ofDigits_cons]

theorem leValue_leBytes (w n : ℕ) : leValue (leBytes w n) = n % 256 ^ w := by
  induction w generalizing n with
  | zero => simp [leBytes, leValue, Nat.mod_one]
  | succ w ih =>
    have hlow : (UInt8.ofNat n).toNat = n % 256 := by simp
    rw [leBytes, leValue_cons, ih, hlow, pow_succ', Nat.mod_mul]

/-- A 64-bit word survives its eight-byte encoding. -/
@[simp] theorem ofNat_leValue_leBytes (x : UInt64) :
    UInt64.ofNat (leValue (leBytes 8 x.toNat)) = x := by
  have hx : x.toNat % 256 ^ 8 = x.toNat := Nat.mod_eq_of_lt (by simpa using x.toNat_lt)
  rw [leValue_leBytes, hx, UInt64.ofNat_toNat]

end BlkdevSnapshot.LittleEndian
