import Mathlib.Data.List.Induction
import Mathlib.Tactic.Common

/-!
# A count with a floor

A count that goes up and down along a list of steps and stays at zero when it
would go below. It exceeds a bound exactly when, along some suffix of the list,
the steps up outnumber the steps down by more than that bound.
-/
namespace BlkdevSnapshot

/-- The count after a list of steps, `true` for up and `false` for down. -/
def floorCount (steps : List Bool) : ℕ := steps.foldl (fun n up => if up then n + 1 else n - 1) 0

@[simp] theorem floorCount_nil : floorCount [] = 0 := rfl

@[simp] theorem floorCount_up (steps : List Bool) :
    floorCount (steps ++ [true]) = floorCount steps + 1 := by
  simp [floorCount]

@[simp] theorem floorCount_down (steps : List Bool) :
    floorCount (steps ++ [false]) = floorCount steps - 1 := by
  simp [floorCount]

theorem exists_suffix_concat {α : Type*} (l : List α) (a : α) (P : List α → Prop) :
    (∃ recent, recent <:+ l ++ [a] ∧ P recent) ↔
      P [] ∨ ∃ recent, recent <:+ l ∧ P (recent ++ [a]) := by
  constructor
  · rintro ⟨recent, hsuffix, h⟩
    rcases List.suffix_concat_iff.mp hsuffix with rfl | ⟨older, rfl, holder⟩
    · exact .inl h
    · exact .inr ⟨older, holder, h⟩
  · rintro (h | ⟨older, holder, h⟩)
    · exact ⟨[], List.nil_suffix, h⟩
    · exact ⟨older ++ [a], List.suffix_concat_iff.mpr (.inr ⟨older, rfl, holder⟩), h⟩

theorem lt_floorCount_iff (steps : List Bool) (k : ℕ) : k < floorCount steps ↔
    ∃ recent, recent <:+ steps ∧ recent.count false + k < recent.count true := by
  induction steps using List.reverseRecOn generalizing k with
  | nil => simp
  | append_singleton steps up ih =>
    rw [exists_suffix_concat]
    simp only [List.count_append, List.count_singleton, List.count_nil]
    cases up with
    | true =>
      rw [floorCount_up]
      cases k with
      | zero => exact iff_of_true (Nat.succ_pos _) (.inr ⟨[], List.nil_suffix, by simp⟩)
      | succ k =>
        rw [Nat.add_lt_add_iff_right, ih k]
        constructor
        · rintro ⟨recent, hsuffix, hcount⟩
          exact .inr ⟨recent, hsuffix, by simp; omega⟩
        · rintro (h | ⟨recent, hsuffix, hcount⟩)
          · omega
          · exact ⟨recent, hsuffix, by simp at hcount; omega⟩
    | false =>
      rw [floorCount_down, Nat.lt_sub_iff_add_lt, ih (k + 1)]
      constructor
      · rintro ⟨recent, hsuffix, hcount⟩
        exact .inr ⟨recent, hsuffix, by simp; omega⟩
      · rintro (h | ⟨recent, hsuffix, hcount⟩)
        · omega
        · exact ⟨recent, hsuffix, by simp at hcount; omega⟩

end BlkdevSnapshot
