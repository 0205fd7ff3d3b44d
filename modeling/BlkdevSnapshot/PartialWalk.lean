import Mathlib.Order.Preorder.Finite
import Mathlib.Tactic.Common

/-!
# Walks of a partial step

A partial step either says where to go on or stops. A walk that meets only
finitely many states with a successor stops exactly when it never comes back to
a state that it has left.
-/
namespace BlkdevSnapshot.PartialWalk
variable {α : Type*}

/-- The state after `n` steps, if the walk gets that far. -/
def walk (f : α → Option α) : ℕ → α → Option α
  | 0, a => some a
  | n + 1, a => (f a).bind (walk f n)

/-- The walk from `a` has no successor at some point. -/
def Stops (f : α → Option α) (a : α) : Prop := ∃ n, walk f n a = none

/-- The walk from `a` comes to a state with `P`. -/
def Comes (f : α → Option α) (P : α → Prop) (a : α) : Prop := ∃ n b, walk f n a = some b ∧ P b

/-- No state of the walk from `a` is met a second time. -/
def NoReturn (f : α → Option α) (a : α) : Prop :=
  ∀ m n b, walk f m a = some b → 0 < n → walk f n b ≠ some b

variable {f : α → Option α} {a b : α}

theorem walk_add (m n : ℕ) : walk f (m + n) a = (walk f m a).bind (walk f n) := by
  induction m generalizing a with
  | zero => simp [walk]
  | succ m ih =>
    rw [Nat.succ_add, walk, walk]
    cases f a with
    | none => rfl
    | some c => exact ih

theorem walk_of_le {m n : ℕ} (h : walk f m a = none) (hmn : m ≤ n) : walk f n a = none := by
  obtain ⟨k, rfl⟩ := Nat.exists_eq_add_of_le hmn
  rw [walk_add, h, Option.bind_none]

/-- A walk comes to a state right away or behind its first step. -/
theorem comes_iff {P : α → Prop} : Comes f P a ↔ P a ∨ ∃ c, f a = some c ∧ Comes f P c := by
  constructor
  · rintro ⟨n, b, hwalk, hb⟩
    cases n with
    | zero =>
      obtain rfl : a = b := Option.some.inj hwalk
      exact .inl hb
    | succ n =>
      obtain ⟨c, hc, hwalk⟩ := Option.bind_eq_some_iff.mp hwalk
      exact .inr ⟨c, hc, n, b, hwalk, hb⟩
  · rintro (ha | ⟨c, hc, n, b, hwalk, hb⟩)
    · exact ⟨0, a, rfl, ha⟩
    · exact ⟨n + 1, b, by rwa [walk, hc, Option.bind_some], hb⟩

/-- A walk that stays in an invariant set is in it after every number of steps. -/
theorem walk_invariant {P : α → Prop} (hstep : ∀ x y, P x → f x = some y → P y) (ha : P a) {n : ℕ}
    (h : walk f n a = some b) : P b := by
  induction n generalizing a with
  | zero =>
    obtain rfl : a = b := Option.some.inj h
    exact ha
  | succ n ih =>
    obtain ⟨c, hc, h⟩ := Option.bind_eq_some_iff.mp h
    exact ih (hstep a c ha hc) h

/-- A walk gets nowhere from a state without a successor. -/
theorem eq_of_walk_of_none {n : ℕ} (ha : f a = none) (h : walk f n a = some b) : b = a := by
  cases n with
  | zero => exact (Option.some.inj h).symm
  | succ n =>
    rw [walk, ha, Option.bind_none] at h
    cases h

/-- A cycle can be gone round any number of times. -/
theorem walk_cycle {n : ℕ} (h : walk f n b = some b) (k : ℕ) : walk f (k * n) b = some b := by
  induction k with
  | zero => rw [Nat.zero_mul, walk]
  | succ k ih => rw [Nat.succ_mul, walk_add, ih, Option.bind_some, h]

theorem Stops.noReturn (h : Stops f a) : NoReturn f a := by
  obtain ⟨N, hN⟩ := h
  intro m n b hm hn hb
  have hround : walk f (m + N * n) a = some b := by
    rw [walk_add, hm, Option.bind_some, walk_cycle hb]
  have hlong : N ≤ m + N * n := (Nat.le_mul_of_pos_right N hn).trans (Nat.le_add_left _ _)
  rw [walk_of_le hN hlong] at hround
  cases hround

/-- Among finitely many states an endless walk comes back to one. -/
theorem NoReturn.stops {S : Set α} (hS : S.Finite)
    (hlive : ∀ n b, walk f n a = some b → f b ≠ none →
    b ∈ S) (h : NoReturn f a) : Stops f a := by
  by_contra hstops
  have hsome (n : ℕ) : ∃ b, walk f n a = some b :=
    Option.ne_none_iff_exists'.mp fun hn => hstops ⟨n, hn⟩
  choose g hg using hsome
  have hmem (n : ℕ) : g n ∈ S := by
    refine hlive n (g n) (hg n) fun hnone => ?_
    have hnext := hg (n + 1)
    rw [walk_add, hg n, Option.bind_some, walk, hnone] at hnext
    cases hnext
  obtain ⟨i, j, hij, heq⟩ := Set.Finite.exists_lt_map_eq_of_forall_mem hmem hS
  refine h i (j - i) (g i) (hg i) (Nat.sub_pos_of_lt hij) ?_
  have hback := hg j
  rw [← Nat.add_sub_cancel' hij.le, walk_add, hg i, Option.bind_some] at hback
  rw [hback, Nat.add_sub_cancel' hij.le, heq]

/-- Among finitely many states a walk stops exactly when it never comes back. -/
theorem stops_iff_noReturn {S : Set α} (hS : S.Finite)
    (hlive : ∀ n b, walk f n a = some b → f b ≠ none → b ∈ S) : Stops f a ↔ NoReturn f a :=
  ⟨Stops.noReturn, NoReturn.stops hS hlive⟩

end BlkdevSnapshot.PartialWalk
