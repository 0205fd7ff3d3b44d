import Mathlib.Data.List.Chain
import Mathlib.Tactic.Common

/-!
# Histories of insertions and removals

A history lists the insertions and removals of keys in their order, each with what
stands behind it. A key is present when its last change is an insertion. In a right
history the changes of a key alternate and begin with an insertion. The moments of an
interval are the prefixes of the history with a length in it.
-/
namespace BlkdevSnapshot.KeyHistory

/-- A change of a keyed collection, with what stands behind it. -/
inductive Change (κ ω : Type*) where
  | inserted (key : κ) (who : ω)
  | removed (key : κ) (who : ω)
  deriving DecidableEq

section History
variable {κ ω : Type*} [DecidableEq κ]

/-- The changes of one key, `true` for an insertion. -/
def changes (h : List (Change κ ω)) (k : κ) : List Bool :=
  h.filterMap fun
    | .inserted key _ => if key = k then some true else none
    | .removed key _ => if key = k then some false else none

/-- The key is in the collection after the history. -/
def Present (h : List (Change κ ω)) (k : κ) : Prop := (changes h k).getLast? = some true

/-- Insertions and removals of the key alternate, and an insertion is the first. -/
def Alternates (h : List (Change κ ω)) (k : κ) : Prop :=
  (changes h k).IsChain (· ≠ ·) ∧ ∀ b ∈ (changes h k).head?, b = true

variable {h : List (Change κ ω)} {k key : κ} {who : ω}

instance : Decidable (Present h k) := inferInstanceAs (Decidable (_ = _))

theorem changes_append (h h' : List (Change κ ω)) (k : κ) :
    changes (h ++ h') k = changes h k ++ changes h' k :=
  List.filterMap_append

theorem changes_concat_inserted :
    changes (h ++ [.inserted key who]) k = changes h k ++ if key = k then [true] else [] := by
  rw [changes_append]
  by_cases hk : key = k <;> simp [changes, hk]

theorem changes_concat_removed :
    changes (h ++ [.removed key who]) k = changes h k ++ if key = k then [false] else [] := by
  rw [changes_append]
  by_cases hk : key = k <;> simp [changes, hk]

theorem not_present_nil : ¬ Present ([] : List (Change κ ω)) k := by
  simp [Present, changes]

theorem present_concat_inserted :
    Present (h ++ [.inserted key who]) k ↔ key = k ∨ Present h k := by
  by_cases hk : key = k <;> simp [Present, changes_concat_inserted, hk]

theorem present_concat_removed :
    Present (h ++ [.removed key who]) k ↔ key ≠ k ∧ Present h k := by
  by_cases hk : key = k <;> simp [Present, changes_concat_removed, hk]

theorem alternates_nil : Alternates ([] : List (Change κ ω)) k := by
  simp [Alternates, changes]

/-- One more change of the key keeps the order when it differs from the last one. -/
theorem isChain_concat {bs : List Bool} {b : Bool} (hbs : bs.IsChain (· ≠ ·))
    (hlast : bs.getLast? ≠ some b) : (bs ++ [b]).IsChain (· ≠ ·) := by
  refine List.isChain_append.mpr ⟨hbs, List.isChain_singleton b, ?_⟩
  rintro x hx y hy rfl
  obtain rfl : b = x := by simpa using hy
  exact hlast hx

theorem Alternates.concat_inserted (halt : Alternates h k) (hkey : ¬ Present h key) :
    Alternates (h ++ [.inserted key who]) k := by
  rw [Alternates, changes_concat_inserted]
  by_cases hk : key = k
  · subst hk
    rw [if_pos rfl]
    refine ⟨isChain_concat halt.1 hkey, ?_⟩
    cases hc : changes h key with
    | nil => simp
    | cons b bs => simpa [hc] using halt.2
  · rwa [if_neg hk, List.append_nil]

theorem Alternates.concat_removed (halt : Alternates h k) (hkey : Present h key) :
    Alternates (h ++ [.removed key who]) k := by
  rw [Alternates, changes_concat_removed]
  by_cases hk : key = k
  · subst hk
    rw [if_pos rfl]
    refine ⟨isChain_concat halt.1 ?_, ?_⟩
    · rw [Present] at hkey
      simp [hkey]
    · cases hc : changes h key with
      | nil => simp [Present, hc] at hkey
      | cons b bs => simpa [hc] using halt.2
  · rwa [if_neg hk, List.append_nil]

end History

section Moments
variable {κ ω : Type*}

/-- At some moment from `start` to `finish` the history so far satisfies `P`. -/
def Sometime (h : List (Change κ ω)) (start finish : ℕ) (P : List (Change κ ω) → Prop) : Prop :=
  ∃ n, start ≤ n ∧ n ≤ finish ∧ P (h.take n)

variable {h : List (Change κ ω)} {start finish : ℕ}
  {P : List (Change κ ω) → Prop}

/-- The present moment is one of the interval that ends with it. -/
theorem sometime_now (hstart : start ≤ h.length) (hnow : P h) :
    Sometime h start h.length P :=
  ⟨h.length, hstart, le_rfl, by rwa [List.take_length]⟩

theorem Sometime.mono (hs : Sometime h start finish P) {finish' : ℕ} (hle : finish ≤ finish') :
    Sometime h start finish' P := by
  obtain ⟨n, h1, h2, hP⟩ := hs
  exact ⟨n, h1, h2.trans hle, hP⟩

/-- What is past does not change when the history goes on. -/
theorem Sometime.append (hs : Sometime h start finish P) (hle : finish ≤ h.length)
    (h' : List (Change κ ω)) : Sometime (h ++ h') start finish P := by
  obtain ⟨n, h1, h2, hP⟩ := hs
  exact ⟨n, h1, h2, by rwa [List.take_append_of_le_length (h2.trans hle)]⟩

end Moments
end BlkdevSnapshot.KeyHistory
