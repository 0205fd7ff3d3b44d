import Mathlib.Algebra.Order.Group.Multiset
import Mathlib.Data.Multiset.AddSub
import Mathlib.Tactic.Common

/-!
# Ledgers of acquired and released resources

A trace of what a program does with resources, and the multiset of the resources that
it holds. A trace replays from a multiset unless it releases or uses what is not held
at that point, or works on something that does not exist. Replays compose along the
trace and extend to larger multisets.
-/
namespace BlkdevSnapshot.ResourceLedger

/-- A step on a resource; `misuse` works on a missing one. -/
inductive Event (ρ : Type*) where
  | acquire (r : ρ)
  | release (r : ρ)
  | use (r : ρ)
  | misuse
  deriving DecidableEq

section Replay
variable {ρ : Type*} [DecidableEq ρ]

/-- One step from a multiset of held resources. -/
def replayEvent (held : Multiset ρ) : Event ρ → Option (Multiset ρ)
  | .acquire r => some (r ::ₘ held)
  | .release r => if r ∈ held then some (held.erase r) else none
  | .use r => if r ∈ held then some held else none
  | .misuse => none

/-- The resources that are held after a trace. -/
def replay (held : Multiset ρ) : List (Event ρ) → Option (Multiset ρ)
  | [] => some held
  | e :: es => (replayEvent held e).bind fun held => replay held es

/-- The trace is right and leads from one multiset of held resources to another. -/
def Runs (held : Multiset ρ) (es : List (Event ρ)) (held' : Multiset ρ) : Prop :=
  replay held es = some held'

variable {held held' held'' : Multiset ρ} {es fs : List (Event ρ)} {r : ρ}

instance : Decidable (Runs held es held') := inferInstanceAs (Decidable (_ = _))

theorem replay_append (held : Multiset ρ) (es fs : List (Event ρ)) :
    replay held (es ++ fs) = (replay held es).bind fun held => replay held fs := by
  induction es generalizing held with
  | nil => rfl
  | cons e es ih =>
    simp only [List.cons_append, replay, Option.bind_assoc]
    exact Option.bind_congr fun held _ => ih held

theorem runs_nil : Runs held [] held := rfl

theorem Runs.append (h : Runs held es held') (h' : Runs held' fs held'') :
    Runs held (es ++ fs) held'' := by
  rw [Runs, replay_append, h, Option.bind_some, h']

theorem Runs.unique (h : Runs held es held') (h' : Runs held es held'') : held' = held'' :=
  Option.some.inj (h.symm.trans h')

theorem runs_acquire (held : Multiset ρ) (r : ρ) : Runs held [.acquire r] (r ::ₘ held) := rfl

theorem runs_release (held : Multiset ρ) (r : ρ) : Runs (r ::ₘ held) [.release r] held := by
  simp [Runs, replay, replayEvent]

theorem runs_use (h : r ∈ held) : Runs held [.use r] held := by
  simp [Runs, replay, replayEvent, h]

/-- A trace that went wrong stays wrong. -/
theorem not_runs_append (h : replay held es = none) : ¬ Runs held (es ++ fs) held' := by
  rw [Runs, replay_append, h]
  exact nofun

theorem replayEvent_frame {e : Event ρ} (h : replayEvent held e = some held')
    (frame : Multiset ρ) : replayEvent (held + frame) e = some (held' + frame) := by
  cases e with
  | acquire r =>
    cases h
    rw [replayEvent, Multiset.cons_add]
  | release r =>
    simp only [replayEvent] at h ⊢
    split at h
    · rename_i hr
      cases h
      rw [if_pos (Multiset.mem_add.mpr (.inl hr)), Multiset.erase_add_left_pos frame hr]
    · cases h
  | use r =>
    simp only [replayEvent] at h ⊢
    split at h
    · rename_i hr
      cases h
      rw [if_pos (Multiset.mem_add.mpr (.inl hr))]
    · cases h
  | misuse => cases h

/-- The frame rule: what a trace does not touch stays held. -/
theorem Runs.frame (h : Runs held es held') (frame : Multiset ρ) :
    Runs (held + frame) es (held' + frame) := by
  induction es generalizing held with
  | nil =>
    cases h
    exact runs_nil
  | cons e es ih =>
    simp only [Runs, replay, Option.bind_eq_some_iff] at h ⊢
    obtain ⟨mid, hmid, h⟩ := h
    exact ⟨mid + frame, replayEvent_frame hmid frame, ih h⟩

end Replay
end BlkdevSnapshot.ResourceLedger
