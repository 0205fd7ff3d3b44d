import Mathlib.Data.List.Basic
import Mathlib.Tactic

/-!
# First-write-wins logs and before-images

A log keeps, for every key, the first entry that was offered for it. When each
write offers the value it is about to replace, replaying such a log over the
final state gives back the initial state.
-/
namespace BlkdevSnapshot.FirstWrite

/-- The first entry of every key, in order of first occurrence. -/
def firstBy {α κ : Type*} [DecidableEq κ] (key : α → κ) : List α → List α
  | [] => []
  | x :: xs => x :: (firstBy key xs).filter fun y => key y ≠ key x

theorem mem_of_mem_firstBy {α κ : Type*} [DecidableEq κ] {key : α → κ} {xs : List α} {x : α}
    (h : x ∈ firstBy key xs) : x ∈ xs := by
  induction xs with
  | nil => simp [firstBy] at h
  | cons a xs ih =>
    simp only [firstBy, List.mem_cons, List.mem_filter] at h ⊢
    exact h.imp id fun hx => ih hx.1

theorem exists_mem_firstBy {α κ : Type*} [DecidableEq κ] (key : α → κ) (xs : List α) (k : κ) :
    (∃ x ∈ firstBy key xs, key x = k) ↔ ∃ x ∈ xs, key x = k := by
  constructor
  · rintro ⟨x, hx, hk⟩
    exact ⟨x, mem_of_mem_firstBy hx, hk⟩
  · induction xs with
    | nil => simp
    | cons a xs ih =>
      intro h
      by_cases ha : key a = k
      · exact ⟨a, by simp [firstBy], ha⟩
      · obtain ⟨x, hx, hk⟩ := h
        have hx' : x ∈ xs := (List.mem_cons.mp hx).resolve_left fun he => ha (he ▸ hk)
        obtain ⟨y, hy, hyk⟩ := ih ⟨x, hx', hk⟩
        refine ⟨y, ?_, hyk⟩
        simp only [firstBy, List.mem_cons, List.mem_filter, decide_eq_true_eq]
        exact .inr ⟨hy, by rw [hyk]; exact Ne.symm ha⟩

/-- A new offer is kept exactly when its key has not been offered before. -/
theorem firstBy_concat {α κ : Type*} [DecidableEq κ] (key : α → κ) (xs : List α) (y : α) :
    firstBy key (xs ++ [y]) =
      if ∃ x ∈ xs, key x = key y then firstBy key xs else firstBy key xs ++ [y] := by
  induction xs with
  | nil => simp [firstBy]
  | cons a xs ih =>
    rw [List.cons_append, firstBy, ih, firstBy]
    by_cases hxs : ∃ x ∈ xs, key x = key y
    · have hcons : ∃ x ∈ a :: xs, key x = key y := by
        obtain ⟨x, hx, hk⟩ := hxs
        exact ⟨x, List.mem_cons_of_mem _ hx, hk⟩
      rw [if_pos hxs, if_pos hcons]
    · rw [if_neg hxs, List.filter_append]
      by_cases ha : key a = key y
      · rw [if_pos ⟨a, List.mem_cons_self, ha⟩]
        simp [ha]
      · have hcons : ¬ ∃ x ∈ a :: xs, key x = key y := by
          rintro ⟨x, hx, hk⟩
          rcases List.mem_cons.mp hx with rfl | hx
          · exact ha hk
          · exact hxs ⟨x, hx, hk⟩
        rw [if_neg hcons]
        simp [Ne.symm ha]

/-- Renaming entries and keys alike does not change which entries are first. -/
theorem firstBy_map {α β κ ι : Type*} [DecidableEq κ] [DecidableEq ι] (f : α → β) (key : α → κ)
    (key' : β → ι) (h : ∀ x y, key' (f x) = key' (f y) ↔ key x = key y) (xs : List α) :
    firstBy key' (xs.map f) = (firstBy key xs).map f := by
  induction xs with
  | nil => rfl
  | cons a xs ih =>
    simp only [List.map_cons, firstBy, ih, List.filter_map, Function.comp_def, ne_eq, h]

/-- The state after a list of keyed writes. -/
def applyWrites {κ ν : Type*} [DecidableEq κ] (σ : κ → ν) (ws : List (κ × ν)) : κ → ν :=
  ws.foldl (fun τ w => Function.update τ w.1 w.2) σ

theorem applyWrites_concat {κ ν : Type*} [DecidableEq κ] (σ : κ → ν) (ws : List (κ × ν))
    (w : κ × ν) : applyWrites σ (ws ++ [w]) = Function.update (applyWrites σ ws) w.1 w.2 := by
  simp [applyWrites]

/-- What the writes offer to a log: each key with the value it is about to lose. -/
def beforeImages {κ ν : Type*} [DecidableEq κ] : (κ → ν) → List (κ × ν) → List (κ × ν)
  | _, [] => []
  | σ, w :: ws => (w.1, σ w.1) :: beforeImages (Function.update σ w.1 w.2) ws

@[simp] theorem beforeImages_length {κ ν : Type*} [DecidableEq κ] (σ : κ → ν)
    (ws : List (κ × ν)) : (beforeImages σ ws).length = ws.length := by
  induction ws generalizing σ with
  | nil => rfl
  | cons w ws ih => simp [beforeImages, ih]

theorem exists_mem_beforeImages {κ ν : Type*} [DecidableEq κ] (σ : κ → ν) (ws : List (κ × ν))
    (k : κ) : (∃ e ∈ beforeImages σ ws, e.1 = k) ↔ ∃ w ∈ ws, w.1 = k := by
  induction ws generalizing σ with
  | nil => simp [beforeImages]
  | cons w ws ih =>
    simp only [beforeImages, List.exists_mem_cons_iff, ih]

/-- The first before-image of a key is its initial value. -/
theorem firstBy_beforeImages {κ ν : Type*} [DecidableEq κ] (σ : κ → ν) (ws : List (κ × ν)) :
    ∀ e ∈ firstBy Prod.fst (beforeImages σ ws), e.2 = σ e.1 := by
  induction ws generalizing σ with
  | nil => simp [beforeImages, firstBy]
  | cons w ws ih =>
    intro e he
    simp only [beforeImages, firstBy, List.mem_cons, List.mem_filter, decide_eq_true_eq] at he
    rcases he with rfl | ⟨he, hne⟩
    · rfl
    · rw [ih _ e he, Function.update_of_ne hne]

theorem applyWrites_of_not_mem {κ ν : Type*} [DecidableEq κ] {σ : κ → ν} {ws : List (κ × ν)}
    {k : κ} (h : ¬ ∃ w ∈ ws, w.1 = k) : applyWrites σ ws k = σ k := by
  induction ws generalizing σ with
  | nil => rfl
  | cons w ws ih =>
    have hk : w.1 ≠ k := fun he => h ⟨w, List.mem_cons_self, he⟩
    have hrest : ¬ ∃ w' ∈ ws, w'.1 = k := fun ⟨w', hw', he⟩ =>
      h ⟨w', List.mem_cons_of_mem _ hw', he⟩
    exact (ih hrest).trans (Function.update_of_ne (Ne.symm hk) _ _)

/-- Replaying entries of one state over a state that differs from it only at
logged keys gives that state. -/
theorem applyWrites_eq {κ ν : Type*} [DecidableEq κ] {σ τ : κ → ν} {log : List (κ × ν)}
    (hlog : ∀ e ∈ log, e.2 = σ e.1) (hrest : ∀ k, (¬ ∃ e ∈ log, e.1 = k) → τ k = σ k) :
    applyWrites τ log = σ := by
  induction log generalizing τ with
  | nil => exact funext fun k => hrest k (by simp)
  | cons e log ih =>
    refine ih (fun e' he' => hlog e' (List.mem_cons_of_mem _ he')) fun k hk => ?_
    show Function.update τ e.1 e.2 k = σ k
    by_cases hek : k = e.1
    · rw [hek, Function.update_self, hlog e List.mem_cons_self]
    · rw [Function.update_of_ne hek]
      refine hrest k ?_
      rintro ⟨e', he', rfl⟩
      rcases List.mem_cons.mp he' with rfl | he'
      · exact hek rfl
      · exact hk ⟨e', he', rfl⟩

/-- The first before-images undo all writes. -/
theorem applyWrites_undo {κ ν : Type*} [DecidableEq κ] (σ : κ → ν) (ws : List (κ × ν)) :
    applyWrites (applyWrites σ ws) (firstBy Prod.fst (beforeImages σ ws)) = σ := by
  refine applyWrites_eq (firstBy_beforeImages σ ws) fun k hk => applyWrites_of_not_mem ?_
  rwa [exists_mem_firstBy, exists_mem_beforeImages] at hk

end BlkdevSnapshot.FirstWrite
