import Mathlib.Logic.Basic
import Mathlib.Tactic.Common

/-!
# Guarded runs of a partial state machine

A machine has initial states and a partial, labelled step. A guard is a
condition on a state and the label about to be taken; a guarded run takes only
steps whose guard holds in the state before the step. Facts about every state of
every guarded run follow from one step lemma.
-/
namespace BlkdevSnapshot

/-- A labelled state machine; `step s a = none` means that `a` cannot happen in `s`. -/
structure Machine (σ α : Type*) where
  init : σ → Prop
  step : σ → α → Option σ

namespace Machine
variable {σ α : Type*} (M : Machine σ α)

/-- The states of all runs whose steps meet the guard. -/
inductive Reach (ok : σ → α → Prop) : σ → Prop where
  | init {s : σ} (h : M.init s) : Reach ok s
  | step {s s' : σ} {a : α} (hs : Reach ok s) (ha : ok s a) (h : M.step s a = some s') :
      Reach ok s'

/-- Every run, with no restriction on its steps. -/
abbrev Reachable : σ → Prop := M.Reach fun _ _ => True

/-- Run a list of labels from `s`. -/
def run (s : σ) : List α → Option σ
  | [] => some s
  | a :: as => (M.step s a).bind fun s' => run s' as

/-- `P` holds in `s` and after every step of the run of `as` from `s`. -/
def Throughout (P : σ → Prop) (s : σ) : List α → Prop
  | [] => P s
  | a :: as => P s ∧ ∀ s', M.step s a = some s' → Throughout P s' as

/-- Every step of the run of `as` from `s` meets the guard. -/
def Meets (ok : σ → α → Prop) (s : σ) : List α → Prop
  | [] => True
  | a :: as => ok s a ∧ ∀ s', M.step s a = some s' → Meets ok s' as

/-- Whether a run meets a decidable guard can be computed. -/
instance decidableMeets (ok : σ → α → Prop) [∀ s a, Decidable (ok s a)] (s : σ) :
    (as : List α) → Decidable (M.Meets ok s as)
  | [] => isTrue trivial
  | a :: as =>
    match h : M.step s a with
    | none => decidable_of_iff (ok s a) ⟨fun ha => ⟨ha, by simp [h]⟩, And.left⟩
    | some t =>
      have := decidableMeets ok t as
      decidable_of_iff (ok s a ∧ M.Meets ok t as)
        ⟨fun ha => ⟨ha.1, by simpa [h] using ha.2⟩, fun ha => ⟨ha.1, ha.2 t h⟩⟩

variable {M}

/-- The induction rule: initial states and guarded steps keep `P`. -/
theorem Reach.invariant {ok : σ → α → Prop} {P : σ → Prop}
    (h0 : ∀ s, M.init s → P s)
    (hstep : ∀ s a s', P s → ok s a → M.step s a = some s' → P s')
    {s : σ} (h : M.Reach ok s) : P s := by
  induction h with
  | init h => exact h0 _ h
  | step _ ha h ih => exact hstep _ _ _ ih ha h

/-- The refinement rule: guarded steps are matched by guarded runs of another machine, so every
state that is reached is related to one that the other machine reaches. -/
theorem Reach.refines {τ β : Type*} {A : Machine τ β} {okA : τ → β → Prop} {ok : σ → α → Prop}
    {R : τ → σ → Prop} (h0 : ∀ s, M.init s → ∃ t, A.init t ∧ R t s)
    (hstep : ∀ s a s' t, A.Reach okA t → R t s → ok s a → M.step s a = some s' →
      ∃ t', A.Reach okA t' ∧ R t' s')
    {s : σ} (h : M.Reach ok s) : ∃ t, A.Reach okA t ∧ R t s := by
  induction h with
  | init h =>
    obtain ⟨t, ht, hR⟩ := h0 _ h
    exact ⟨t, .init ht, hR⟩
  | step _ ha h ih =>
    obtain ⟨t, ht, hR⟩ := ih
    exact hstep _ _ _ t ht hR ha h

theorem Reach.run {ok : σ → α → Prop} {s s' : σ} {as : List α} (hs : M.Reach ok s)
    (hm : M.Meets ok s as) (h : M.run s as = some s') : M.Reach ok s' := by
  induction as generalizing s with
  | nil =>
    cases h
    exact hs
  | cons a as ih =>
    simp only [Machine.run, Option.bind_eq_some_iff] at h
    obtain ⟨t, ht, h⟩ := h
    exact ih (.step hs hm.1 ht) (hm.2 t ht) h

/-- A guard may be replaced by one that it implies of the labels of the run. -/
theorem Meets.imp_mem {ok ok' : σ → α → Prop} {s : σ} {as : List α} (h : M.Meets ok s as)
    (himp : ∀ s, ∀ a ∈ as, ok s a → ok' s a) : M.Meets ok' s as := by
  induction as generalizing s with
  | nil => trivial
  | cons a as ih =>
    exact ⟨himp s a List.mem_cons_self h.1, fun s' hs' =>
      ih (h.2 s' hs') fun t b hb => himp t b (List.mem_cons_of_mem _ hb)⟩

theorem meets_trivial (s : σ) (as : List α) : M.Meets (fun _ _ => True) s as := by
  induction as generalizing s with
  | nil => trivial
  | cons a as ih => exact ⟨trivial, fun s' _ => ih s'⟩

/-- Labels of a kind that meet the guard in `I`-states and keep `I` make a guarded run. -/
theorem meets_of_invariant {ok : σ → α → Prop} {I : σ → Prop} {p : α → Prop}
    (hok : ∀ s a, I s → p a → ok s a)
    (hstep : ∀ s a s', I s → p a → M.step s a = some s' → I s')
    {s : σ} (hs : I s) {as : List α} (has : ∀ a ∈ as, p a) : M.Meets ok s as := by
  induction as generalizing s with
  | nil => trivial
  | cons a as ih =>
    have ha := has a List.mem_cons_self
    exact ⟨hok s a hs ha, fun s' hs' =>
      ih (hstep s a s' hs ha hs') fun b hb => has b (List.mem_cons_of_mem _ hb)⟩

/-- A concrete run from an initial state reaches its last state. -/
theorem reachable_of_run {s s' : σ} (hs : M.init s) (as : List α) (h : M.run s as = some s') :
    M.Reachable s' :=
  Reach.run (.init hs) (meets_trivial s as) h

theorem run_concat (M : Machine σ α) (s : σ) (as : List α) (a : α) :
    M.run s (as ++ [a]) = (M.run s as).bind fun s' => M.step s' a := by
  induction as generalizing s with
  | nil => simp [run]
  | cons b bs ih => simp [run, Option.bind_assoc, ih]

/-- The last state of a run that does not get stuck, as a closed term. -/
theorem run_eq_getD (M : Machine σ α) (s : σ) (as : List α) (h : (M.run s as).isSome) :
    M.run s as = some ((M.run s as).getD s) := by
  obtain ⟨s', hs'⟩ := Option.isSome_iff_exists.mp h
  rw [hs', Option.getD_some]

/-- The progress rule: when every label of a list can be taken in the states that
its predecessors lead to, the whole list runs and its history invariant holds. -/
theorem run_progress {I : List α → σ → Prop} {xs : List α}
    (hstep : ∀ as a rest s, xs = as ++ a :: rest → I as s →
      ∃ s', M.step s a = some s' ∧ I (as ++ [a]) s')
    {s : σ} (h : I [] s) : ∃ s', M.run s xs = some s' ∧ I xs s' := by
  suffices hrest : ∀ rest as s, xs = as ++ rest → I as s →
      ∃ s', M.run s rest = some s' ∧ I xs s' from hrest xs [] s rfl h
  intro rest
  induction rest with
  | nil =>
    intro as s he h
    rw [List.append_nil] at he
    exact ⟨s, rfl, he ▸ h⟩
  | cons a rest ih =>
    intro as s he h
    obtain ⟨t, ht, hI⟩ := hstep as a rest s he h
    obtain ⟨s', hrun, hI'⟩ := ih (as ++ [a]) t (by simpa using he) hI
    exact ⟨s', by simp only [run, ht, Option.bind_some, hrun], hI'⟩

/-- The safety rule: guarded steps keep `I`, so a guarded run has `P` throughout. -/
theorem throughout_of_meets {ok : σ → α → Prop} {I P : σ → Prop}
    (hI : ∀ s, I s → P s)
    (hgood : ∀ s a s', I s → ok s a → M.step s a = some s' → I s')
    {s : σ} (hs : I s) {as : List α} (h : M.Meets ok s as) : M.Throughout P s as := by
  induction as generalizing s with
  | nil => exact hI s hs
  | cons a as ih =>
    exact ⟨hI s hs, fun s' hs' => ih (hgood s a s' hs h.1 hs') (h.2 s' hs')⟩

theorem Throughout.head {P : σ → Prop} {s : σ} {as : List α} (h : M.Throughout P s as) : P s := by
  cases as with
  | nil => exact h
  | cons a as => exact h.1

theorem Throughout.run {P : σ → Prop} {s s' : σ} {as : List α} (h : M.Throughout P s as)
    (hrun : M.run s as = some s') : P s' := by
  induction as generalizing s with
  | nil =>
    cases hrun
    exact h
  | cons a as ih =>
    simp only [Machine.run, Option.bind_eq_some_iff] at hrun
    obtain ⟨t, ht, hrun⟩ := hrun
    exact ih (h.2 t ht) hrun

/-- The exactness rule. When a guarded step keeps `I` and `P`, and an unguarded
step from an `I`-state always succeeds and breaks `P`, a run has `P` throughout
exactly when all its steps are guarded. -/
theorem throughout_iff_meets {ok : σ → α → Prop} {I P : σ → Prop}
    (hI : ∀ s, I s → P s)
    (hgood : ∀ s a s', I s → ok s a → M.step s a = some s' → I s')
    (hbad : ∀ s a, I s → ¬ ok s a → ∃ s', M.step s a = some s' ∧ ¬ P s')
    {s : σ} (hs : I s) (as : List α) : M.Throughout P s as ↔ M.Meets ok s as := by
  refine ⟨fun h => ?_, throughout_of_meets hI hgood hs⟩
  induction as generalizing s with
  | nil => trivial
  | cons a as ih =>
    have ha : ok s a := by
      by_contra ha
      obtain ⟨s', hs', hP⟩ := hbad s a hs ha
      exact hP (h.2 s' hs').head
    exact ⟨ha, fun s' hs' => ih (hgood s a s' hs ha hs') (h.2 s' hs')⟩

/-- The doom rule. When an unguarded step leads into `D`, and a step from `D` stays
in `D` or breaks `P`, a run that ends outside `D` has `P` throughout only if all its
steps are guarded. -/
theorem meets_of_throughout {ok : σ → α → Prop} {I P D : σ → Prop}
    (hgood : ∀ s a s', I s → ok s a → M.step s a = some s' → I s')
    (hbad : ∀ s a s', I s → ¬ ok s a → M.step s a = some s' → D s')
    (hdoom : ∀ s a s', D s → M.step s a = some s' → D s' ∨ ¬ P s')
    {s s' : σ} (hs : I s) {as : List α} (hrun : M.run s as = some s') (hend : ¬ D s')
    (h : M.Throughout P s as) : M.Meets ok s as := by
  have hdoomed : ∀ as s, D s → M.run s as = some s' → ¬ M.Throughout P s as := by
    intro as
    induction as with
    | nil =>
      rintro s hD ⟨⟩
      exact absurd hD hend
    | cons a as ih =>
      intro s hD hrun h
      simp only [run, Option.bind_eq_some_iff] at hrun
      obtain ⟨t, ht, hrun⟩ := hrun
      rcases hdoom s a t hD ht with hD' | hP
      · exact ih t hD' hrun (h.2 t ht)
      · exact hP (h.2 t ht).head
  induction as generalizing s with
  | nil => trivial
  | cons a as ih =>
    simp only [run, Option.bind_eq_some_iff] at hrun
    obtain ⟨t, ht, hrun⟩ := hrun
    have hstep : ok s a := by
      by_contra ha
      exact hdoomed as t (hbad s a t hs ha ht) hrun (h.2 t ht)
    refine ⟨hstep, fun u hu => ?_⟩
    obtain rfl : t = u := Option.some.inj (ht.symm.trans hu)
    exact ih (hgood s a t hs hstep ht) hrun (h.2 t ht)

/-- The two ends of a run. When a guarded step keeps `I`, an unguarded one leads into `D` and
no step that the environment allows leaves `D`, a run that the environment allows ends in `I`
or in `D`, as all its steps are guarded or not. -/
theorem run_ends_of_meets {ok env : σ → α → Prop} {I D : σ → Prop}
    (hgood : ∀ s a s', I s → ok s a → M.step s a = some s' → I s')
    (hbad : ∀ s a s', I s → ¬ ok s a → M.step s a = some s' → D s')
    (hdoom : ∀ s a s', D s → env s a → M.step s a = some s' → D s')
    {s s' : σ} (hs : I s) {as : List α} (henv : M.Meets env s as)
    (hrun : M.run s as = some s') : M.Meets ok s as ∧ I s' ∨ ¬ M.Meets ok s as ∧ D s' := by
  have hdoomed : ∀ as s, D s → M.Meets env s as → M.run s as = some s' → D s' := by
    intro as
    induction as with
    | nil =>
      rintro s hD - ⟨⟩
      exact hD
    | cons a as ih =>
      intro s hD henv hrun
      simp only [run, Option.bind_eq_some_iff] at hrun
      obtain ⟨t, ht, hrun⟩ := hrun
      exact ih t (hdoom s a t hD henv.1 ht) (henv.2 t ht) hrun
  induction as generalizing s with
  | nil =>
    cases hrun
    exact .inl ⟨trivial, hs⟩
  | cons a as ih =>
    simp only [run, Option.bind_eq_some_iff] at hrun
    obtain ⟨t, ht, hrun⟩ := hrun
    by_cases ha : ok s a
    · have hiff : M.Meets ok s (a :: as) ↔ M.Meets ok t as := by
        refine ⟨fun h => h.2 t ht, fun h => ⟨ha, fun u hu => ?_⟩⟩
        obtain rfl : t = u := Option.some.inj (ht.symm.trans hu)
        exact h
      rw [hiff]
      exact ih (hgood s a t hs ha ht) (henv.2 t ht) hrun
    · exact .inr ⟨fun h => ha h.1, hdoomed as t (hbad s a t hs ha ht) (henv.2 t ht) hrun⟩

/-- The two ends of a run in any environment. -/
theorem run_ends {ok : σ → α → Prop} {I D : σ → Prop}
    (hgood : ∀ s a s', I s → ok s a → M.step s a = some s' → I s')
    (hbad : ∀ s a s', I s → ¬ ok s a → M.step s a = some s' → D s')
    (hdoom : ∀ s a s', D s → M.step s a = some s' → D s')
    {s s' : σ} (hs : I s) {as : List α} (hrun : M.run s as = some s') :
    M.Meets ok s as ∧ I s' ∨ ¬ M.Meets ok s as ∧ D s' :=
  run_ends_of_meets hgood hbad (fun s a s' hD _ h => hdoom s a s' hD h) hs (meets_trivial s as)
    hrun

end Machine
end BlkdevSnapshot
