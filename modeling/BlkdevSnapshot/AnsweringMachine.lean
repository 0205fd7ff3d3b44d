import Mathlib.Data.List.Basic
import Mathlib.Tactic.Common

/-!
# Machines that answer every call, and their clients

A machine takes a call in a state to the next state and an answer. A simulation
relates the states of two machines such that both give the same answer and
related states again. It follows that whole sequences of calls get the same answers, and
that a program whose calls depend on the answers ends with the same result.
-/
namespace BlkdevSnapshot

/-- A machine that answers every call. -/
structure AnsweringMachine (σ α ρ : Type*) where
  serve : σ → α → σ × ρ

/-- A program that makes calls and goes on with their answers. -/
inductive Client (α ρ β : Type*) where
  | ret (b : β)
  | call (a : α) (next : ρ → Client α ρ β)

namespace AnsweringMachine
variable {σ τ α ρ β : Type*}

/-- The state after a list of calls. -/
def after (M : AnsweringMachine σ α ρ) (s : σ) : List α → σ
  | [] => s
  | a :: as => M.after (M.serve s a).1 as

/-- The answers to a list of calls. -/
def answers (M : AnsweringMachine σ α ρ) (s : σ) : List α → List ρ
  | [] => []
  | a :: as => (M.serve s a).2 :: M.answers (M.serve s a).1 as

/-- The state that a program leaves behind, and its result. -/
def runClient (M : AnsweringMachine σ α ρ) (s : σ) : Client α ρ β → σ × β
  | .ret b => (s, b)
  | .call a next => M.runClient (M.serve s a).1 (next (M.serve s a).2)

/-- `R` relates states in which both machines answer alike and stay related. -/
structure Simulates (C : AnsweringMachine σ α ρ) (A : AnsweringMachine τ α ρ)
    (R : σ → τ → Prop) : Prop where
  answer : ∀ s t a, R s t → (C.serve s a).2 = (A.serve t a).2
  keeps : ∀ s t a, R s t → R (C.serve s a).1 (A.serve t a).1

namespace Simulates
variable {C : AnsweringMachine σ α ρ} {A : AnsweringMachine τ α ρ} {R : σ → τ → Prop}

theorem after (h : Simulates C A R) {s : σ} {t : τ} (hR : R s t) (as : List α) :
    R (C.after s as) (A.after t as) := by
  induction as generalizing s t with
  | nil => exact hR
  | cons a as ih => exact ih (h.keeps s t a hR)

/-- Whole sequences of calls get the same answers. -/
theorem answers (h : Simulates C A R) {s : σ} {t : τ} (hR : R s t) (as : List α) :
    C.answers s as = A.answers t as := by
  induction as generalizing s t with
  | nil => rfl
  | cons a as ih =>
    show (C.serve s a).2 :: _ = (A.serve t a).2 :: _
    rw [h.answer s t a hR, ih (h.keeps s t a hR)]

/-- A program gets the same result from both machines. -/
theorem runClient (h : Simulates C A R) {s : σ} {t : τ} (hR : R s t) (p : Client α ρ β) :
    (C.runClient s p).2 = (A.runClient t p).2 ∧
      R (C.runClient s p).1 (A.runClient t p).1 := by
  induction p generalizing s t with
  | ret b => exact ⟨rfl, hR⟩
  | call a next ih =>
    simp only [AnsweringMachine.runClient]
    rw [h.answer s t a hR]
    exact ih _ (h.keeps s t a hR)

end Simulates
end AnsweringMachine
end BlkdevSnapshot
