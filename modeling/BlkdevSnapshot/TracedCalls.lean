import Mathlib.Tactic.Common

/-!
# Computations with a trace

A computation returns a value together with the steps that it took. The steps of a
composition follow one another, so what holds of every step of it holds of every step of
its parts.
-/
namespace BlkdevSnapshot

/-- A value and the steps that led to it. -/
structure Traced (σ α : Type*) where
  val : α
  steps : List σ

namespace Traced
variable {σ α β : Type*}

instance : Monad (Traced σ) where
  pure a := ⟨a, []⟩
  bind x f := ⟨(f x.val).val, x.steps ++ (f x.val).steps⟩

/-- One step. -/
def emit (s : σ) : Traced σ Unit := ⟨(), [s]⟩

/-- Several steps. -/
def emits (l : List σ) : Traced σ Unit := ⟨(), l⟩

/-- Every step satisfies a property. -/
def All (P : σ → Prop) (x : Traced σ α) : Prop := ∀ s ∈ x.steps, P s

section Steps
variable {α β : Type _} (a : α) (x : Traced σ α) (f : α → Traced σ β) (s : σ) (l : List σ)

@[simp] theorem val_pure : (pure a : Traced σ α).val = a := rfl
@[simp] theorem steps_pure : (pure a : Traced σ α).steps = [] := rfl
@[simp] theorem val_bind : (x >>= f).val = (f x.val).val := rfl
@[simp] theorem steps_bind : (x >>= f).steps = x.steps ++ (f x.val).steps := rfl
@[simp] theorem val_emit : (emit s).val = () := rfl
@[simp] theorem steps_emit : (emit s).steps = [s] := rfl
@[simp] theorem val_emits : (emits l).val = () := rfl
@[simp] theorem steps_emits : (emits l).steps = l := rfl

variable {P : σ → Prop}

@[simp] theorem all_pure : (pure a : Traced σ α).All P := by simp [All]

@[simp] theorem all_bind : (x >>= f).All P ↔ x.All P ∧ (f x.val).All P := by
  simp only [All, steps_bind, List.forall_mem_append]

@[simp] theorem all_emit : (emit s).All P ↔ P s := by simp [All]

@[simp] theorem all_emits : (emits l).All P ↔ ∀ s ∈ l, P s := Iff.rfl

end Steps
end Traced
end BlkdevSnapshot
