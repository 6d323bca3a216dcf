import CockatielEngine.Concurrency.TaskPool

/-!
# Task pools: runs on which nothing is asked of the world

**Rule.**  `exec_invariant`: what every transition keeps holds at the end of every
run, whatever its labels.
-/

namespace CockatielEngine
namespace TaskPool

universe u v w x

variable {σ : Type u} {φ : Type v} {α : Type w} {ε : Type x}
variable {P : Program σ φ α ε} {I : Pool σ φ → Prop} {s s' : Pool σ φ}

theorem exec_invariant
    (hkeep : ∀ {s s' l}, I s → P.fire s l = some s' → I s')
    (labels : List (Label α ε))
    (hs : I s)
    (hrun : P.exec s labels = some s') :
    I s' := by
  induction labels generalizing s with
  | nil =>
      obtain rfl := Option.some.inj hrun
      exact hs
  | cons l labels ih =>
      obtain ⟨s₁, hfire, hrest⟩ := Option.bind_eq_some_iff.mp hrun
      exact ih (hkeep hs hfire) hrest

end TaskPool
end CockatielEngine
