import CockatielEngine.Concurrency.TaskPool

/-!
# Task pools: a value that a run carries along

A ghost is a value beside the pool that is brought up to date before every step,
from the pool and the label of the step.  No step depends on it; the side condition
of a run may.

**Rules.**
* `Ghosted.invariant`: an invariant over the ghost and the pool.
* `ghosted_of_allGhosted`: the run of a list of labels has a ghost that can be
  computed, and its side condition can be checked.
-/

namespace CockatielEngine
namespace TaskPool

universe u v w x y

variable {σ : Type u} {φ : Type v} {α : Type w} {ε : Type x} {γ : Type y}

/-- `s` is reached from `s₀` by steps that meet `ok`, and the run has made `g` of
`g₀`. -/
inductive Ghosted (P : Program σ φ α ε) (upd : Pool σ φ → Label α ε → γ → γ)
    (ok : γ → Pool σ φ → Label α ε → Prop) (g₀ : γ) (s₀ : Pool σ φ) :
    γ → Pool σ φ → Prop
  | start : Ghosted P upd ok g₀ s₀ g₀ s₀
  | step {g : γ} {s s' : Pool σ φ} {l : Label α ε} :
      Ghosted P upd ok g₀ s₀ g s →
      ok g s l →
      P.fire s l = some s' →
      Ghosted P upd ok g₀ s₀ (upd s l g) s'

/-- What the run of a list of labels makes of a ghost. -/
def Program.ghost (P : Program σ φ α ε) (upd : Pool σ φ → Label α ε → γ → γ) :
    Pool σ φ → γ → List (Label α ε) → γ
  | _, g, [] => g
  | s, g, l :: ls => ((P.fire s l).map fun s' => P.ghost upd s' (upd s l g) ls).getD g

variable (P : Program σ φ α ε) (upd : Pool σ φ → Label α ε → γ → γ) in
/-- `ok` holds of every step along the run of `ls`, with the ghost before it. -/
def AllGhosted (ok : γ → Pool σ φ → Label α ε → Prop) :
    γ → Pool σ φ → List (Label α ε) → Prop
  | _, _, [] => True
  | g, s, l :: ls =>
      ok g s l ∧ ∀ s', P.fire s l = some s' → AllGhosted ok (upd s l g) s' ls

variable {P : Program σ φ α ε} {upd : Pool σ φ → Label α ε → γ → γ}
variable {ok : γ → Pool σ φ → Label α ε → Prop}
variable {g₀ g : γ} {s₀ s s' : Pool σ φ}

/-- The side condition of a run with a ghost can be checked by running it. -/
instance decidableAllGhosted [∀ g s l, Decidable (ok g s l)] :
    (ls : List (Label α ε)) → (g : γ) → (s : Pool σ φ) →
      Decidable (AllGhosted P upd ok g s ls)
  | [], _, _ => .isTrue trivial
  | l :: ls, g, s =>
      match h : P.fire s l with
      | none =>
          decidable_of_iff (ok g s l)
            ⟨fun hok => ⟨hok, fun s' hs' => by simp [h] at hs'⟩, fun hall => hall.1⟩
      | some s' =>
          have := decidableAllGhosted ls (upd s l g) s'
          decidable_of_iff (ok g s l ∧ AllGhosted P upd ok (upd s l g) s' ls)
            ⟨fun hall => ⟨hall.1, fun t ht => by
                obtain rfl : s' = t := Option.some.inj (h.symm.trans ht)
                exact hall.2⟩,
              fun hall => ⟨hall.1, hall.2 s' h⟩⟩

/-- The invariant rule with a ghost. -/
theorem Ghosted.invariant
    {I : γ → Pool σ φ → Prop}
    (hinit : I g₀ s₀)
    (hstep : ∀ {g s s' l}, I g s → ok g s l → P.fire s l = some s' → I (upd s l g) s')
    (hs : Ghosted P upd ok g₀ s₀ g s) :
    I g s := by
  induction hs with
  | start => exact hinit
  | step _ hok hfire ih => exact hstep ih hok hfire

/-- A run all of whose steps meet the side condition reaches its end with the
ghost it computes. -/
theorem ghosted_of_allGhosted
    (ls : List (Label α ε))
    (hs : Ghosted P upd ok g₀ s₀ g s)
    (hall : AllGhosted P upd ok g s ls)
    (hrun : P.exec s ls = some s') :
    Ghosted P upd ok g₀ s₀ (P.ghost upd s g ls) s' := by
  induction ls generalizing s g with
  | nil =>
      cases hrun
      exact hs
  | cons l ls ih =>
      obtain ⟨s₁, hfire, hrest⟩ := Option.bind_eq_some_iff.mp hrun
      simp only [Program.ghost, hfire, Option.map_some, Option.getD_some]
      exact ih (.step hs hall.1 hfire) (hall.2 s₁ hfire) hrest

end TaskPool
end CockatielEngine
