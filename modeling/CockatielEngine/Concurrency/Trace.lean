import CockatielEngine.Concurrency.TaskPool

/-!
# Task pools: what a run has run

A run together with the frames its tasks have run, newest first, each with the
number of its task.  The history is a ghost: it is read off the run, and no
step depends on it.

**Rules.**
* `Traced.invariant`: an invariant over the pool and the history.
* `traced_of_allSteps`: the run of a list of labels has a history that can be
  computed.
-/

namespace CockatielEngine
namespace TaskPool

universe u v w x

variable {σ : Type u} {φ : Type v} {α : Type w} {ε : Type x}

/-- The task a transition runs, with the frame at its top. -/
def Pool.ran (s : Pool σ φ) : Label α ε → List (Nat × φ)
  | .run i _ => ((s.top i).map fun f => (i, f)).toList
  | .world _ => []

/-- `s` is reached from `s₀` by steps that meet `ok`, and `tr` is what they
ran. -/
inductive Traced (P : Program σ φ α ε)
    (ok : Pool σ φ → Label α ε → Prop) (s₀ : Pool σ φ) :
    List (Nat × φ) → Pool σ φ → Prop
  | start : Traced P ok s₀ [] s₀
  | step {tr : List (Nat × φ)} {s s' : Pool σ φ} {l : Label α ε} :
      Traced P ok s₀ tr s →
      ok s l →
      P.fire s l = some s' →
      Traced P ok s₀ (s.ran l ++ tr) s'

/-- What a list of labels runs, newest first, on top of what has been run. -/
def Program.history (P : Program σ φ α ε) :
    Pool σ φ → List (Nat × φ) → List (Label α ε) → List (Nat × φ)
  | _, tr, [] => tr
  | s, tr, l :: ls =>
      match P.fire s l with
      | none => tr
      | some s' => P.history s' (s.ran l ++ tr) ls

variable {P : Program σ φ α ε}
variable {ok : Pool σ φ → Label α ε → Prop} {s₀ s s' : Pool σ φ}
variable {tr : List (Nat × φ)}

theorem ran_of_getElem?
    {i : Nat} {f : φ} {rest : List φ} (a : α)
    (hi : s.threads[i]? = some (f :: rest)) :
    s.ran (.run i a : Label α ε) = [(i, f)] := by
  simp [Pool.ran, Pool.top, hi]

theorem ran_of_ne
    {i j : Nat} {a : α}
    (h : j ≠ i) :
    ∀ x ∈ s.ran (.run j a : Label α ε), x.1 ≠ i := by
  intro x hx
  simp only [Pool.ran, Option.mem_toList, Option.map_eq_some_iff] at hx
  obtain ⟨f, -, rfl⟩ := hx
  exact h

/-- What has been run before stays at the end of the history. -/
theorem history_eq_append (ls : List (Label α ε)) :
    P.history s tr ls = P.history s [] ls ++ tr := by
  induction ls generalizing s tr with
  | nil => rfl
  | cons l ls ih =>
      simp only [Program.history]
      cases hfire : P.fire s l with
      | none => rfl
      | some s' =>
          simp only
          rw [ih, @ih _ (s.ran l ++ [])]
          simp

/-- The other tasks keep their stacks while one runs. -/
theorem getElem?_after_run
    {i j : Nat} {t t' : List φ} {spawned : List (List φ)}
    (hij : j ≠ i)
    (hi : s.threads[i]? = some t) :
    (s.threads.set j t' ++ spawned)[i]? = some t := by
  rw [List.getElem?_append_left]
  · rwa [List.getElem?_set_ne hij]
  · rw [List.length_set]
    exact (List.getElem?_eq_some_iff.mp hi).1

/-- The invariant rule with history. -/
theorem Traced.invariant
    {I : List (Nat × φ) → Pool σ φ → Prop}
    (hinit : I [] s₀)
    (hstep : ∀ {tr s s' l}, I tr s → ok s l → P.fire s l = some s' →
      I (s.ran l ++ tr) s')
    (hs : Traced P ok s₀ tr s) :
    I tr s := by
  induction hs with
  | start => exact hinit
  | step _ hok hfire ih => exact hstep ih hok hfire

/-- A run all of whose steps meet the side condition has its history. -/
theorem traced_of_allSteps
    (ls : List (Label α ε))
    (hs : Traced P ok s₀ tr s)
    (hall : AllSteps P ok s ls)
    (hrun : P.exec s ls = some s') :
    Traced P ok s₀ (P.history s tr ls) s' := by
  induction ls generalizing s tr with
  | nil =>
      cases hrun
      exact hs
  | cons l ls ih =>
      obtain ⟨s₁, hfire, hrest⟩ := Option.bind_eq_some_iff.mp hrun
      simp only [Program.history, hfire]
      exact ih (.step hs hall.1 hfire) (hall.2 s₁ hfire) hrest

end TaskPool
end CockatielEngine
