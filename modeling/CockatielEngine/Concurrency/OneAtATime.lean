import CockatielEngine.Concurrency.TaskPool

/-!
# Task pools whose tasks run one at a time

A schedule under which a task, once started, runs to its end before another one
does: the world acts only on an idle pool, and of the tasks that are not done
only the first one runs.  A task started by a step waits until the task that
started it is done.

**Rules.**
* `frames_oneAtATime`: under such a schedule the frames of the pool are one
  stack, and a step only replaces its head.
* `exec_split`: a run passes through the states before and after each of its
  labels.
-/

namespace CockatielEngine
namespace TaskPool

universe u v w x

variable {σ : Type u} {φ : Type v} {α : Type w} {ε : Type x}

/-- Every task is done. -/
def Pool.Idle (s : Pool σ φ) : Prop :=
  s.frames = []

/-- Only the first task that is not done runs; the world waits for all. -/
def OneAtATime (s : Pool σ φ) : Label α ε → Prop
  | .run i _ => ∀ t ∈ s.threads.take i, t = []
  | .world _ => s.Idle

/-- A run whose tasks run one at a time, with a condition on its steps and one
on the world's moves. -/
def Serial (c : Pool σ φ → α → φ → Prop) (w : Pool σ φ → ε → Prop)
    (s : Pool σ φ) (l : Label α ε) : Prop :=
  OneAtATime s l ∧ OnRun c s l ∧ ∀ ev, l = .world ev → w s ev

instance [DecidableEq φ] (s : Pool σ φ) : Decidable s.Idle :=
  inferInstanceAs (Decidable (s.frames = []))

instance [DecidableEq φ] (s : Pool σ φ) (l : Label α ε) :
    Decidable (OneAtATime s l) :=
  match l with
  | .run i _ => inferInstanceAs (Decidable (∀ t ∈ s.threads.take i, t = []))
  | .world _ => inferInstanceAs (Decidable s.Idle)

instance [DecidableEq φ]
    (c : Pool σ φ → α → φ → Prop) [∀ s a f, Decidable (c s a f)]
    (w : Pool σ φ → ε → Prop) [∀ s ev, Decidable (w s ev)]
    (s : Pool σ φ) (l : Label α ε) :
    Decidable (Serial c w s l) :=
  match l with
  | .run i a =>
      decidable_of_iff (OneAtATime s (.run i a : Label α ε) ∧
          OnRun c s (.run i a : Label α ε))
        ⟨fun h => ⟨h.1, h.2, by simp⟩, fun h => ⟨h.1, h.2.1⟩⟩
  | .world ev =>
      decidable_of_iff (OneAtATime s (.world ev : Label α ε) ∧ w s ev)
        ⟨fun h => ⟨h.1, trivial, fun _ heq => by cases heq; exact h.2⟩,
          fun h => ⟨h.1, h.2.2 ev rfl⟩⟩

variable {P : Program σ φ α ε}
variable {s s' : Pool σ φ} {i : Nat} {a : α} {f : φ} {rest : List φ}
variable {o : Outcome σ φ}

/-- The frames of a serial pool are one stack with the running frame on top;
what a step leaves replaces the top, and an error only drops frames. -/
theorem frames_oneAtATime
    (hi : s.threads[i]? = some (f :: rest))
    (h : OneAtATime s (.run i a : Label α ε)) :
    ∃ tail, s.frames = f :: tail ∧
      (∀ fs, o.next = some fs →
        (s.threads.set i (P.unwind o.next rest) ++ o.spawned).flatten =
          fs ++ tail ++ o.spawned.flatten) ∧
      (o.next = none →
        ((s.threads.set i (P.unwind o.next rest) ++ o.spawned).flatten).Sublist
          (tail ++ o.spawned.flatten)) := by
  obtain ⟨hlt, hget⟩ := List.getElem?_eq_some_iff.mp hi
  have hfirst : (s.threads.take i).flatten = [] :=
    List.flatten_eq_nil_iff.mpr h
  have hsplit : s.threads =
      s.threads.take i ++ (f :: rest) :: s.threads.drop (i + 1) := by
    rw [← hget, List.cons_getElem_drop_succ, List.take_append_drop]
  have hset (t : List φ) :
      (s.threads.set i t).flatten = t ++ (s.threads.drop (i + 1)).flatten := by
    rw [List.set_eq_take_append_cons_drop, if_pos hlt, List.flatten_append, hfirst]
    simp
  refine ⟨rest ++ (s.threads.drop (i + 1)).flatten, ?_, ?_, ?_⟩
  · have hflat := congrArg List.flatten hsplit
    simpa [Pool.frames, hfirst] using hflat
  · intro fs hfs
    rw [List.flatten_append, hset, hfs]
    simp [Program.unwind]
  · intro hnone
    rw [List.flatten_append, hset, hnone]
    have hsub : (P.unwind none rest).Sublist rest := List.dropWhile_sublist _
    exact (hsub.append_right _).append_right _

/-- A run passes through the states before and after each of its labels. -/
theorem exec_split
    {ls₁ ls₂ : List (Label α ε)} {l : Label α ε}
    (h : P.exec s (ls₁ ++ l :: ls₂) = some s') :
    ∃ s₁ s₂, P.exec s ls₁ = some s₁ ∧ P.fire s₁ l = some s₂ ∧
      P.exec s₂ ls₂ = some s' := by
  induction ls₁ generalizing s with
  | nil =>
      obtain ⟨s₂, hfire, hrest⟩ := Option.bind_eq_some_iff.mp h
      exact ⟨s, s₂, rfl, hfire, hrest⟩
  | cons k ls₁ ih =>
      obtain ⟨s₁, hfire, hrest⟩ := Option.bind_eq_some_iff.mp h
      obtain ⟨t₁, t₂, h₁, hl, h₂⟩ := ih hrest
      exact ⟨t₁, t₂, by simp [Program.exec, hfire, h₁], hl, h₂⟩

/-- The steps after a part of a run meet the condition the whole run meets. -/
theorem AllSteps.drop
    {ok : Pool σ φ → Label α ε → Prop} {ls₁ ls₂ : List (Label α ε)}
    (h : AllSteps P ok s (ls₁ ++ ls₂))
    (hrun : P.exec s ls₁ = some s') :
    AllSteps P ok s' ls₂ := by
  induction ls₁ generalizing s with
  | nil =>
      cases hrun
      exact h
  | cons l ls₁ ih =>
      obtain ⟨s₁, hfire, hrest⟩ := Option.bind_eq_some_iff.mp hrun
      exact ih (h.2 s₁ hfire) hrest

end TaskPool
end CockatielEngine
