import CockatielEngine.Concurrency.TaskPool

/-!
# Task pools: a call that runs alone

`Call` is the run of one stack of frames, from its first step to its return or
to the error that leaves it, while no other task of the pool takes a step.  The
trace holds the frames it ran, oldest first, each with the world's answer.

**Rules.**
* `Call.uncons`: what the first step of a call does.
* `Call.invariant`: an invariant of the call's steps holds where it returns.
* `Call.mem_trace`: a property of frames that the steps preserve holds of every
  frame the call runs.
* `Call.exec`: a call is a run of the pool in which one task takes the steps.
* `call_sound`: what `Program.call` computes is a call.
-/

namespace CockatielEngine
namespace TaskPool

universe u v w x

variable {σ : Type u} {φ : Type v} {α : Type w} {ε : Type x}

section Defs

/-- The stack of frames `fs`, called in the state `s`, leaves the state `s'`;
the flag is false when it ends with an error that none of its frames
catches. -/
inductive Call (P : Program σ φ α ε) :
    σ → List φ → List (φ × α) → Bool → σ → Prop
  | returned (s : σ) : Call P s [] [] true s
  | step {s s' : σ} {f : φ} {a : α} {o : Outcome σ φ} {fs rest : List φ}
      {tr : List (φ × α)} {ok : Bool} :
      P.step s f a = some o →
      o.spawned = [] →
      o.next = some fs →
      Call P o.shared (fs ++ rest) tr ok s' →
      Call P s (f :: rest) ((f, a) :: tr) ok s'
  | failed {s : σ} {f : φ} {a : α} {o : Outcome σ φ} {rest : List φ} :
      P.step s f a = some o →
      o.spawned = [] →
      o.next = none →
      (∀ g ∈ rest, P.catches g = false) →
      Call P s (f :: rest) [(f, a)] false o.shared

/-- Run a call on the world's answers; the answers it did not use are left. -/
def Program.call (P : Program σ φ α ε) :
    σ → List φ → List α → Option (List (φ × α) × Bool × σ × List α)
  | s, [], answers => some ([], true, s, answers)
  | _, _ :: _, [] => none
  | s, f :: rest, a :: answers =>
      match P.step s f a with
      | none => none
      | some o =>
          if o.spawned.isEmpty then
            match o.next with
            | some fs =>
                (P.call o.shared (fs ++ rest) answers).map fun r =>
                  ((f, a) :: r.1, r.2)
            | none =>
                if rest.all fun g => !P.catches g then
                  some ([(f, a)], false, o.shared, answers)
                else none
          else none

end Defs

section Rules

variable {P : Program σ φ α ε}
variable {s s' : σ} {f : φ} {fs rest : List φ} {tr : List (φ × α)} {ok : Bool}

/-- A call of nothing returns at once. -/
theorem Call.nil_iff :
    Call P s [] tr ok s' ↔ tr = [] ∧ ok = true ∧ s' = s := by
  constructor
  · rintro ⟨⟩
    exact ⟨rfl, rfl, rfl⟩
  · rintro ⟨rfl, rfl, rfl⟩
    exact .returned _

/-- The first step of a call. -/
theorem Call.uncons
    (h : Call P s (f :: rest) tr ok s') :
    ∃ a o tr', P.step s f a = some o ∧ tr = (f, a) :: tr' ∧
      ((∃ fs, o.next = some fs ∧ Call P o.shared (fs ++ rest) tr' ok s') ∨
        o.next = none ∧ tr' = [] ∧ ok = false ∧ s' = o.shared) := by
  cases h with
  | step hstep _ hnext hcall =>
      exact ⟨_, _, _, hstep, rfl, Or.inl ⟨_, hnext, hcall⟩⟩
  | failed hstep _ hnext _ =>
      exact ⟨_, _, [], hstep, rfl, Or.inr ⟨hnext, rfl, rfl, rfl⟩⟩

/-- The invariant rule: `I` holds of the state and the stack before each step,
and a step that fails leaves a state in which `J` holds. -/
theorem Call.invariant
    (ok₀ : φ → α → Prop) (I : σ → List φ → Prop) (J : σ → Prop)
    (hnext : ∀ {s f a o fs rest}, I s (f :: rest) → ok₀ f a →
      P.step s f a = some o → o.next = some fs → I o.shared (fs ++ rest))
    (hfail : ∀ {s f a o rest}, I s (f :: rest) → ok₀ f a →
      P.step s f a = some o → o.next = none → J o.shared)
    (h : Call P s fs tr ok s')
    (hok : ∀ x ∈ tr, ok₀ x.1 x.2)
    (hinit : I s fs) :
    if ok then I s' [] else J s' := by
  induction h with
  | returned s => exact hinit
  | step hstep _ hnone _ ih =>
      exact ih (fun x hx => hok x (List.mem_cons_of_mem _ hx))
        (hnext hinit (hok _ (List.mem_cons_self ..)) hstep hnone)
  | failed hstep _ hnone _ =>
      exact hfail hinit (hok _ (List.mem_cons_self ..)) hstep hnone

/-- A property of frames that every step hands on to the frames it leaves. -/
theorem Call.mem_trace
    (Q : φ → Prop)
    (hstep : ∀ {s f a o fs}, Q f → P.step s f a = some o → o.next = some fs →
      ∀ g ∈ fs, Q g)
    (h : Call P s fs tr ok s')
    (hfs : ∀ g ∈ fs, Q g) :
    ∀ x ∈ tr, Q x.1 := by
  induction h with
  | returned s => simp
  | step hrun _ hnext _ ih =>
      have hf := hfs _ (List.mem_cons_self ..)
      intro x hx
      rcases List.mem_cons.mp hx with rfl | hx
      · exact hf
      · refine ih (fun g hg => ?_) x hx
        rcases List.mem_append.mp hg with hg | hg
        · exact hstep hf hrun hnext g hg
        · exact hfs g (List.mem_cons_of_mem _ hg)
  | failed _ _ _ _ =>
      intro x hx
      rw [List.mem_singleton.mp hx]
      exact hfs _ (List.mem_cons_self ..)

/-- Two runs in a row. -/
theorem exec_append
    (p : Pool σ φ) (ls ls' : List (Label α ε)) :
    P.exec p (ls ++ ls') = (P.exec p ls).bind fun p' => P.exec p' ls' := by
  induction ls generalizing p with
  | nil => rfl
  | cons l ls ih =>
      rw [List.cons_append, Program.exec, Program.exec, Option.bind_assoc]
      exact congrArg _ (funext ih)

/-- The stack left below a call. -/
def Program.after (P : Program σ φ α ε) (ok : Bool) (below : List φ) : List φ :=
  if ok then below else below.dropWhile fun g => !P.catches g

/-- A call is a run of the pool: the task that makes it takes the steps. -/
theorem Call.exec
    (h : Call P s fs tr ok s')
    {threads : List (List φ)} {i : Nat} {below : List φ}
    (hi : threads[i]? = some (fs ++ below)) :
    P.exec { shared := s, threads } (tr.map fun x => .run i x.2) =
      some { shared := s', threads := threads.set i (P.after ok below) } := by
  induction h generalizing threads with
  | returned s =>
      have hsame : threads.set i below = threads := by
        obtain ⟨hlt, hget⟩ := List.getElem?_eq_some_iff.mp hi
        rw [← show threads[i] = below from hget]
        exact List.set_getElem_self hlt
      simp [Program.exec, Program.after, hsame]
  | @step s s' f a o fs rest tr ok hrun hspawned hnext _ ih =>
      have hlt := (List.getElem?_eq_some_iff.mp hi).1
      have hthread : (threads.set i ((fs ++ rest) ++ below))[i]? =
          some ((fs ++ rest) ++ below) := by
        simp [hlt]
      have hfire : P.fire { shared := s, threads } (.run i a) =
          some { shared := o.shared
                 threads := threads.set i ((fs ++ rest) ++ below) } := by
        simp [Program.fire, hi, hrun, hnext, hspawned, Program.unwind]
      rw [List.map_cons, Program.exec, hfire, Option.bind_some, ih hthread,
        List.set_set]
  | @failed s f a o rest hrun hspawned hnext huncaught =>
      have hdrop : (rest ++ below).dropWhile (fun g => !P.catches g) =
          below.dropWhile fun g => !P.catches g :=
        List.dropWhile_append_of_pos fun g hg => by simp [huncaught g hg]
      simp [Program.exec, Program.fire, hi, hrun, hnext, hspawned,
        Program.unwind, Program.after, hdrop]

/-- What is computed is a call. -/
theorem call_sound
    {answers left : List α}
    (h : P.call s fs answers = some (tr, ok, s', left)) :
    Call P s fs tr ok s' := by
  induction answers generalizing s fs tr with
  | nil =>
      cases fs with
      | nil =>
          cases h
          exact .returned _
      | cons f rest => simp [Program.call] at h
  | cons a answers ih =>
      cases fs with
      | nil =>
          cases h
          exact .returned _
      | cons f rest =>
          simp only [Program.call] at h
          split at h
          · cases h
          · rename_i o hrun
            split at h
            · rename_i hspawned
              have hspawned : o.spawned = [] := List.isEmpty_iff.mp hspawned
              split at h
              · rename_i fs hnext
                obtain ⟨⟨tr', r⟩, hr, heq⟩ := Option.map_eq_some_iff.mp h
                obtain ⟨rfl, rfl⟩ := Prod.mk.inj heq
                exact .step hrun hspawned hnext (ih hr)
              · rename_i hnext
                split at h
                · rename_i huncaught
                  cases h
                  exact .failed hrun hspawned hnext (by simpa using huncaught)
                · cases h
            · cases h

end Rules

end TaskPool
end CockatielEngine
