import Mathlib.Data.List.Basic
import Mathlib.Algebra.Order.Group.Nat
import Mathlib.Tactic

/-!
# Task pools: interleaving of call stacks over a shared state

A small library for programs made of cooperative tasks.  A task is a call
stack of *frames*; a frame is one function of the program standing at one of
its suspension points.  A step runs the top frame of one task up to the next
suspension point: it reads and writes the shared state atomically, is replaced
by the frames that remain to be run, may spawn further tasks, and may fail, in
which case the error unwinds the stack to the nearest frame that catches it.

The environment acts through *events* (which change the shared state and start
tasks) and through *answers* (what the world returns to one step).  Both are
part of the label of a transition, so that the transition function itself is
executable.

**Rules.**
* `Reachable.invariant`: an invariant of every run whose steps meet a side
  condition.
* `ProofOutline.annotated`: the same with one assertion for each frame, in the
  manner of a proof outline with an interference-freedom obligation.
* `Pool.Waiting.fire`: what may wait under another frame of its stack.
* `total_fire_run_le`, `total_fire_run_of_next`, `weight_after_run`: bookkeeping
  for tokens held by frames.
* `exec_any`: a check at the end of a run.
* `allStates_iff_allSteps`: a property holds along a run exactly when every
  step of that run meets the side condition.
-/

namespace CockatielEngine
namespace TaskPool

universe u v w x

variable {σ : Type u} {φ : Type v} {α : Type w} {ε : Type x}

/-- What one atomic step of a frame leaves behind. -/
structure Outcome (σ : Type u) (φ : Type v) where
  /-- The shared state after the step. -/
  shared : σ
  /-- The frames that replace the one that ran; `none` when it failed. -/
  next : Option (List φ)
  /-- The call stacks of the tasks the step spawned. -/
  spawned : List (List φ)

/-- The frames a step brings into the pool. -/
def Outcome.new (o : Outcome σ φ) : List φ :=
  o.next.getD [] ++ o.spawned.flatten

/-- The step returned normally and the task goes on with `fs`. -/
def Outcome.thenRun (s : σ) (fs : List φ) : Outcome σ φ :=
  { shared := s, next := some fs, spawned := [] }

@[simp] theorem Outcome.shared_thenRun (s : σ) (fs : List φ) :
    (Outcome.thenRun s fs).shared = s := rfl

@[simp] theorem Outcome.new_thenRun (s : σ) (fs : List φ) :
    (Outcome.thenRun s fs).new = fs := by
  simp [Outcome.thenRun, Outcome.new]

/-- A program: its atomic steps, the frames that catch errors, and the events
through which the world starts its tasks. -/
structure Program (σ : Type u) (φ : Type v) (α : Type w) (ε : Type x) where
  step : σ → φ → α → Option (Outcome σ φ)
  catches : φ → Bool
  event : σ → ε → Option (σ × List (List φ))

/-- The shared state together with every task's call stack, innermost frame
first.  A finished task keeps its place with an empty stack. -/
structure Pool (σ : Type u) (φ : Type v) where
  shared : σ
  threads : List (List φ)

/-- One transition: task `i` takes a step on the world's answer `a`, or the
world acts. -/
inductive Label (α : Type w) (ε : Type x) where
  | run (i : Nat) (a : α)
  | world (ev : ε)

namespace Program

variable (P : Program σ φ α ε)

/-- The stack left when a frame returned `next` over `rest`. -/
def unwind : Option (List φ) → List φ → List φ
  | some fs, rest => fs ++ rest
  | none, rest => rest.dropWhile (fun f => !P.catches f)

/-- The transition function of the pool. -/
def fire (s : Pool σ φ) : Label α ε → Option (Pool σ φ)
  | .run i a =>
      match s.threads[i]? with
      | some (f :: rest) =>
          (P.step s.shared f a).map fun o =>
            { shared := o.shared
              threads := s.threads.set i (P.unwind o.next rest) ++ o.spawned }
      | _ => none
  | .world ev =>
      (P.event s.shared ev).map fun r =>
        { shared := r.1, threads := s.threads ++ r.2 }

/-- Run a list of labels, as long as each of them is enabled. -/
def exec (s : Pool σ φ) : List (Label α ε) → Option (Pool σ φ)
  | [] => some s
  | l :: ls => (P.fire s l).bind fun s' => exec s' ls

end Program

/-- The frame task `i` is about to run. -/
def Pool.top (s : Pool σ φ) (i : Nat) : Option φ :=
  (s.threads[i]?).bind List.head?

/-- A side condition on the frame a step runs; the world is free to act. -/
def OnRun (c : Pool σ φ → α → φ → Prop) (s : Pool σ φ) : Label α ε → Prop
  | .run i a => ∀ f ∈ s.top i, c s a f
  | .world _ => True

/-- All frames of all tasks. -/
def Pool.frames (s : Pool σ φ) : List φ :=
  s.threads.flatten

/-- The sum of a weight over all frames of the pool. -/
def Pool.total (w : φ → Nat) (s : Pool σ φ) : Nat :=
  (s.frames.map w).sum

instance (c : Pool σ φ → α → φ → Prop) [∀ s a f, Decidable (c s a f)]
    (s : Pool σ φ) (l : Label α ε) : Decidable (OnRun c s l) :=
  match l with
  | .run i a => inferInstanceAs (Decidable (∀ f ∈ s.top i, c s a f))
  | .world _ => .isTrue trivial

section Steps

variable {P : Program σ φ α ε}

theorem OnRun.top
    {c : Pool σ φ → α → φ → Prop} {s : Pool σ φ}
    {i : Nat} {a : α} {f : φ} {rest : List φ}
    (h : OnRun c s (.run i a : Label α ε))
    (hi : s.threads[i]? = some (f :: rest)) :
    c s a f :=
  h f (by simp [Pool.top, hi])

/-- Everything a step of a task does to the pool. -/
theorem fire_run_cases
    {s s' : Pool σ φ} {i : Nat} {a : α}
    (h : P.fire s (.run i a) = some s') :
    ∃ f rest o,
      s.threads[i]? = some (f :: rest) ∧
      P.step s.shared f a = some o ∧
      s' = { shared := o.shared
             threads := s.threads.set i (P.unwind o.next rest) ++ o.spawned } := by
  simp only [Program.fire] at h
  split at h
  · rename_i f rest hi
    obtain ⟨o, ho, rfl⟩ := Option.map_eq_some_iff.mp h
    exact ⟨f, rest, o, hi, ho, rfl⟩
  · cases h

/-- Everything a world event does to the pool. -/
theorem fire_world_cases
    {s s' : Pool σ φ} {ev : ε}
    (h : P.fire s (.world ev) = some s') :
    ∃ r, P.event s.shared ev = some r ∧
      s' = { shared := r.1, threads := s.threads ++ r.2 } := by
  obtain ⟨r, hr, rfl⟩ := Option.map_eq_some_iff.mp h
  exact ⟨r, hr, rfl⟩

/-- The frame a task is about to run belongs to the pool. -/
theorem mem_frames_of_getElem?
    {s : Pool σ φ} {i : Nat} {t : List φ} {f : φ}
    (hi : s.threads[i]? = some t)
    (hf : f ∈ t) :
    f ∈ s.frames :=
  List.mem_flatten.mpr ⟨t, List.mem_of_getElem? hi, hf⟩

/-- Unwinding an error only ever drops frames. -/
theorem mem_unwind
    {next : Option (List φ)} {rest : List φ} {g : φ}
    (hg : g ∈ P.unwind next rest) :
    g ∈ next.getD [] ∨ g ∈ rest := by
  cases next with
  | none =>
      exact Or.inr ((List.dropWhile_sublist _).subset hg)
  | some fs =>
      exact List.mem_append.mp hg

/-- A frame present after a step is new or was already there. -/
theorem mem_frames_after_run
    {s : Pool σ φ} {i : Nat} {f : φ} {rest : List φ} {o : Outcome σ φ} {g : φ}
    (hi : s.threads[i]? = some (f :: rest))
    (hg : g ∈ (s.threads.set i (P.unwind o.next rest) ++ o.spawned).flatten) :
    g ∈ o.new ∨ g ∈ s.frames := by
  obtain ⟨t, ht, hgt⟩ := List.mem_flatten.mp hg
  rcases List.mem_append.mp ht with ht | ht
  · rcases List.mem_or_eq_of_mem_set ht with ht | rfl
    · exact Or.inr (List.mem_flatten.mpr ⟨t, ht, hgt⟩)
    · rcases mem_unwind hgt with h | h
      · exact Or.inl (List.mem_append_left _ h)
      · exact Or.inr (mem_frames_of_getElem? hi (List.mem_cons_of_mem f h))
  · exact Or.inl (List.mem_append_right _ (List.mem_flatten.mpr ⟨t, ht, hgt⟩))

/-- What a step leaves behind is in the pool after it. -/
theorem mem_frames_of_new
    {s : Pool σ φ} {i : Nat} {f : φ} {rest : List φ} {o : Outcome σ φ} {g : φ}
    (hi : s.threads[i]? = some (f :: rest))
    (hg : g ∈ o.new) :
    g ∈ (s.threads.set i (P.unwind o.next rest) ++ o.spawned).flatten := by
  have hlt : i < s.threads.length := (List.getElem?_eq_some_iff.mp hi).1
  rw [List.flatten_append]
  rcases List.mem_append.mp hg with hg | hg
  · refine List.mem_append_left _ (List.mem_flatten.mpr
      ⟨P.unwind o.next rest, List.mem_set hlt _, ?_⟩)
    cases hn : o.next with
    | none => simp [hn] at hg
    | some fs =>
        rw [hn] at hg
        exact List.mem_append_left _ hg
  · exact List.mem_append_right _ hg

/-- A step that does not fail removes no other frame. -/
theorem mem_frames_of_ne
    {s : Pool σ φ} {i : Nat} {f : φ} {rest : List φ} {o : Outcome σ φ} {g : φ}
    (hi : s.threads[i]? = some (f :: rest))
    (hnext : o.next ≠ none)
    (hg : g ∈ s.frames)
    (hne : g ≠ f) :
    g ∈ (s.threads.set i (P.unwind o.next rest) ++ o.spawned).flatten := by
  obtain ⟨fs, hfs⟩ := Option.ne_none_iff_exists'.mp hnext
  obtain ⟨t, ht, hgt⟩ := List.mem_flatten.mp hg
  obtain ⟨j, hj⟩ := List.mem_iff_getElem?.mp ht
  have hlt : i < s.threads.length := (List.getElem?_eq_some_iff.mp hi).1
  rw [List.flatten_append]
  refine List.mem_append_left _ (List.mem_flatten.mpr ?_)
  by_cases hij : i = j
  · subst hij
    obtain rfl : f :: rest = t := Option.some.inj (hi.symm.trans hj)
    refine ⟨P.unwind o.next rest, List.mem_set hlt _, ?_⟩
    rw [hfs]
    exact List.mem_append_right _ ((List.mem_cons.mp hgt).resolve_left hne)
  · refine ⟨t, List.mem_iff_getElem?.mpr ⟨j, ?_⟩, hgt⟩
    rw [List.getElem?_set_ne hij]
    exact hj

/-- A step, failing or not, removes no frame of another task. -/
theorem mem_frames_of_not_mem
    {s : Pool σ φ} {i : Nat} {f : φ} {rest : List φ} {o : Outcome σ φ} {g : φ}
    (hi : s.threads[i]? = some (f :: rest))
    (hg : g ∈ s.frames)
    (hother : g ∉ f :: rest) :
    g ∈ (s.threads.set i (P.unwind o.next rest) ++ o.spawned).flatten := by
  obtain ⟨t, ht, hgt⟩ := List.mem_flatten.mp hg
  obtain ⟨j, hj⟩ := List.mem_iff_getElem?.mp ht
  have hij : i ≠ j := by
    rintro rfl
    obtain rfl : f :: rest = t := Option.some.inj (hi.symm.trans hj)
    exact hother hgt
  refine List.mem_flatten.mpr ⟨t, List.mem_append_left _ ?_, hgt⟩
  refine List.mem_iff_getElem?.mpr ⟨j, ?_⟩
  rw [List.getElem?_set_ne hij]
  exact hj

theorem mem_frames_after_world
    {s : Pool σ φ} {r : σ × List (List φ)} {g : φ}
    (hg : g ∈ (s.threads ++ r.2).flatten) :
    g ∈ s.frames ∨ g ∈ r.2.flatten := by
  rw [List.flatten_append] at hg
  exact List.mem_append.mp hg

end Steps

section Reachability

variable (P : Program σ φ α ε)

/-- The pools reached from `s₀` by runs of any length all of whose steps meet
`ok`. -/
inductive Reachable
    (ok : Pool σ φ → Label α ε → Prop) (s₀ : Pool σ φ) : Pool σ φ → Prop
  | start : Reachable ok s₀ s₀
  | step {s s' : Pool σ φ} {l : Label α ε} :
      Reachable ok s₀ s →
      ok s l →
      P.fire s l = some s' →
      Reachable ok s₀ s'

variable {P}
variable {ok : Pool σ φ → Label α ε → Prop} {s₀ : Pool σ φ}

/-- The invariant rule. -/
theorem Reachable.invariant
    {I : Pool σ φ → Prop}
    (hinit : I s₀)
    (hstep : ∀ {s s' l}, I s → ok s l → P.fire s l = some s' → I s')
    {s : Pool σ φ}
    (hs : Reachable P ok s₀ s) :
    I s := by
  induction hs with
  | start => exact hinit
  | step _ hok hfire ih => exact hstep ih hok hfire

/-- Weakening the side condition keeps a pool reachable. -/
theorem Reachable.mono
    {ok' : Pool σ φ → Label α ε → Prop}
    (hok : ∀ s l, ok s l → ok' s l)
    {s : Pool σ φ}
    (hs : Reachable P ok s₀ s) :
    Reachable P ok' s₀ s := by
  induction hs with
  | start => exact .start
  | step _ h hfire ih => exact .step ih (hok _ _ h) hfire

end Reachability

section Annotations

variable (P : Program σ φ α ε)

/-- Every frame of the pool satisfies its assertion, and the shared state its
invariant. -/
def Annotated
    (I : σ → Prop) (A : σ → φ → Prop) (s : Pool σ φ) : Prop :=
  I s.shared ∧ ∀ f ∈ s.frames, A s.shared f

/-- The obligations of a proof outline: a step establishes the assertions of
the frames it leaves behind and does not interfere with those of the other
frames of the pool. -/
structure ProofOutline
    (ok : Pool σ φ → Label α ε → Prop)
    (I : σ → Prop) (A : σ → φ → Prop) : Prop where
  run : ∀ {s i a f rest o},
    Annotated I A s →
    ok s (.run i a) →
    s.threads[i]? = some (f :: rest) →
    P.step s.shared f a = some o →
    I o.shared ∧ (∀ g ∈ o.new, A o.shared g) ∧
      (∀ g ∈ s.frames, A s.shared g → A o.shared g)
  world : ∀ {s ev r},
    Annotated I A s →
    ok s (.world ev) →
    P.event s.shared ev = some r →
    I r.1 ∧ (∀ g ∈ r.2.flatten, A r.1 g) ∧
      (∀ g ∈ s.frames, A s.shared g → A r.1 g)

variable {P}
variable {ok : Pool σ φ → Label α ε → Prop}
variable {I : σ → Prop} {A : σ → φ → Prop}

theorem ProofOutline.fire
    (hP : ProofOutline P ok I A)
    {s s' : Pool σ φ} {l : Label α ε}
    (hs : Annotated I A s)
    (hok : ok s l)
    (h : P.fire s l = some s') :
    Annotated I A s' := by
  cases l with
  | run i a =>
      obtain ⟨f, rest, o, hi, ho, rfl⟩ := fire_run_cases h
      obtain ⟨hI, hnew, hold⟩ := hP.run hs hok hi ho
      refine ⟨hI, fun g hg => ?_⟩
      rcases mem_frames_after_run hi hg with hg | hg
      · exact hnew g hg
      · exact hold g hg (hs.2 g hg)
  | world ev =>
      obtain ⟨r, hr, rfl⟩ := fire_world_cases h
      obtain ⟨hI, hnew, hold⟩ := hP.world hs hok hr
      refine ⟨hI, fun g hg => ?_⟩
      rcases mem_frames_after_world hg with hg | hg
      · exact hold g hg (hs.2 g hg)
      · exact hnew g hg

/-- A proof outline holds in every pool a run reaches. -/
theorem ProofOutline.annotated
    (hP : ProofOutline P ok I A)
    {s₀ s : Pool σ φ}
    (h₀ : Annotated I A s₀)
    (hs : Reachable P ok s₀ s) :
    Annotated I A s :=
  hs.invariant h₀ hP.fire

end Annotations

section Stacks

/-- Some task is about to run `g`. -/
def Pool.Standing (g : φ) (s : Pool σ φ) : Prop :=
  ∃ t ∈ s.threads, t.head? = some g

instance [DecidableEq φ] (g : φ) (s : Pool σ φ) : Decidable (s.Standing g) :=
  inferInstanceAs (Decidable (∃ t ∈ s.threads, t.head? = some g))

/-- Every frame that waits under another one satisfies `q`. -/
def Pool.Waiting (q : φ → Prop) (s : Pool σ φ) : Prop :=
  ∀ t ∈ s.threads, ∀ g ∈ t.tail, q g

/-- Only frames that satisfy `q` are ever left waiting under another one. -/
structure Program.LeavesWaiting (P : Program σ φ α ε) (q : φ → Prop) : Prop where
  next : ∀ {e f a o fs}, P.step e f a = some o →
    o.next = some fs → ∀ g ∈ fs.tail, q g
  spawned : ∀ {e f a o}, P.step e f a = some o →
    ∀ t ∈ o.spawned, ∀ g ∈ t.tail, q g
  event : ∀ {e ev r}, P.event e ev = some r → ∀ t ∈ r.2, ∀ g ∈ t.tail, q g

variable {P : Program σ φ α ε} {q : φ → Prop}

theorem waiting_of_getElem?
    {s : Pool σ φ} {i : Nat} {f : φ} {rest : List φ}
    (hs : s.Waiting q)
    (hi : s.threads[i]? = some (f :: rest)) :
    ∀ g ∈ rest, q g :=
  hs (f :: rest) (List.mem_of_getElem? hi)

/-- The stack left by a step again has only `q` frames below its top. -/
theorem waiting_unwind
    {next : Option (List φ)} {rest : List φ}
    (hnext : ∀ fs, next = some fs → ∀ g ∈ fs.tail, q g)
    (hrest : ∀ g ∈ rest, q g) :
    ∀ g ∈ (P.unwind next rest).tail, q g := by
  intro g hg
  cases next with
  | none =>
      exact hrest g
        ((List.dropWhile_sublist _).subset (List.mem_of_mem_tail hg))
  | some fs =>
      cases fs with
      | nil =>
          exact hrest g (List.mem_of_mem_tail hg)
      | cons f fs =>
          rcases List.mem_append.mp hg with hg | hg
          · exact hnext _ rfl g hg
          · exact hrest g hg

theorem Pool.Waiting.fire
    (hP : P.LeavesWaiting q)
    {s s' : Pool σ φ} {l : Label α ε}
    (hs : s.Waiting q)
    (h : P.fire s l = some s') :
    s'.Waiting q := by
  cases l with
  | run i a =>
      obtain ⟨f, rest, o, hi, ho, rfl⟩ := fire_run_cases h
      intro t ht
      rcases List.mem_append.mp ht with ht | ht
      · rcases List.mem_or_eq_of_mem_set ht with ht | rfl
        · exact hs t ht
        · exact waiting_unwind (fun fs => hP.next ho)
            (waiting_of_getElem? hs hi)
      · exact hP.spawned ho t ht
  | world ev =>
      obtain ⟨r, hr, rfl⟩ := fire_world_cases h
      intro t ht
      rcases List.mem_append.mp ht with ht | ht
      · exact hs t ht
      · exact hP.event hr t ht

/-- A task that stands before `g` goes on standing there while others run. -/
theorem Pool.Standing.run
    {s : Pool σ φ} {i : Nat} {f g : φ} {rest : List φ} {o : Outcome σ φ}
    (hg : s.Standing g)
    (hi : s.threads[i]? = some (f :: rest))
    (hne : g ≠ f) :
    Pool.Standing g
      { shared := o.shared
        threads := s.threads.set i (P.unwind o.next rest) ++ o.spawned } := by
  obtain ⟨t, ht, hhead⟩ := hg
  obtain ⟨j, hj⟩ := List.mem_iff_getElem?.mp ht
  have hij : i ≠ j := by
    rintro rfl
    obtain rfl : f :: rest = t := Option.some.inj (hi.symm.trans hj)
    exact hne (Option.some.inj hhead).symm
  refine ⟨t, List.mem_append_left _ (List.mem_iff_getElem?.mpr ⟨j, ?_⟩), hhead⟩
  rw [List.getElem?_set_ne hij]
  exact hj

/-- The task that ran stands before the first frame the step left it. -/
theorem standing_of_next
    {s : Pool σ φ} {i : Nat} {f g : φ} {rest fs : List φ} {o : Outcome σ φ}
    (hi : s.threads[i]? = some (f :: rest))
    (hnext : o.next = some (g :: fs)) :
    Pool.Standing g
      { shared := o.shared
        threads := s.threads.set i (P.unwind o.next rest) ++ o.spawned } := by
  have hlt : i < s.threads.length := (List.getElem?_eq_some_iff.mp hi).1
  refine ⟨P.unwind o.next rest,
    List.mem_append_left _ (List.mem_iff_getElem?.mpr ⟨i, ?_⟩), ?_⟩
  · rw [List.getElem?_set_self hlt]
  · rw [hnext]
    rfl

theorem Pool.Standing.world
    {s : Pool σ φ} {g : φ} {r : σ × List (List φ)}
    (hg : s.Standing g) :
    Pool.Standing g { shared := r.1, threads := s.threads ++ r.2 } := by
  obtain ⟨t, ht, hhead⟩ := hg
  exact ⟨t, List.mem_append_left _ ht, hhead⟩

/-- Whatever a task stands before can be run next; the other tasks stay where
they stand. -/
theorem Reachable.run_standing
    {c : Pool σ φ → α → φ → Prop} {s₀ s : Pool σ φ}
    {f : φ} {a : α} {o : Outcome σ φ}
    (hs : Reachable P (OnRun c) s₀ s)
    (hf : s.Standing f)
    (hc : c s a f)
    (ho : P.step s.shared f a = some o) :
    ∃ s', Reachable P (OnRun c) s₀ s' ∧ s'.shared = o.shared ∧
      (∀ g fs, o.next = some (g :: fs) → s'.Standing g) ∧
      ∀ g, s.Standing g → g ≠ f → s'.Standing g := by
  obtain ⟨t, ht, hhead⟩ := hf
  obtain ⟨i, hi⟩ := List.mem_iff_getElem?.mp ht
  obtain ⟨rest, rfl⟩ : ∃ rest, t = f :: rest := by
    cases t with
    | nil => cases hhead
    | cons g rest => exact ⟨rest, by rw [Option.some.inj hhead]⟩
  have hfire : P.fire s (.run i a) =
      some { shared := o.shared
             threads := s.threads.set i (P.unwind o.next rest) ++ o.spawned } := by
    simp [Program.fire, hi, ho]
  refine ⟨_, .step hs ?_ hfire, rfl, ?_, ?_⟩
  · intro g hg
    obtain rfl : f = g := by simpa [Pool.top, hi] using hg
    exact hc
  · exact fun g fs hnext => standing_of_next hi hnext
  · exact fun g hg hne => hg.run hi hne

/-- Where nothing waits, some task stands before every frame. -/
theorem standing_of_mem
    {s : Pool σ φ} {g : φ}
    (hs : s.Waiting (fun _ => False))
    (hg : g ∈ s.frames) :
    s.Standing g := by
  obtain ⟨t, ht, hgt⟩ := List.mem_flatten.mp hg
  refine ⟨t, ht, ?_⟩
  cases t with
  | nil => cases hgt
  | cons f rest =>
      rcases List.mem_cons.mp hgt with rfl | hrest
      · rfl
      · exact (hs _ ht g hrest).elim

/-- A frame some task stands before after a step was stood before already, is
new, or had been waiting. -/
theorem standing_after_run
    {s : Pool σ φ} {i : Nat} {f g : φ} {rest : List φ} {o : Outcome σ φ}
    (hs : s.Waiting q)
    (hi : s.threads[i]? = some (f :: rest))
    (hg : Pool.Standing g
      { shared := o.shared
        threads := s.threads.set i (P.unwind o.next rest) ++ o.spawned }) :
    s.Standing g ∨ g ∈ o.new ∨ q g := by
  obtain ⟨t, ht, hhead⟩ := hg
  have hmem : g ∈ t := List.mem_of_mem_head? hhead
  rcases List.mem_append.mp ht with ht | ht
  · rcases List.mem_or_eq_of_mem_set ht with ht | rfl
    · exact Or.inl ⟨t, ht, hhead⟩
    · rcases mem_unwind hmem with h | h
      · exact Or.inr (Or.inl (List.mem_append_left _ h))
      · exact Or.inr (Or.inr (waiting_of_getElem? hs hi g h))
  · exact Or.inr (Or.inl
      (List.mem_append_right _ (List.mem_flatten.mpr ⟨t, ht, hmem⟩)))

/-- Some task is about to run a frame that satisfies `p`. -/
def Pool.AtTop (p : φ → Prop) (s : Pool σ φ) : Prop :=
  ∃ t ∈ s.threads, ∃ f ∈ t.head?, p f

instance (p : φ → Prop) [DecidablePred p] (s : Pool σ φ) :
    Decidable (s.AtTop p) :=
  inferInstanceAs (Decidable (∃ t ∈ s.threads, ∃ f ∈ t.head?, p f))

theorem atTop_iff
    {p : φ → Prop} {s : Pool σ φ} :
    s.AtTop p ↔ ∃ f, s.Standing f ∧ p f := by
  constructor
  · rintro ⟨t, ht, f, hf, hp⟩
    exact ⟨f, ⟨t, ht, hf⟩, hp⟩
  · rintro ⟨f, ⟨t, ht, hf⟩, hp⟩
    exact ⟨t, ht, f, hf, hp⟩

section AtTop

variable {p : φ → Prop}
variable {s : Pool σ φ} {i : Nat} {f : φ} {rest : List φ} {o : Outcome σ φ}

theorem Pool.AtTop.run
    (h : s.AtTop p)
    (hi : s.threads[i]? = some (f :: rest))
    (hf : ¬ p f) :
    Pool.AtTop p
      { shared := o.shared
        threads := s.threads.set i (P.unwind o.next rest) ++ o.spawned } := by
  obtain ⟨g, hg, hp⟩ := atTop_iff.mp h
  exact atTop_iff.mpr ⟨g, hg.run hi (by rintro rfl; exact hf hp), hp⟩

theorem atTop_of_next
    {g : φ} {fs : List φ}
    (hi : s.threads[i]? = some (f :: rest))
    (hnext : o.next = some (g :: fs))
    (hg : p g) :
    Pool.AtTop p
      { shared := o.shared
        threads := s.threads.set i (P.unwind o.next rest) ++ o.spawned } :=
  atTop_iff.mpr ⟨g, standing_of_next hi hnext, hg⟩

theorem atTop_of_getElem?
    (hi : s.threads[i]? = some (f :: rest))
    (hf : p f) :
    s.AtTop p :=
  ⟨f :: rest, List.mem_of_getElem? hi, f, rfl, hf⟩

theorem atTop_of_top
    (hf : f ∈ s.top i)
    (hp : p f) :
    s.AtTop p := by
  obtain ⟨t, ht, hhead⟩ := Option.bind_eq_some_iff.mp hf
  exact ⟨t, List.mem_of_getElem? ht, f, hhead, hp⟩

theorem Pool.AtTop.world
    {r : σ × List (List φ)}
    (h : s.AtTop p) :
    Pool.AtTop p { shared := r.1, threads := s.threads ++ r.2 } := by
  obtain ⟨g, hg, hp⟩ := atTop_iff.mp h
  exact atTop_iff.mpr ⟨g, hg.world, hp⟩

/-- What is at a top after a step was at one before or is new. -/
theorem atTop_after_run
    (hs : s.Waiting q)
    (hq : ∀ g, q g → ¬ p g)
    (hi : s.threads[i]? = some (f :: rest))
    (h : Pool.AtTop p
      { shared := o.shared
        threads := s.threads.set i (P.unwind o.next rest) ++ o.spawned }) :
    s.AtTop p ∨ ∃ g ∈ o.new, p g := by
  obtain ⟨g, hg, hp⟩ := atTop_iff.mp h
  rcases standing_after_run hs hi hg with hg | hg | hg
  · exact Or.inl (atTop_iff.mpr ⟨g, hg, hp⟩)
  · exact Or.inr ⟨g, hg, hp⟩
  · exact absurd hp (hq g hg)

theorem atTop_after_world
    {r : σ × List (List φ)}
    (h : Pool.AtTop p { shared := r.1, threads := s.threads ++ r.2 }) :
    s.AtTop p ∨ ∃ g ∈ r.2.flatten, p g := by
  obtain ⟨t, ht, g, hg, hp⟩ := h
  rcases List.mem_append.mp ht with ht | ht
  · exact Or.inl ⟨t, ht, g, hg, hp⟩
  · exact Or.inr
      ⟨g, List.mem_flatten.mpr ⟨t, ht, List.mem_of_mem_head? hg⟩, hp⟩

end AtTop

end Stacks

section Totals

variable {P : Program σ φ α ε}

theorem le_total
    (w : φ → Nat) {s : Pool σ φ} {f : φ}
    (hf : f ∈ s.frames) :
    w f ≤ s.total w :=
  List.single_le_sum (by simp) _ (List.mem_map_of_mem hf)

/-- Two frames of a pool weigh no more than all of them. -/
theorem add_le_total
    (w : φ → Nat) {s : Pool σ φ} {f g : φ}
    (hf : f ∈ s.frames)
    (hg : g ∈ s.frames)
    (hne : f ≠ g) :
    w f + w g ≤ s.total w := by
  obtain ⟨l, hl⟩ := List.mem_iff_append.mp hf
  obtain ⟨r, hlr⟩ := hl
  have hmem : g ∈ l ++ r := by
    rw [hlr] at hg
    rcases List.mem_append.mp hg with hg | hg
    · exact List.mem_append_left _ hg
    · exact List.mem_append_right _ ((List.mem_cons.mp hg).resolve_left hne.symm)
  have hle := List.single_le_sum (l := (l ++ r).map w) (by simp) _
    (List.mem_map_of_mem hmem)
  simp only [Pool.total, hlr, List.map_append, List.map_cons, List.sum_append,
    List.sum_cons] at hle ⊢
  omega

/-- Replacing one stack moves the total by the difference of the two. -/
theorem sum_flatten_set
    (w : φ → Nat) (t' : List φ) {ts : List (List φ)} {i : Nat} {t : List φ}
    (hi : ts[i]? = some t) :
    (((ts.set i t').flatten).map w).sum + (t.map w).sum =
      ((ts.flatten).map w).sum + (t'.map w).sum := by
  induction ts generalizing i with
  | nil =>
      simp at hi
  | cons u ts ih =>
      cases i with
      | zero =>
          obtain rfl : u = t := by simpa using hi
          simp only [List.set_cons_zero, List.flatten_cons, List.map_append,
            List.sum_append]
          omega
      | succ i =>
          have h := ih (i := i) (by simpa using hi)
          simp only [List.set_cons_succ, List.flatten_cons, List.map_append,
            List.sum_append]
          omega

/-- A step can only trade the weight of the frame that ran for the weight of
the frames it leaves behind: errors drop frames. -/
theorem total_fire_run_le
    (w : φ → Nat)
    {s : Pool σ φ} {i : Nat} {f : φ} {rest : List φ} {o : Outcome σ φ}
    (hi : s.threads[i]? = some (f :: rest)) :
    Pool.total w
        { shared := o.shared
          threads := s.threads.set i (P.unwind o.next rest) ++ o.spawned } + w f ≤
      s.total w + (o.new.map w).sum := by
  have hset := sum_flatten_set w (P.unwind o.next rest) hi
  have hunwind :
      ((P.unwind o.next rest).map w).sum ≤
        ((o.next.getD []).map w).sum + (rest.map w).sum := by
    cases hn : o.next with
    | none =>
        have hsub := List.dropWhile_sublist (l := rest) (fun f => !P.catches f)
        simpa [Program.unwind] using (hsub.map w).sum_le_sum (by simp)
    | some fs =>
        simp [Program.unwind]
  simp only [Pool.total, Pool.frames, Outcome.new, List.flatten_append,
    List.map_append, List.sum_append, List.map_cons, List.sum_cons] at hset ⊢
  omega

/-- A step that does not fail trades exactly the weight of its frame. -/
theorem total_fire_run_of_next
    (w : φ → Nat)
    {s : Pool σ φ} {i : Nat} {f : φ} {rest fs : List φ} {o : Outcome σ φ}
    (hi : s.threads[i]? = some (f :: rest))
    (hnext : o.next = some fs) :
    Pool.total w
        { shared := o.shared
          threads := s.threads.set i (P.unwind o.next rest) ++ o.spawned } + w f =
      s.total w + (o.new.map w).sum := by
  have hset := sum_flatten_set w (P.unwind o.next rest) hi
  simp only [Pool.total, Pool.frames, Outcome.new, hnext, Program.unwind,
    Option.getD_some, List.flatten_append, List.map_append, List.sum_append,
    List.map_cons, List.sum_cons] at hset ⊢
  omega

/-- A frame present after a step is new, or was there beside the frame that
ran. -/
theorem weight_after_run
    (w : φ → Nat)
    {s : Pool σ φ} {i : Nat} {f : φ} {rest : List φ} {o : Outcome σ φ} {g : φ}
    (hi : s.threads[i]? = some (f :: rest))
    (hg : g ∈ (s.threads.set i (P.unwind o.next rest) ++ o.spawned).flatten) :
    g ∈ o.new ∨ (g ∈ s.frames ∧ w g + w f ≤ s.total w) := by
  have hset := sum_flatten_set w [] hi
  simp only [List.map_cons, List.sum_cons, List.map_nil, List.sum_nil,
    Nat.add_zero] at hset
  have hle {l : List φ} (hmem : g ∈ l) : w g ≤ (l.map w).sum :=
    List.single_le_sum (by simp) _ (List.mem_map_of_mem hmem)
  obtain ⟨t, ht, hgt⟩ := List.mem_flatten.mp hg
  rcases List.mem_append.mp ht with ht | ht
  · obtain ⟨j, hj⟩ := List.mem_iff_getElem?.mp ht
    by_cases hij : i = j
    · subst hij
      rw [List.getElem?_set_self (List.getElem?_eq_some_iff.mp hi).1] at hj
      obtain rfl := Option.some.inj hj
      rcases mem_unwind hgt with hnew | hrest
      · exact Or.inl (List.mem_append_left _ hnew)
      · have hbelow := hle hrest
        refine Or.inr
          ⟨mem_frames_of_getElem? hi (List.mem_cons_of_mem f hrest), ?_⟩
        simp only [Pool.total, Pool.frames]
        omega
    · have hother : g ∈ (s.threads.set i []).flatten := by
        rw [List.getElem?_set_ne hij] at hj
        exact List.mem_flatten.mpr ⟨t, List.mem_iff_getElem?.mpr
          ⟨j, by rw [List.getElem?_set_ne hij]; exact hj⟩, hgt⟩
      rw [List.getElem?_set_ne hij] at hj
      have hbeside := hle hother
      refine Or.inr ⟨mem_frames_of_getElem? hj hgt, ?_⟩
      simp only [Pool.total, Pool.frames]
      omega
  · exact Or.inl (List.mem_append_right _ (List.mem_flatten.mpr ⟨t, ht, hgt⟩))

/-- A world event adds the weight of the tasks it starts. -/
theorem total_fire_world
    (w : φ → Nat)
    {s : Pool σ φ} {r : σ × List (List φ)} :
    Pool.total w { shared := r.1, threads := s.threads ++ r.2 } =
      s.total w + (r.2.flatten.map w).sum := by
  simp [Pool.total, Pool.frames]

end Totals

section WholeRuns

variable (P : Program σ φ α ε)

/-- `Q` holds in every pool along the run of `ls` from `s`. -/
def AllStates
    (Q : Pool σ φ → Prop) : Pool σ φ → List (Label α ε) → Prop
  | s, [] => Q s
  | s, l :: ls => Q s ∧ ∀ s', P.fire s l = some s' → AllStates Q s' ls

/-- `ok` holds of every step along the run of `ls` from `s`. -/
def AllSteps
    (ok : Pool σ φ → Label α ε → Prop) : Pool σ φ → List (Label α ε) → Prop
  | _, [] => True
  | s, l :: ls => ok s l ∧ ∀ s', P.fire s l = some s' → AllSteps ok s' ls

/-- The side condition of a run can be checked by running it. -/
instance decidableAllSteps (ok : Pool σ φ → Label α ε → Prop)
    [∀ s l, Decidable (ok s l)] :
    (ls : List (Label α ε)) → (s : Pool σ φ) → Decidable (AllSteps P ok s ls)
  | [], _ => .isTrue trivial
  | l :: ls, s =>
      match h : P.fire s l with
      | none =>
          decidable_of_iff (ok s l)
            ⟨fun hok => ⟨hok, fun s' hs' => by simp [h] at hs'⟩, fun hall => hall.1⟩
      | some s' =>
          have := decidableAllSteps ok ls s'
          decidable_of_iff (ok s l ∧ AllSteps P ok s' ls)
            ⟨fun hall => ⟨hall.1, fun t ht => by
                obtain rfl : s' = t := Option.some.inj (h.symm.trans ht)
                exact hall.2⟩,
              fun hall => ⟨hall.1, hall.2 s' h⟩⟩

variable {P}
variable {ok : Pool σ φ → Label α ε → Prop} {Q I : Pool σ φ → Prop}

/-- A side condition on the labels alone is checked label by label. -/
theorem allSteps_of_forall
    {s : Pool σ φ} {ls : List (Label α ε)}
    (h : ∀ l ∈ ls, ∀ s, ok s l) :
    AllSteps P ok s ls := by
  induction ls generalizing s with
  | nil => trivial
  | cons l ls ih =>
      exact ⟨h l List.mem_cons_self s,
        fun s' _ => ih fun l' hl' => h l' (List.mem_cons_of_mem _ hl')⟩

/-- A run all of whose steps meet the side condition reaches its end. -/
theorem reachable_of_allSteps
    {s₀ s s' : Pool σ φ} (ls : List (Label α ε))
    (hs : Reachable P ok s₀ s)
    (hall : AllSteps P ok s ls)
    (hrun : P.exec s ls = some s') :
    Reachable P ok s₀ s' := by
  induction ls generalizing s with
  | nil =>
      cases hrun
      exact hs
  | cons l ls ih =>
      obtain ⟨s₁, hfire, hrest⟩ := Option.bind_eq_some_iff.mp hrun
      exact ih (.step hs hall.1 hfire) (hall.2 s₁ hfire) hrest

/-- What holds at the end of a run can be checked by running it. -/
theorem exec_any
    {Q : Pool σ φ → Prop} [∀ s, Decidable (Q s)]
    (s : Pool σ φ) (ls : List (Label α ε))
    (h : (P.exec s ls).any (fun s' => decide (Q s')) = true) :
    ∃ s', P.exec s ls = some s' ∧ Q s' := by
  obtain ⟨s', hrun, hQ⟩ := (Option.any_eq_true _ _).mp h
  exact ⟨s', hrun, of_decide_eq_true hQ⟩

/-- When a step that breaks `ok` breaks `Q` at once, a run keeps `Q` exactly
when all of its steps meet `ok`. -/
theorem allStates_iff_allSteps
    (hQ : ∀ {s}, I s → Q s)
    (hkeep : ∀ {s s' l}, I s → ok s l → P.fire s l = some s' → I s')
    (hbreak : ∀ {s s' l}, I s → P.fire s l = some s' → Q s' → ok s l)
    {s : Pool σ φ} {ls : List (Label α ε)}
    (hs : I s)
    (hrun : (P.exec s ls).isSome) :
    AllStates P Q s ls ↔ AllSteps P ok s ls := by
  induction ls generalizing s with
  | nil =>
      exact ⟨fun _ => trivial, fun _ => hQ hs⟩
  | cons l ls ih =>
      obtain ⟨s', hfire⟩ : ∃ s', P.fire s l = some s' := by
        cases h : P.fire s l with
        | none => simp [Program.exec, h] at hrun
        | some s' => exact ⟨s', rfl⟩
      have hrest : (P.exec s' ls).isSome := by
        simpa [Program.exec, hfire] using hrun
      constructor
      · rintro ⟨_, hall⟩
        have htail := hall s' hfire
        have hok : ok s l := by
          apply hbreak hs hfire
          cases ls with
          | nil => exact htail
          | cons _ _ => exact htail.1
        refine ⟨hok, fun t ht => ?_⟩
        obtain rfl : s' = t := Option.some.inj (hfire.symm.trans ht)
        exact (ih (hkeep hs hok hfire) hrest).mp htail
      · rintro ⟨hok, hall⟩
        refine ⟨hQ hs, fun t ht => ?_⟩
        obtain rfl : s' = t := Option.some.inj (hfire.symm.trans ht)
        exact (ih (hkeep hs hok hfire) hrest).mpr (hall s' hfire)

end WholeRuns

end TaskPool
end CockatielEngine
