import CockatielEngine.Concurrency.TaskPool

/-!
# Task pools: books kept beside a program

A program whose answers come from somewhere can be run together with that place.
The *books* are a state beside the shared one: from them and from what the world
says a step's answer is worked out, the step is entered in them, and the world
may change them.  The program itself does not see them.

**Rules.**
* `fire_forget`: a transition with the books is, without them, a transition of
  the program, or nothing at all.
* `Reachable.forget`: so every invariant of the program holds beside the books.
-/

namespace CockatielEngine
namespace TaskPool

universe u v w x

variable {σ : Type u} {φ : Type v} {α : Type w} {ε : Type x} {τ β δ : Type}

/-- Books that work out the answers to a program's steps. -/
structure Books (φ : Type v) (α : Type w) (τ β δ : Type) where
  /-- The answer to the step of a frame, from what the world says. -/
  answer : τ → φ → β → α
  /-- What the step of a frame leaves in the books. -/
  enter : τ → φ → β → τ
  /-- What the world does to the books. -/
  event : τ → δ → τ

/-- The program together with the books. -/
def Program.withBooks (P : Program σ φ α ε) (B : Books φ α τ β δ) :
    Program (σ × τ) φ β (ε ⊕ δ) where
  step e f b :=
    (P.step e.1 f (B.answer e.2 f b)).map fun o =>
      { shared := (o.shared, B.enter e.2 f b)
        next := o.next
        spawned := o.spawned }
  catches := P.catches
  event e
    | .inl ev => (P.event e.1 ev).map fun r => ((r.1, e.2), r.2)
    | .inr d => some ((e.1, B.event e.2 d), [])

/-- The pool without the books. -/
def Pool.forget (s : Pool (σ × τ) φ) : Pool σ φ :=
  { shared := s.shared.1, threads := s.threads }

@[simp] theorem Pool.shared_forget (s : Pool (σ × τ) φ) :
    s.forget.shared = s.shared.1 := rfl

@[simp] theorem Pool.threads_forget (s : Pool (σ × τ) φ) :
    s.forget.threads = s.threads := rfl

variable {P : Program σ φ α ε} {B : Books φ α τ β δ}
variable {s s' s₀ : Pool (σ × τ) φ}

/-- Everything a step of a task does to the pool and to the books. -/
theorem fire_run_withBooks
    {i : Nat} {b : β}
    (h : (P.withBooks B).fire s (.run i b) = some s') :
    ∃ f rest o,
      s.threads[i]? = some (f :: rest) ∧
      P.step s.shared.1 f (B.answer s.shared.2 f b) = some o ∧
      s' = { shared := (o.shared, B.enter s.shared.2 f b)
             threads := s.threads.set i (P.unwind o.next rest) ++ o.spawned } := by
  obtain ⟨f, rest, o', hi, ho', rfl⟩ := fire_run_cases h
  obtain ⟨o, ho, rfl⟩ := Option.map_eq_some_iff.mp ho'
  exact ⟨f, rest, o, hi, ho, rfl⟩

/-- A transition with the books is one of the program, or leaves its pool as it
is. -/
theorem fire_forget
    {l : Label β (ε ⊕ δ)}
    (h : (P.withBooks B).fire s l = some s') :
    (∃ l', P.fire s.forget l' = some s'.forget) ∨ s'.forget = s.forget := by
  cases l with
  | run i b =>
      obtain ⟨f, rest, o, hi, ho, rfl⟩ := fire_run_withBooks h
      refine Or.inl ⟨.run i (B.answer s.shared.2 f b), ?_⟩
      simp [Program.fire, Pool.forget, hi, ho]
  | world ev =>
      obtain ⟨r, hr, rfl⟩ := fire_world_cases h
      cases ev with
      | inl ev =>
          obtain ⟨r', hr', rfl⟩ := Option.map_eq_some_iff.mp hr
          exact Or.inl ⟨.world ev, by simp [Program.fire, Pool.forget, hr']⟩
      | inr d =>
          obtain rfl := Option.some.inj hr
          exact Or.inr (by simp [Pool.forget])

/-- What a run with the books reaches, the program reaches without them. -/
theorem Reachable.forget
    {ok : Pool (σ × τ) φ → Label β (ε ⊕ δ) → Prop}
    (hs : Reachable (P.withBooks B) ok s₀ s) :
    Reachable P (fun _ _ => True) s₀.forget s.forget := by
  induction hs with
  | start => exact .start
  | step _ _ hfire ih =>
      rcases fire_forget hfire with ⟨l', hl'⟩ | heq
      · exact .step ih trivial hl'
      · rwa [heq]

end TaskPool
end CockatielEngine
