import CockatielEngine.Concurrency.TaskPool

/-!
# Task pools: a resource behind a lock

A lock belongs to at most one task.  While nobody holds it, what it protects
satisfies the resource invariant; while a task holds it, that task's frame says
what holds instead.  No other frame has to say anything about the resource.

**Rules.**
* `Lock.Guards.run`: a step that acts inside the lock hands it on to one frame,
  whose assertion it establishes, or gives it back with the resource invariant
  restored.
* `Lock.Guards.world`: a move of the world leaves the lock alone and keeps what
  is said about the resource.
-/

namespace CockatielEngine
namespace TaskPool

universe u v w x

variable {σ : Type u} {φ : Type v} {α : Type w} {ε : Type x}

section Defs

/-- A lock: the frames that hold it, and whether the shared state has it
taken. -/
structure Lock (σ : Type u) (φ : Type v) where
  holds : φ → Bool
  taken : σ → Bool

namespace Lock

variable (L : Lock σ φ) (R : σ → Prop) (A : σ → φ → Prop)

/-- A frame that holds the lock weighs one. -/
def weight (f : φ) : Nat :=
  (L.holds f).toNat

/-- The lock guards a resource: `R` holds while it is free, and `A` of the frame
that holds it. -/
structure Guards (s : Pool σ φ) : Prop where
  exclusive : s.total L.weight ≤ (L.taken s.shared).toNat
  free : L.taken s.shared = false → R s.shared
  own : ∀ f ∈ s.frames, L.holds f = true → A s.shared f

/-- What a frame can rely on when it acts inside the lock. -/
def Enters (s : σ) (f : φ) : Prop :=
  (L.holds f = true ∧ L.taken s = true ∧ A s f) ∨
    (L.holds f = false ∧ L.taken s = false ∧ R s)

/-- What it leaves behind: another frame inside the lock, or the lock free. -/
def Leaves (o : Outcome σ φ) : Prop :=
  (∃ g, o.new = [g] ∧ L.taken o.shared = true ∧ A o.shared g) ∨
    ((∀ g ∈ o.new, L.holds g = false) ∧ L.taken o.shared = false ∧ R o.shared)

end Lock
end Defs

namespace Lock

variable {L : Lock σ φ} {R : σ → Prop} {A : σ → φ → Prop}
variable {P : Program σ φ α ε}
variable {s : Pool σ φ} {i : Nat} {f : φ} {rest : List φ} {o : Outcome σ φ}

theorem weight_eq_zero_iff :
    L.weight f = 0 ↔ L.holds f = false := by
  simp [weight]

theorem sum_weight_eq_zero
    {fs : List φ}
    (h : ∀ g ∈ fs, L.holds g = false) :
    (fs.map L.weight).sum = 0 :=
  List.sum_eq_zero fun n hn => by
    obtain ⟨g, hg, rfl⟩ := List.mem_map.mp hn
    exact weight_eq_zero_iff.mpr (h g hg)

theorem Guards.taken_of_holds
    (h : L.Guards R A s)
    (hf : f ∈ s.frames)
    (hholds : L.holds f = true) :
    L.taken s.shared = true := by
  have hle := (le_total L.weight hf).trans h.exclusive
  cases htaken : L.taken s.shared with
  | true => rfl
  | false => simp [weight, hholds, htaken] at hle

/-- The frame that runs may act inside the lock, if the lock is free or its own. -/
theorem Guards.enters
    (h : L.Guards R A s)
    (hf : f ∈ s.frames)
    (hmay : L.holds f = false → L.taken s.shared = false) :
    L.Enters R A s.shared f := by
  cases hholds : L.holds f with
  | true => exact Or.inl ⟨hholds, h.taken_of_holds hf hholds, h.own f hf hholds⟩
  | false => exact Or.inr ⟨hholds, hmay hholds, h.free (hmay hholds)⟩

/-- No other frame holds the lock while one acts inside it. -/
theorem Guards.total_of_enters
    (h : L.Guards R A s)
    (hf : f ∈ s.frames)
    (henters : L.Enters R A s.shared f) :
    s.total L.weight = L.weight f := by
  have hle := le_total L.weight hf
  have hexclusive := h.exclusive
  rcases henters with ⟨hholds, htaken, -⟩ | ⟨-, hfree, -⟩
  · simp only [htaken, Bool.toNat_true] at hexclusive
    simp only [weight, hholds, Bool.toNat_true] at hle ⊢
    omega
  · simp only [hfree, Bool.toNat_false] at hexclusive
    omega

/-- The rule for a step inside the lock. -/
theorem Guards.run
    (h : L.Guards R A s)
    (hi : s.threads[i]? = some (f :: rest))
    (henters : L.Enters R A s.shared f)
    (hleaves : L.Leaves R A o) :
    L.Guards R A
      { shared := o.shared
        threads := s.threads.set i (P.unwind o.next rest) ++ o.spawned } := by
  have htotal := h.total_of_enters
    (mem_frames_of_getElem? hi (List.mem_cons_self ..)) henters
  have hweight := total_fire_run_le (P := P) L.weight hi (o := o)
  have hold {g : φ}
      (hg : g ∈ (s.threads.set i (P.unwind o.next rest) ++ o.spawned).flatten) :
      g ∈ o.new ∨ L.holds g = false := by
    rcases weight_after_run L.weight hi hg with hnew | ⟨-, hle⟩
    · exact Or.inl hnew
    · exact Or.inr (weight_eq_zero_iff.mp (by omega))
  rcases hleaves with ⟨g, hnew, htaken, hg⟩ | ⟨hnone, hfree, hR⟩
  · have hone : L.weight g ≤ 1 := Bool.toNat_le _
    simp only [hnew, List.map_cons, List.map_nil, List.sum_cons, List.sum_nil] at hweight
    refine ⟨?_, fun hfree => ?_, fun k hk hholds => ?_⟩
    · simp only [htaken, Bool.toNat_true]
      omega
    · simp [htaken] at hfree
    · rcases hold hk with hk | hk
      · obtain rfl : k = g := by simpa [hnew] using hk
        exact hg
      · simp [hholds] at hk
  · have hzero := sum_weight_eq_zero hnone
    refine ⟨?_, fun _ => hR, fun k hk hholds => ?_⟩
    · simp only [hfree, Bool.toNat_false]
      omega
    · rcases hold hk with hk | hk
      · simp [hnone k hk] at hholds
      · simp [hk] at hholds

/-- The rule for a move of the world that starts tasks outside the lock. -/
theorem Guards.world
    {r : σ × List (List φ)}
    (h : L.Guards R A s)
    (hnew : ∀ g ∈ r.2.flatten, L.holds g = false)
    (htaken : L.taken r.1 = L.taken s.shared)
    (hR : R s.shared → R r.1)
    (hA : ∀ g, A s.shared g → A r.1 g) :
    L.Guards R A { shared := r.1, threads := s.threads ++ r.2 } := by
  refine ⟨?_, fun hfree => hR (h.free (htaken ▸ hfree)), fun g hg hholds => ?_⟩
  · rw [total_fire_world, sum_weight_eq_zero hnew, htaken]
    exact h.exclusive
  · rcases mem_frames_after_world hg with hg | hg
    · exact hA g (h.own g hg hholds)
    · simp [hnew g hg] at hholds

end Lock
end TaskPool
end CockatielEngine
