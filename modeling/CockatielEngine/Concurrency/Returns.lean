import CockatielEngine.Concurrency.Call

/-!
# Task pools: a call in a fixed world

A world that answers each frame by itself answers the same calls in the same way
whatever was called before them.  `Returns` is a call that runs alone in such a
world and does not fail.

**Rules.**
* `Returns.induction`: induction on the steps of a call.
* `Returns.cons_iff`: the first step of a call.
* `Returns.append_iff`: two stacks in a row are two calls in a row.
* `Returns.invariant`: what every step keeps holds where the call returns.
* `Returns.related`: two states that every step keeps related are related where
  the calls return.
* `Returns.solo`: induction on a call that never has more than one frame.
* `Returns.congr`: a call depends on the answers to the frames it runs.
-/

namespace CockatielEngine
namespace TaskPool

universe u v w x

variable {σ : Type u} {φ : Type v} {α : Type w} {ε : Type x}

/-- The stack `fs`, called in the state `s`, returns in the state `s'`, and each
of its steps is answered by `world`. -/
def Returns (P : Program σ φ α ε) (world : φ → α) (s : σ) (fs : List φ) (s' : σ) :
    Prop :=
  ∃ tr, Call P s fs tr true s' ∧ ∀ x ∈ tr, x.2 = world x.1

section Rules

variable {P : Program σ φ α ε} {world : φ → α}
variable {s s' t t' : σ} {f : φ} {fs gs rest : List φ}

theorem Returns.nil_iff :
    Returns P world s [] s' ↔ s' = s := by
  constructor
  · rintro ⟨tr, hcall, -⟩
    exact (Call.nil_iff.mp hcall).2.2
  · rintro rfl
    exact ⟨[], .returned _, by simp⟩

/-- The first step of a call, and the call of what it leaves. -/
theorem Returns.cons_iff :
    Returns P world s (f :: rest) s' ↔
      ∃ o fs, P.step s f (world f) = some o ∧ o.spawned = [] ∧ o.next = some fs ∧
        Returns P world o.shared (fs ++ rest) s' := by
  constructor
  · rintro ⟨tr, hcall, hworld⟩
    cases hcall with
    | step hstep hspawned hnext hrest =>
        obtain ⟨hanswer, hworld⟩ := List.forall_mem_cons.mp hworld
        exact ⟨_, _, hanswer ▸ hstep, hspawned, hnext, _, hrest, hworld⟩
  · rintro ⟨o, fs, hstep, hspawned, hnext, tr, hrest, hworld⟩
    exact ⟨(f, world f) :: tr, .step hstep hspawned hnext hrest,
      List.forall_mem_cons.mpr ⟨rfl, hworld⟩⟩

/-- Induction on the steps of a call. -/
@[elab_as_elim]
theorem Returns.induction
    {motive : ∀ s fs, Returns P world s fs s' → Prop}
    (returned : ∀ h, motive s' [] h)
    (step : ∀ {s f o fs rest} (_ : P.step s f (world f) = some o)
      (_ : o.spawned = []) (_ : o.next = some fs)
      (hrest : Returns P world o.shared (fs ++ rest) s') (h),
      motive o.shared (fs ++ rest) hrest → motive s (f :: rest) h)
    (h : Returns P world s fs s') :
    motive s fs h := by
  obtain ⟨tr, hcall, hworld⟩ := id h
  induction tr generalizing s fs with
  | nil =>
      cases hcall
      exact returned h
  | cons x tr ih =>
      cases hcall with
      | step hstep hspawned hnext hrest =>
          obtain ⟨hanswer, hworld⟩ := List.forall_mem_cons.mp hworld
          exact step (hanswer ▸ hstep) hspawned hnext ⟨tr, hrest, hworld⟩ h
            (ih _ hrest hworld)

/-- An invariant of every step of some frames, which leave such frames only. -/
theorem Returns.invariant
    (Q : φ → Prop) (I : σ → Prop)
    (hstep : ∀ {s f o fs}, Q f → I s → P.step s f (world f) = some o →
      o.next = some fs → (∀ g ∈ fs, Q g) ∧ I o.shared)
    (h : Returns P world s fs s')
    (hfs : ∀ f ∈ fs, Q f)
    (hinit : I s) :
    I s' := by
  induction h using Returns.induction with
  | returned => exact hinit
  | step hrun _ hnext _ _ ih =>
      obtain ⟨hf, hfs⟩ := List.forall_mem_cons.mp hfs
      obtain ⟨hnew, hkept⟩ := hstep hf hinit hrun hnext
      exact ih (List.forall_mem_append.mpr ⟨hnew, hfs⟩) hkept

/-- Two states stay related when every step of some frames does the same in
both of them. -/
theorem Returns.related
    (Q : φ → Prop) (R : σ → σ → Prop)
    (hstep : ∀ {s t f o o' fs}, Q f → R s t → P.step s f (world f) = some o →
      P.step t f (world f) = some o' → o.next = some fs →
      (∀ g ∈ fs, Q g) ∧ o'.next = some fs ∧ R o.shared o'.shared)
    (h : Returns P world s fs s')
    (h' : Returns P world t fs t')
    (hfs : ∀ f ∈ fs, Q f)
    (hinit : R s t) :
    R s' t' := by
  induction h using Returns.induction generalizing t with
  | returned =>
      rw [Returns.nil_iff.mp h']
      exact hinit
  | step hrun _ hnext _ _ ih =>
      obtain ⟨hf, hfs⟩ := List.forall_mem_cons.mp hfs
      obtain ⟨o', fs', hrun', -, hnext', hrest'⟩ := Returns.cons_iff.mp h'
      obtain ⟨hnew, hsame, hkept⟩ := hstep hf hinit hrun hrun' hnext
      obtain rfl := Option.some.inj (hsame.symm.trans hnext')
      exact ih hrest' (List.forall_mem_append.mpr ⟨hnew, hfs⟩) hkept

/-- Induction on a call whose steps leave one frame at most. -/
theorem Returns.solo
    (I : σ → φ → Prop) (J : σ → Prop)
    (hstep : ∀ {s f o fs}, I s f → P.step s f (world f) = some o → o.next = some fs →
      fs = [] ∧ J o.shared ∨ ∃ g, fs = [g] ∧ I o.shared g)
    (h : Returns P world s [f] s')
    (hinit : I s f) :
    J s' := by
  generalize hstack : [f] = stack at h
  induction h using Returns.induction generalizing f with
  | returned => cases hstack
  | step hrun _ hnext hrest _ ih =>
      obtain ⟨rfl, rfl⟩ := List.cons.inj hstack
      rcases hstep hinit hrun hnext with ⟨rfl, hend⟩ | ⟨g, rfl, hg⟩
      · obtain rfl := Returns.nil_iff.mp hrest
        exact hend
      · exact ih hg rfl

/-- Worlds that answer some frames alike answer their calls alike. -/
theorem Returns.congr
    {world' : φ → α}
    (Q : φ → Prop)
    (hworld : ∀ f, Q f → world f = world' f)
    (hstep : ∀ {s f o fs}, Q f → P.step s f (world f) = some o →
      o.next = some fs → ∀ g ∈ fs, Q g)
    (h : Returns P world s fs s')
    (hfs : ∀ f ∈ fs, Q f) :
    Returns P world' s fs s' := by
  induction h using Returns.induction with
  | returned => exact Returns.nil_iff.mpr rfl
  | step hrun hspawned hnext _ _ ih =>
      obtain ⟨hf, hfs⟩ := List.forall_mem_cons.mp hfs
      exact Returns.cons_iff.mpr ⟨_, _, hworld _ hf ▸ hrun, hspawned, hnext,
        ih (List.forall_mem_append.mpr ⟨hstep hf hrun hnext, hfs⟩)⟩

/-- A call of two stacks in a row is a call of the second where the first
returned. -/
theorem Returns.append_iff :
    Returns P world s (fs ++ gs) s' ↔
      ∃ t, Returns P world s fs t ∧ Returns P world t gs s' := by
  constructor
  · intro h
    generalize hstack : fs ++ gs = stack at h
    induction h using Returns.induction generalizing fs with
    | returned =>
        obtain ⟨rfl, rfl⟩ := List.append_eq_nil_iff.mp hstack
        exact ⟨s', Returns.nil_iff.mpr rfl, Returns.nil_iff.mpr rfl⟩
    | @step s f o new rest hrun hspawned hnext hrest _ ih =>
        cases fs with
        | nil =>
            refine ⟨s, Returns.nil_iff.mpr rfl, ?_⟩
            rw [List.nil_append] at hstack
            rw [hstack]
            exact Returns.cons_iff.mpr ⟨o, new, hrun, hspawned, hnext, hrest⟩
        | cons g fs =>
            obtain ⟨rfl, rfl⟩ := List.cons.inj hstack
            obtain ⟨t, hfirst, hsecond⟩ := ih (List.append_assoc new fs gs)
            exact ⟨t, Returns.cons_iff.mpr ⟨o, new, hrun, hspawned, hnext, hfirst⟩,
              hsecond⟩
  · rintro ⟨t, hfirst, hsecond⟩
    induction hfirst using Returns.induction with
    | returned => exact hsecond
    | @step s f o new rest hrun hspawned hnext _ _ ih =>
        rw [List.append_assoc] at ih
        exact Returns.cons_iff.mpr ⟨o, new, hrun, hspawned, hnext, ih⟩

end Rules

end TaskPool
end CockatielEngine
