import CockatielEngine.Concurrency.OneAtATime
import CockatielEngine.Concurrency.Returns

/-!
# Task pools: handlers that run to their end

The world acts, and what it starts, with all that this spawns, runs to its end
before the world acts again.  The answers are given by a fixed world, and a side
condition speaks about the steps.

**Rules.**
* `Settles.cons_iff`: the first step of what settles.
* `Settles.call`: frames that neither fail nor spawn are a call.
* `Settles.exec`, `Handles.exec`: such a run is a run of the pool in which tasks run
  one at a time.
* `settles_of_settle`, `handles_of_handle`: what is computed is such a run.
-/

namespace CockatielEngine
namespace TaskPool

universe u v w x

variable {σ : Type u} {φ : Type v} {α : Type w} {ε : Type x}

section Defs

variable (P : Program σ φ α ε) (world : φ → α)

/-- The stacks run one after the other, each to its end, and after them what they
have spawned. -/
inductive Settles (ok : σ → φ → Prop) : σ → List (List φ) → σ → Prop
  | idle (s : σ) : Settles ok s [] s
  | done {s s' : σ} {ts : List (List φ)} :
      Settles ok s ts s' →
      Settles ok s ([] :: ts) s'
  | step {s s' : σ} {f : φ} {o : Outcome σ φ} {rest : List φ} {ts : List (List φ)} :
      P.step s f (world f) = some o →
      ok s f →
      Settles ok o.shared (P.unwind o.next rest :: (ts ++ o.spawned)) s' →
      Settles ok s ((f :: rest) :: ts) s'

/-- The world's moves, each with a condition on the state it finds, one handler
after the other. -/
def Handles (ok : σ → φ → Prop) (c : σ → ε → Prop) : σ → List ε → σ → Prop
  | s, [], s' => s' = s
  | s, ev :: evs, s' =>
      c s ev ∧ ∃ r s₁, P.event s ev = some r ∧ Settles P world ok r.1 r.2 s₁ ∧
        Handles ok c s₁ evs s'

variable (ok : σ → φ → Prop) [∀ s f, Decidable (ok s f)]
variable (c : σ → ε → Prop) [∀ s ev, Decidable (c s ev)]

/-- A serial run on the answers of `world`, whose steps meet `ok` and whose moves of
the world meet `c`. -/
def SerialIn (ok : σ → φ → Prop) (c : σ → ε → Prop) :
    Pool σ φ → Label α ε → Prop :=
  Serial (fun s a f => a = world f ∧ ok s.shared f) fun s ev => c s.shared ev

/-- Run stacks to their end, in `fuel` steps at most. -/
def settle : Nat → σ → List (List φ) → Option σ
  | _, s, [] => some s
  | 0, _, _ :: _ => none
  | n + 1, s, [] :: ts => settle n s ts
  | n + 1, s, (f :: rest) :: ts =>
      if ok s f then
        (P.step s f (world f)).bind fun o =>
          settle n o.shared (P.unwind o.next rest :: (ts ++ o.spawned))
      else none

/-- Run the handlers of the world's moves, each in `fuel` steps at most. -/
def handle (fuel : Nat) : σ → List ε → Option σ
  | s, [] => some s
  | s, ev :: evs =>
      if c s ev then
        (P.event s ev).bind fun r =>
          (settle P world ok fuel r.1 r.2).bind fun s₁ => handle fuel s₁ evs
      else none

end Defs

section Rules

variable {P : Program σ φ α ε} {world : φ → α}
variable {ok : σ → φ → Prop} {c : σ → ε → Prop}
variable {s s' : σ} {ts : List (List φ)} {evs : List ε}

theorem Settles.nil_iff :
    Settles P world ok s [] s' ↔ s' = s := by
  constructor
  · rintro ⟨⟩
    rfl
  · rintro rfl
    exact .idle _

theorem Settles.done_iff :
    Settles P world ok s ([] :: ts) s' ↔ Settles P world ok s ts s' := by
  constructor
  · rintro ⟨⟩
    assumption
  · exact .done

/-- The first step of what settles. -/
theorem Settles.cons_iff {f : φ} {rest : List φ} :
    Settles P world ok s ((f :: rest) :: ts) s' ↔
      ∃ o, P.step s f (world f) = some o ∧ ok s f ∧
        Settles P world ok o.shared (P.unwind o.next rest :: (ts ++ o.spawned)) s' := by
  constructor
  · intro h
    cases h with
    | step hstep hmeets hrest => exact ⟨_, hstep, hmeets, hrest⟩
  · rintro ⟨o, hstep, hmeets, hrest⟩
    exact .step hstep hmeets hrest

/-- Frames that neither fail nor spawn, and lead to such frames only, are a call;
what is below them goes on where the call returns. -/
theorem Settles.call
    (Q : φ → Prop)
    (hquiet : ∀ {s f o}, Q f → P.step s f (world f) = some o →
      o.spawned = [] ∧ ∃ fs, o.next = some fs ∧ ∀ g ∈ fs, Q g)
    (fs gs : List φ)
    (h : Settles P world ok s ((fs ++ gs) :: ts) s')
    (hfs : ∀ f ∈ fs, Q f) :
    ∃ s₁, Returns P world s fs s₁ ∧ Settles P world ok s₁ (gs :: ts) s' := by
  generalize hthreads : (fs ++ gs) :: ts = threads at h
  induction h generalizing fs with
  | idle s => cases hthreads
  | done h ih =>
      obtain ⟨hnil, rfl⟩ := List.cons.inj hthreads
      obtain ⟨rfl, rfl⟩ := List.append_eq_nil_iff.mp hnil
      exact ⟨_, Returns.nil_iff.mpr rfl, .done h⟩
  | @step s s' f o rest ts' hstep hmeets hrest ih =>
      obtain ⟨hstack, rfl⟩ := List.cons.inj hthreads
      cases fs with
      | nil =>
          refine ⟨s, Returns.nil_iff.mpr rfl, ?_⟩
          rw [List.nil_append] at hstack
          rw [hstack]
          exact .step hstep hmeets hrest
      | cons g fs =>
          obtain ⟨rfl, rfl⟩ := List.cons.inj hstack
          obtain ⟨hg, hfs⟩ := List.forall_mem_cons.mp hfs
          obtain ⟨hspawned, new, hnext, hnew⟩ := hquiet hg hstep
          obtain ⟨s₁, hcall, hbelow⟩ :=
            ih (new ++ fs) (List.forall_mem_append.mpr ⟨hnew, hfs⟩)
              (by simp [hspawned, hnext, Program.unwind])
          exact ⟨s₁, Returns.cons_iff.mpr ⟨o, new, hstep, hspawned, hnext, hcall⟩,
            hbelow⟩

/-- What settles is a run of the pool in which tasks run one at a time. -/
theorem Settles.exec
    (h : Settles P world ok s ts s')
    (done : List (List φ))
    (hdone : ∀ t ∈ done, t = []) :
    ∃ ls s'', P.exec ⟨s, done ++ ts⟩ ls = some s'' ∧ s''.shared = s' ∧ s''.Idle ∧
      AllSteps P (SerialIn world ok c) ⟨s, done ++ ts⟩ ls := by
  induction h generalizing done with
  | idle s =>
      refine ⟨[], _, rfl, rfl, ?_, trivial⟩
      simpa [Pool.Idle, Pool.frames] using hdone
  | done _ ih =>
      have hall : ∀ t ∈ done ++ [[]], t = [] := by
        intro t ht
        rcases List.mem_append.mp ht with ht | ht
        · exact hdone t ht
        · exact List.mem_singleton.mp ht
      simpa using ih (done ++ [[]]) hall
  | @step s s' f o rest ts hstep hmeets _ ih =>
      obtain ⟨ls, s'', hexec, hshared, hidle, hall⟩ := ih done hdone
      have hfire : P.fire ⟨s, done ++ (f :: rest) :: ts⟩
          (.run done.length (world f)) =
            some ⟨o.shared, done ++ (P.unwind o.next rest :: (ts ++ o.spawned))⟩ := by
        simp [Program.fire, hstep]
      refine ⟨.run done.length (world f) :: ls, s'', ?_, hshared, hidle, ⟨?_, ?_, ?_⟩, ?_⟩
      · simpa [Program.exec, hfire] using hexec
      · simpa [OneAtATime] using hdone
      · intro g hg
        obtain rfl : f = g := by simpa [Pool.top] using hg
        exact ⟨rfl, hmeets⟩
      · simp
      · intro t ht
        obtain rfl := Option.some.inj (hfire.symm.trans ht)
        exact hall

theorem AllSteps.append
    {ok : Pool σ φ → Label α ε → Prop} {s : Pool σ φ} {ls ls' : List (Label α ε)}
    (h : AllSteps P ok s ls)
    (h' : ∀ s', P.exec s ls = some s' → AllSteps P ok s' ls') :
    AllSteps P ok s (ls ++ ls') := by
  induction ls generalizing s with
  | nil => exact h' s rfl
  | cons l ls ih =>
      refine ⟨h.1, fun s₁ hfire => ih (h.2 s₁ hfire) fun s' hrun => h' s' ?_⟩
      rw [Program.exec, hfire]
      exact hrun

/-- Handlers that run to their end are a run of the pool in which tasks run one at
a time. -/
theorem Handles.exec
    (h : Handles P world ok c s evs s')
    (done : List (List φ))
    (hdone : ∀ t ∈ done, t = []) :
    ∃ ls s'', P.exec ⟨s, done⟩ ls = some s'' ∧ s''.shared = s' ∧ s''.Idle ∧
      AllSteps P (SerialIn world ok c) ⟨s, done⟩ ls := by
  induction evs generalizing s done with
  | nil =>
      obtain rfl := h
      refine ⟨[], _, rfl, rfl, ?_, trivial⟩
      simpa [Pool.Idle, Pool.frames] using hdone
  | cons ev evs ih =>
      obtain ⟨hc, r, s₁, hr, hsettles, hrest⟩ := h
      have hfire : P.fire ⟨s, done⟩ (.world ev) = some ⟨r.1, done ++ r.2⟩ := by
        simp [Program.fire, hr]
      obtain ⟨ls, t, hexec, rfl, hidle, hall⟩ := hsettles.exec done hdone
      obtain ⟨ls', t', hexec', hshared', hidle', hall'⟩ :=
        ih hrest t.threads (List.flatten_eq_nil_iff.mp hidle)
      refine ⟨.world ev :: (ls ++ ls'), t', ?_, hshared', hidle', ⟨?_, trivial, ?_⟩, ?_⟩
      · rw [Program.exec, hfire, Option.bind_some, exec_append, hexec]
        exact hexec'
      · simpa [OneAtATime, Pool.Idle, Pool.frames] using hdone
      · rintro _ ⟨⟩
        exact hc
      · intro t₁ ht₁
        obtain rfl := Option.some.inj (hfire.symm.trans ht₁)
        refine hall.append fun t₂ ht₂ => ?_
        obtain rfl := Option.some.inj (hexec.symm.trans ht₂)
        exact hall'

theorem settles_of_settle
    [∀ s f, Decidable (ok s f)]
    {fuel : Nat}
    (h : settle P world ok fuel s ts = some s') :
    Settles P world ok s ts s' := by
  induction fuel generalizing s ts with
  | zero =>
      cases ts with
      | nil =>
          obtain rfl := Option.some.inj h
          exact .idle s
      | cons t ts => cases h
  | succ n ih =>
      cases ts with
      | nil =>
          obtain rfl := Option.some.inj h
          exact .idle s
      | cons t ts =>
          cases t with
          | nil => exact .done (ih h)
          | cons f rest =>
              rw [settle] at h
              split at h
              · rename_i hmeets
                obtain ⟨o, hstep, hrest⟩ := Option.bind_eq_some_iff.mp h
                exact .step hstep hmeets (ih hrest)
              · cases h

theorem handles_of_handle
    [∀ s f, Decidable (ok s f)] [∀ s ev, Decidable (c s ev)]
    {fuel : Nat}
    (h : handle P world ok c fuel s evs = some s') :
    Handles P world ok c s evs s' := by
  induction evs generalizing s with
  | nil => exact (Option.some.inj h).symm
  | cons ev evs ih =>
      rw [handle] at h
      split at h
      · rename_i hc
        obtain ⟨r, hr, h⟩ := Option.bind_eq_some_iff.mp h
        obtain ⟨s₁, hs₁, hrest⟩ := Option.bind_eq_some_iff.mp h
        exact ⟨hc, r, s₁, hr, settles_of_settle hs₁, ih hrest⟩
      · cases h

end Rules

end TaskPool
end CockatielEngine
