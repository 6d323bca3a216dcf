import CockatielEngine.Pipeline.Effects

/-!
# Gate: release of the held messages

A message that reaches a closed gate is held; `resume` takes everything held.
The gate also opens without a `resume`: a `clear_block` that lifts a block from
an engine that was never paused, and that nobody asked to resume, answers
"nothing to do" and leaves the queue where it is.

**Main result.**  A run keeps the queue empty behind an open gate exactly when
none of its `clear_block` steps opens the gate on a queue in that way.
-/

namespace CockatielEngine

open TaskPool

/-- The caller that `clear_block` told to resume has not done so yet. -/
def OwesResume (s : EnginePool) : Prop :=
  s.Standing (.gate (.resume true))

/-- Nothing is left held behind an open gate. -/
def Released (s : EnginePool) : Prop :=
  s.shared.pauseState.isGated = false →
    ¬ OwesResume s →
    s.shared.pauseState.held = []

instance (s : EnginePool) : Decidable (OwesResume s) :=
  inferInstanceAs (Decidable (s.Standing _))

instance (s : EnginePool) : Decidable (Released s) :=
  inferInstanceAs (Decidable (_ → _ → _))

/-- A `clear_block` that lifts the outstanding block finds the engine paused,
or asked to resume, or holding nothing, or about to be resumed. -/
def ClearsSafely (s : EnginePool) (_ : Answer) : Frame → Prop
  | .gate (.clearBlock reason) =>
      s.shared.pauseState.blocked = some reason →
        s.shared.pauseState.paused = true ∨
          s.shared.pauseState.resumeWhenUnblocked = true ∨
          s.shared.pauseState.held = [] ∨
          OwesResume s
  | _ => True

namespace PauseState

/-- Lifting the outstanding block opens the gate unless the engine is
paused. -/
theorem isGated_clearBlock
    {s : PauseState} {reason : BlockedReason}
    (h : s.blocked = some reason) :
    (s.clearBlock reason).2.isGated = s.paused := by
  simp [clearBlock, h, isGated]

theorem held_clearBlock
    (s : PauseState) (reason : BlockedReason) :
    (s.clearBlock reason).2.held = s.held := by
  unfold clearBlock
  split <;> rfl

/-- A block that is not outstanding is not lifted. -/
theorem clearBlock_of_ne
    {s : PauseState} {reason : BlockedReason}
    (h : s.blocked ≠ some reason) :
    s.clearBlock reason = (false, s) := by
  simp [clearBlock, h]

end PauseState

section Steps

/-- With a resume deferred, `clear_block` tells its caller to resume. -/
theorem next_clearBlock
    {e : Engine} {reason : BlockedReason}
    (hb : e.pauseState.blocked = some reason)
    (hdefer : e.pauseState.resumeWhenUnblocked = true) :
    (gateStep e (.clearBlock reason)).next = some [.gate (.resume true)] := by
  simp [gateStep, GateTask.step, PauseState.clearBlock, hb, hdefer, go]

/-- A told `resume` goes on being owed while any other frame runs. -/
theorem OwesResume.run
    {s : EnginePool} {i : Nat} {f : Frame} {rest : List Frame}
    {o : Outcome Engine Frame}
    (h : OwesResume s)
    (hi : s.threads[i]? = some (f :: rest))
    (hf : f ≠ .gate (.resume true)) :
    OwesResume
      { shared := o.shared
        threads := s.threads.set i (engine.unwind o.next rest) ++ o.spawned } :=
  Pool.Standing.run h hi (Ne.symm hf)

/-- A told `resume` that is owed after a step was owed before or has just been
asked for. -/
theorem owesResume_after_run
    {s : EnginePool} {i : Nat} {f : Frame} {rest : List Frame}
    {o : Outcome Engine Frame}
    (hs : s.Waiting Frame.IsLoop)
    (hi : s.threads[i]? = some (f :: rest))
    (h : OwesResume
      { shared := o.shared
        threads := s.threads.set i (engine.unwind o.next rest) ++ o.spawned }) :
    OwesResume s ∨ Frame.gate (.resume true) ∈ o.new := by
  rcases standing_after_run hs hi h with h | h | h
  · exact Or.inl h
  · exact Or.inr h
  · exact h.elim

/-- A step that leaves the gate and the queue alone keeps the queue
released. -/
theorem Released.run_of_same
    {s : EnginePool} {i : Nat} {f : Frame} {rest : List Frame}
    {o : Outcome Engine Frame}
    (h : Released s)
    (hi : s.threads[i]? = some (f :: rest))
    (hf : f ≠ .gate (.resume true))
    (hgate : s.shared.pauseState.isGated = true →
      o.shared.pauseState.isGated = true)
    (hheld : o.shared.pauseState.isGated = false →
      o.shared.pauseState.held = s.shared.pauseState.held) :
    Released
      { shared := o.shared
        threads := s.threads.set i (engine.unwind o.next rest) ++ o.spawned } := by
  intro hopen howes
  have hopen' : s.shared.pauseState.isGated = false := by
    by_contra hg
    simp [hgate (by simpa using hg)] at hopen
  rw [hheld hopen]
  exact h hopen' fun howes' => howes (howes'.run hi hf)

theorem released_run_gate
    {s : EnginePool} {i : Nat} {a : Answer} {t : GateTask} {rest : List Frame}
    (h : Released s)
    (hok : ClearsSafely s a (.gate t))
    (hi : s.threads[i]? = some (.gate t :: rest)) :
    Released
      { shared := (gateStep s.shared t).shared
        threads :=
          s.threads.set i (engine.unwind (gateStep s.shared t).next rest) ++
            (gateStep s.shared t).spawned } := by
  cases t with
  | pause =>
      exact h.run_of_same hi (by simp) (by simp [gateStep, GateTask.step])
        (by simp [gateStep, GateTask.step])
  | deferPause =>
      exact h.run_of_same hi (by simp) (by simp [gateStep, GateTask.step])
        (by simp [gateStep, GateTask.step])
  | deferResume =>
      exact h.run_of_same hi (by simp) (by simp [gateStep, GateTask.step])
        (by simp [gateStep, GateTask.step])
  | setPaused paused =>
      exact h.run_of_same hi (by simp) (by simp [gateStep, GateTask.step])
        (by simp [gateStep, GateTask.step])
  | setBlock reason =>
      exact h.run_of_same hi (by simp) (by simp [gateStep, GateTask.step])
        (by simp [gateStep, GateTask.step])
  | resume told =>
      intro _ _
      rfl
  | clearBlock reason =>
      by_cases hb : s.shared.pauseState.blocked = some reason
      · intro hopen howes
        have hpaused : s.shared.pauseState.paused = false := by
          simpa [gateStep, GateTask.step,
            PauseState.isGated_clearBlock hb] using hopen
        have hheld := PauseState.held_clearBlock s.shared.pauseState reason
        rcases hok hb with hp | hr | hq | ho
        · simp [hpaused] at hp
        · -- the answer told this caller to resume
          exact absurd (standing_of_next hi (next_clearBlock hb hr)) howes
        · exact hheld.trans hq
        · exact absurd (ho.run hi (by simp)) howes
      · refine h.run_of_same hi (by simp) ?_ ?_ <;>
          simp [gateStep, GateTask.step, PauseState.clearBlock_of_ne hb]

/-- One step that clears safely keeps the queue released. -/
theorem Released.fire
    {s s' : EnginePool} {l : EngineLabel}
    (h : Released s)
    (hok : OnRun ClearsSafely s l)
    (hfire : engine.fire s l = some s') :
    Released s' := by
  cases l with
  | world ev =>
      obtain ⟨r, hr, rfl⟩ := fire_world_cases hfire
      obtain rfl := engine_event_eq hr
      have hpause : (ev.effect s.shared).pauseState = s.shared.pauseState := by
        cases ev <;> rfl
      intro hopen howes
      simp only [hpause] at hopen ⊢
      exact h hopen fun howes' => howes (Pool.Standing.world howes')
  | run i a =>
      obtain ⟨f, rest, o, hi, ho, rfl⟩ := fire_run_cases hfire
      obtain rfl := engine_step_eq ho
      cases htouch : f.touchesGate with
      | false =>
          have hpause := Frame.step_pauseState s.shared a htouch
          exact h.run_of_same hi (by rintro rfl; simp [Frame.touchesGate] at htouch)
            (by simp [hpause]) (by simp [hpause])
      | true =>
          rcases Frame.touchesGate_cases htouch with ⟨uuid7, point, hhold⟩ | ⟨t, rfl⟩
          · have hpause := Frame.step_pauseState_hold s.shared a hhold
            refine h.run_of_same hi (by rintro rfl; simp [Frame.hold] at hhold)
              (by simp [hpause]) fun hopen => ?_
            rw [hpause] at hopen ⊢
            rw [PauseState.holdIfGated_of_open (by simpa using hopen)]
          · exact released_run_gate h (hok.top hi) hi

/-- A step that keeps the queue released clears safely. -/
theorem clearsSafely_of_released
    {s s' : EnginePool} {l : EngineLabel}
    (hs : s.Waiting Frame.IsLoop)
    (hfire : engine.fire s l = some s')
    (h : Released s') :
    OnRun ClearsSafely s l := by
  cases l with
  | world ev => trivial
  | run i a =>
      obtain ⟨f, rest, o, hi, ho, rfl⟩ := fire_run_cases hfire
      obtain rfl := engine_step_eq ho
      intro g hg
      obtain rfl : f = g := by simpa [Pool.top, hi] using hg
      cases f with
      | gate t =>
          cases t with
          | clearBlock reason =>
              intro hb
              by_contra hcon
              simp only [not_or, Bool.not_eq_true] at hcon
              obtain ⟨hpaused, hresume, hheld, howes⟩ := hcon
              refine hheld ?_
              rw [← PauseState.held_clearBlock s.shared.pauseState reason]
              refine h ?_ fun howes' => howes ?_
              · exact (PauseState.isGated_clearBlock hb).trans hpaused
              · rcases owesResume_after_run hs hi howes' with h | h
                · exact h
                · simp [Frame.step, gateStep, GateTask.step,
                    PauseState.clearBlock, hb, hresume] at h
          | _ => trivial
      | _ => trivial

end Steps

/-- **Main theorem.**  Along a run from boot the held queue is empty in every
state with an open gate and no owed resume, exactly when every `clear_block` of
the run clears safely. -/
theorem released_iff_clearsSafely
    (e : Engine)
    (ls : List EngineLabel)
    (hboot : e.pauseState.held = [])
    (hrun : (engine.exec (boot e) ls).isSome = true) :
    AllStates engine Released (boot e) ls ↔
      AllSteps engine (OnRun ClearsSafely) (boot e) ls := by
  refine allStates_iff_allSteps
    (I := fun s => Released s ∧ s.Waiting Frame.IsLoop) (fun h => h.1) ?_ ?_
    ⟨fun _ _ => hboot, boot_waiting e⟩ hrun
  · rintro s s' l ⟨hrel, hwait⟩ hok hfire
    exact ⟨hrel.fire hok hfire, hwait.fire engine_leavesWaiting hfire⟩
  · rintro s s' l ⟨_, hwait⟩ hfire hrel
    exact clearsSafely_of_released hwait hfire hrel

/-- The user database goes away under a running engine, a message arrives, and
the database comes back. -/
def blockedWhileRunning : List EngineLabel :=
  [.world (.dependencyDown .userDb), .run 0 {},
   .world (.ingest { uuid7 := "m", rawMessage := "hi" }), .run 1 {}, .run 1 {},
   .run 1 {},
   .world (.dependencyUp .userDb), .run 2 {}]

theorem released_iff_clearsSafely_blockedWhileRunning :
    AllStates engine Released (boot {}) blockedWhileRunning ↔
      AllSteps engine (OnRun ClearsSafely) (boot {}) blockedWhileRunning :=
  released_iff_clearsSafely {} blockedWhileRunning rfl (by decide)

/-- The message stays held behind the open gate. -/
theorem held_behind_open_gate :
    ¬ ∀ ls s, engine.exec (boot {}) ls = some s → Released s := by
  intro h
  exact absurd (h blockedWhileRunning _ rfl) (by decide)

end CockatielEngine
