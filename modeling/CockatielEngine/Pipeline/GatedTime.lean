import CockatielEngine.Gate.HeldRelease
import CockatielEngine.Pipeline.Successors

/-!
# Pipeline: gated time and the ack clocks

The clock of a pending ack runs on while the gate is closed; `resume` restarts
the clocks after it has opened the gate, and a sweep looks at the gate before
it drains.

**Main result.**  When a sweep only ever drains behind an open gate whose
clocks have been restarted, and a `clear_block` that opens the gate by itself
finds no ack that waited through the closed gate, an ack expires only after a
full timeout of un-gated silence.
-/

namespace CockatielEngine

open TaskPool

namespace Clock

/-- The end of the last stretch that passed behind a closed gate. -/
def lastGatedOf : List (Nat × Bool) → Nat
  | [] => 0
  | (n, gated) :: rest =>
      if gated = true ∧ 0 < n then n + (rest.map (·.1)).sum
      else lastGatedOf rest

def lastGated (c : Clock) : Nat :=
  lastGatedOf c.stretches

theorem lastGatedOf_le (l : List (Nat × Bool)) :
    lastGatedOf l ≤ (l.map (·.1)).sum := by
  induction l with
  | nil => simp [lastGatedOf]
  | cons x rest ih =>
      obtain ⟨n, gated⟩ := x
      simp only [lastGatedOf, List.map_cons, List.sum_cons]
      split
      · exact le_rfl
      · omega

theorem lastGated_le_now (c : Clock) : c.lastGated ≤ c.now :=
  lastGatedOf_le c.stretches

@[simp] theorem openWithin_zero (l : List (Nat × Bool)) :
    openWithin l 0 = 0 := by
  induction l with
  | nil => rfl
  | cons x rest ih =>
      obtain ⟨n, gated⟩ := x
      simp [openWithin, ih]

/-- All time since the gate was last closed is un-gated. -/
theorem openWithin_eq
    (l : List (Nat × Bool)) (d : Nat)
    (h : d + lastGatedOf l ≤ (l.map (·.1)).sum) :
    openWithin l d = d := by
  induction l generalizing d with
  | nil =>
      have hd : d = 0 := by simpa [lastGatedOf] using h
      rw [hd]
      rfl
  | cons x rest ih =>
      obtain ⟨n, gated⟩ := x
      simp only [lastGatedOf, List.map_cons, List.sum_cons] at h
      split at h
      · have hd : d = 0 := by omega
        rw [hd, openWithin_zero]
      · rename_i hopen
        have hle := lastGatedOf_le rest
        have htail : openWithin rest (d - n) = d - n := ih (d - n) (by omega)
        simp only [openWithin, htail]
        cases gated with
        | true =>
            have hn : n = 0 := by simpa using hopen
            simp [hn]
        | false =>
            simp only [Bool.false_eq_true, if_false]
            omega

theorem openSince_eq
    {c : Clock} {t : Nat}
    (h : c.lastGated ≤ t) :
    c.openSince t = c.now - t := by
  have hle := c.lastGated_le_now
  refine openWithin_eq c.stretches (c.now - t) ?_
  have hnow : (c.stretches.map (·.1)).sum = c.now := rfl
  have hlast : lastGatedOf c.stretches = c.lastGated := rfl
  omega

end Clock

/-- The entry has not waited through a closed gate. -/
def Fresh (e : Engine) (entry : PendingAck) : Prop :=
  e.clock.lastGated ≤ entry.sentAt

/-- A task is about to restart the ack clocks, or has been told to. -/
def OwesRestart (s : EnginePool) : Prop :=
  s.Standing (.resume .restartClocks) ∨ OwesResume s

/-- A sweep that drains finds the gate open and the clocks restarted, or at
least no expired entry that waited through a closed gate; a `clear_block` that
opens the gate, and does not tell its caller to resume, finds no entry at all
that did. -/
def KeepsClocks (s : EnginePool) (_ : Answer) : Frame → Prop
  | .sweep (.drain _) =>
      (s.shared.pauseState.isGated = false ∧ ¬ OwesRestart s) ∨
        ∀ entry ∈ s.shared.ackTracker.pending,
          entry.expired s.shared.now = true → Fresh s.shared entry
  | .gate (.clearBlock reason) =>
      s.shared.pauseState.blocked = some reason →
        s.shared.pauseState.paused = false →
        s.shared.pauseState.resumeWhenUnblocked = false →
        OwesRestart s ∨
          ∀ entry ∈ s.shared.ackTracker.pending, Fresh s.shared entry
  | _ => True

/-- Every entry a draining step expires has seen a full timeout of un-gated
time. -/
def ExpiresFairly (s : EnginePool) (_ : Answer) : Frame → Prop
  | .sweep (.drain _) =>
      ∀ entry ∈ s.shared.ackTracker.pending,
        entry.expired s.shared.now = true →
        entry.timeout < s.shared.clock.openSince entry.sentAt
  | _ => True

instance (e : Engine) (entry : PendingAck) : Decidable (Fresh e entry) :=
  inferInstanceAs (Decidable (_ ≤ _))

instance (s : EnginePool) : Decidable (OwesRestart s) :=
  inferInstanceAs (Decidable (_ ∨ _))

instance (s : EnginePool) (a : Answer) (f : Frame) :
    Decidable (KeepsClocks s a f) := by
  unfold KeepsClocks
  split <;> infer_instance

instance (s : EnginePool) (a : Answer) (f : Frame) :
    Decidable (ExpiresFairly s a f) := by
  unfold ExpiresFairly
  split <;> infer_instance

/-- Behind an open gate whose clocks have been restarted, no entry has waited
through a closed gate. -/
def ClocksKept (s : EnginePool) : Prop :=
  s.shared.pauseState.isGated = true ∨ OwesRestart s ∨
    ∀ entry ∈ s.shared.ackTracker.pending, Fresh s.shared entry

section Steps

variable {s : EnginePool} {i : Nat} {a : Answer} {f : Frame} {rest : List Frame}

/-- An expired entry that is fresh has seen a full timeout of un-gated time. -/
theorem Fresh.expiresFairly
    {e : Engine} {entry : PendingAck}
    (h : Fresh e entry)
    (hexp : entry.expired e.now = true) :
    entry.timeout < e.clock.openSince entry.sentAt := by
  have helapsed : entry.timeout < e.clock.now - entry.sentAt :=
    of_decide_eq_true hexp
  rw [Clock.openSince_eq h]
  exact helapsed

/-- A restart goes on being owed while other frames run. -/
theorem OwesRestart.run
    {o : Outcome Engine Frame}
    (h : OwesRestart s)
    (hi : s.threads[i]? = some (f :: rest))
    (hclocks : f ≠ .resume .restartClocks)
    (hresume : f ≠ .gate (.resume true)) :
    OwesRestart
      { shared := o.shared
        threads := s.threads.set i (engine.unwind o.next rest) ++ o.spawned } :=
  h.imp (fun h => h.run hi hclocks.symm) (fun h => h.run hi hresume)

/-- Fresh entries stay fresh, and what is tracked is fresh. -/
theorem fresh_step
    (e : Engine) (a : Answer) (f : Frame)
    (h : ∀ entry ∈ e.ackTracker.pending, Fresh e entry) :
    ∀ entry ∈ (f.step e a).shared.ackTracker.pending,
      Fresh (f.step e a).shared entry := by
  intro entry hentry
  have hnow : e.clock.lastGated ≤ e.now := e.clock.lastGated_le_now
  unfold Fresh
  rw [Frame.step_clock]
  rcases Frame.mem_pending_step e a hentry with ⟨x, hx, hxe⟩ | htracks
  · have hfresh : e.clock.lastGated ≤ x.sentAt := h x hx
    rcases hxe with rfl | rfl | ⟨-, rfl⟩
    · exact hfresh
    · exact hfresh
    · exact hnow
  · rw [Frame.sentAt_of_tracks htracks]
    exact hnow

/-- Once the clocks are restarted every entry is fresh. -/
theorem fresh_restartClocks
    (e : Engine) (a : Answer) :
    ∀ entry ∈ ((Frame.resume .restartClocks).step e a).shared.ackTracker.pending,
      Fresh ((Frame.resume .restartClocks).step e a).shared entry := by
  intro entry hentry
  obtain ⟨x, -, rfl⟩ := (AckTracker.mem_restartClocks_iff ..).mp hentry
  exact e.clock.lastGated_le_now

theorem clocksKept_gate
    {t : GateTask}
    (hgated : s.shared.pauseState.isGated = true)
    (hok : KeepsClocks s a (.gate t))
    (hi : s.threads[i]? = some (.gate t :: rest)) :
    ClocksKept
      { shared := (gateStep s.shared t).shared
        threads :=
          s.threads.set i (engine.unwind (gateStep s.shared t).next rest) ++
            (gateStep s.shared t).spawned } := by
  cases t with
  | resume told =>
      exact Or.inr (Or.inl (Or.inl (standing_of_next hi rfl)))
  | clearBlock reason =>
      by_cases hb : s.shared.pauseState.blocked = some reason
      · cases hpaused : s.shared.pauseState.paused with
        | true =>
            refine Or.inl ?_
            simpa [gateStep, GateTask.step,
              PauseState.isGated_clearBlock hb] using hpaused
        | false =>
            cases hdefer : s.shared.pauseState.resumeWhenUnblocked with
            | true =>
                exact Or.inr (Or.inl (Or.inr
                  (standing_of_next hi (next_clearBlock hb hdefer))))
            | false =>
                -- the gate opens and nobody is told to resume
                refine Or.inr ?_
                rcases hok hb hpaused hdefer with howes | hfresh
                · exact Or.inl (howes.run hi (by simp) (by simp))
                · exact Or.inr hfresh
      · refine Or.inl ?_
        simpa [gateStep, GateTask.step, PauseState.clearBlock_of_ne hb] using
          hgated
  | _ =>
      refine Or.inl ?_
      simp [gateStep, GateTask.step, hgated]

theorem ClocksKept.fire
    {s' : EnginePool} {l : EngineLabel}
    (h : ClocksKept s)
    (hok : OnRun KeepsClocks s l)
    (hfire : engine.fire s l = some s') :
    ClocksKept s' := by
  cases l with
  | world ev =>
      obtain ⟨r, hr, rfl⟩ := fire_world_cases hfire
      obtain rfl := engine_event_eq hr
      rcases h with hgated | howes | hfresh
      · exact Or.inl (by cases ev <;> exact hgated)
      · exact Or.inr (Or.inl (howes.imp Pool.Standing.world Pool.Standing.world))
      · by_cases hgated : s.shared.pauseState.isGated = true
        · exact Or.inl (by cases ev <;> exact hgated)
        · refine Or.inr (Or.inr ?_)
          cases ev with
          | tick ms =>
              have hopen : s.shared.pauseState.isGated = false := by
                simpa using hgated
              intro entry hentry
              have hentry' := hfresh entry hentry
              simpa [Fresh, WorldEvent.effect, Clock.lastGated,
                Clock.lastGatedOf, hopen] using hentry'
          | _ => exact hfresh
  | run i a =>
      obtain ⟨f, rest, o, hi, ho, rfl⟩ := fire_run_cases hfire
      obtain rfl := engine_step_eq ho
      rcases h with hgated | howes | hfresh
      · cases htouch : f.touchesGate with
        | false =>
            refine Or.inl ?_
            rwa [Frame.step_pauseState s.shared a htouch]
        | true =>
            rcases Frame.touchesGate_cases htouch with ⟨u, point, hhold⟩ | ⟨t, rfl⟩
            · refine Or.inl ?_
              rw [Frame.step_pauseState_hold s.shared a hhold]
              simpa using hgated
            · exact clocksKept_gate hgated (hok.top hi) hi
      · by_cases hclocks : f = .resume .restartClocks
        · subst hclocks
          exact Or.inr (Or.inr (fresh_restartClocks s.shared a))
        · by_cases hresume : f = .gate (.resume true)
          · subst hresume
            exact Or.inr (Or.inl (Or.inl (standing_of_next hi rfl)))
          · exact Or.inr (Or.inl (howes.run hi hclocks hresume))
      · exact Or.inr (Or.inr (fresh_step s.shared a f hfresh))

end Steps

/-- **Main theorem.**  In a run that keeps the clocks, every entry that a sweep
drains has seen a full timeout of un-gated time. -/
theorem expires_fairly
    (e : Engine)
    (hboot : e.ackTracker = .new)
    {s : EnginePool} {l : EngineLabel}
    (hs : Reachable engine (OnRun KeepsClocks) (boot e) s)
    (hok : OnRun KeepsClocks s l) :
    OnRun ExpiresFairly s l := by
  have hkept : ClocksKept s := by
    refine hs.invariant (Or.inr (Or.inr fun entry hentry => ?_)) ClocksKept.fire
    simp [boot, hboot, AckTracker.new] at hentry
  cases l with
  | world ev => trivial
  | run i a =>
      intro f hf
      have hokf : KeepsClocks s a f := hok f hf
      cases f with
      | sweep f =>
          cases f with
          | drain cfg =>
              intro entry hentry hexp
              have hfresh : Fresh s.shared entry := by
                rcases hokf with ⟨hopen, howes⟩ | hfresh
                · rcases hkept with hgated | howes' | hfresh
                  · simp [hopen] at hgated
                  · exact absurd howes' howes
                  · exact hfresh entry hentry
                · exact hfresh entry hentry hexp
              exact hfresh.expiresFairly hexp
          | _ => trivial
      | _ => trivial

/-- A message is out with a module when the operator pauses the engine for ten seconds;
the module is silent for ten more before a sweep runs. -/
def sweptAfterPause : List EngineLabel :=
  .world (.ingest { uuid7 := "m", rawMessage := "hi" }) ::
    List.replicate 12 (.run 0 {}) ++
  .world (.operator true) :: List.replicate 2 (.run 1 {}) ++
  .world (.tick 10000) ::
  .world (.operator false) :: List.replicate 8 (.run 2 {}) ++
  [.world (.tick 10000), .world .sweep, .run 3 {}, .run 3 {}]

/-- The sweep of the resume lets the entry stand, and the last one expires it. -/
theorem expires_fairly_sweptAfterPause :
    ∃ s, engine.exec (boot { config := { inProcessModules := ["bot"] } })
        sweptAfterPause = some s ∧
      s.shared.clock.lastGated = 10000 ∧
      (∃ entry ∈ s.shared.ackTracker.pending, entry.expired s.shared.now = true) ∧
      OnRun ExpiresFairly s (.run 3 {} : EngineLabel) := by
  obtain ⟨s, hrun, hgated, hexp, hok⟩ := exec_any (P := engine)
    (Q := fun s => s.shared.clock.lastGated = 10000 ∧
      (∃ entry ∈ s.shared.ackTracker.pending, entry.expired s.shared.now = true) ∧
      OnRun KeepsClocks s (.run 3 {} : EngineLabel))
    (boot { config := { inProcessModules := ["bot"] } })
    sweptAfterPause (by decide +kernel)
  exact ⟨s, hrun, hgated, hexp,
    expires_fairly { config := { inProcessModules := ["bot"] } } rfl
      (reachable_of_allSteps sweptAfterPause .start (by decide +kernel) hrun) hok⟩

/-- A message is out with a module when the user database goes away for ten
seconds; then a sweep runs. -/
def sweptAfterBlock : List EngineLabel :=
  .world (.ingest { uuid7 := "m", rawMessage := "hi" }) ::
    List.replicate 12 (.run 0 {}) ++
  [.world (.dependencyDown .userDb), .run 1 {}, .world (.tick 10000),
   .world (.dependencyUp .userDb), .run 2 {},
   .world .sweep, .run 3 {}, .run 3 {}]

/-- The sweep expires the ack although no un-gated time has passed. -/
theorem ack_expired_by_gated_time :
    ¬ ∀ (e : Engine) (ls : List EngineLabel) (s : EnginePool) (l : EngineLabel),
      e.ackTracker = .new →
      engine.exec (boot e) ls = some s →
      OnRun ExpiresFairly s l := by
  intro h
  obtain ⟨s, hrun, hunfair⟩ := exec_any (P := engine)
    (Q := fun s => ¬ OnRun ExpiresFairly s (.run 3 {} : EngineLabel))
    (boot { config := { inProcessModules := ["bot"] } })
    sweptAfterBlock (by decide +kernel)
  exact hunfair (h _ sweptAfterBlock s (.run 3 {}) rfl hrun)

end CockatielEngine
