import CockatielEngine.Pipeline.Machine

/-!
# Pipeline: what a step can touch

For each part of the shared state, the frames whose steps can change it.  A
step of any other frame leaves the part alone; the properties of the engine
use these facts to pass over the frames that do not concern them.
-/

namespace CockatielEngine

open TaskPool

namespace Frame

/-- The frames that move the pause state. -/
def touchesGate : Frame → Bool
  | .broadcast (.enter _) => true
  | .inProcess (.enter _) => true
  | .postProcess (.enter _) => true
  | .gate _ => true
  | _ => false

/-- The message a frame asks the gate about, and the dispatch it is about to
make. -/
def hold : Frame → Option (String × HoldPoint)
  | .broadcast (.enter uuid7) => some (uuid7, .entry)
  | .inProcess (.enter uuid7) => some (uuid7, .inProcess)
  | .postProcess (.enter uuid7) => some (uuid7, .postProcess)
  | _ => none

theorem touchesGate_cases {f : Frame} (h : f.touchesGate = true) :
    (∃ uuid7 point, f.hold = some (uuid7, point)) ∨ ∃ t, f = .gate t := by
  cases f with
  | broadcast f => cases f <;> simp_all [touchesGate, hold]
  | inProcess f => cases f <;> simp_all [touchesGate, hold]
  | postProcess f => cases f <;> simp_all [touchesGate, hold]
  | gate t => exact Or.inr ⟨t, rfl⟩
  | _ => simp [touchesGate] at h

/-- The frames that move the ack table. -/
def touchesAcks : Frame → Bool
  | .fanout (.track ..) => true
  | .inProcess (.track ..) => true
  | .terminal (.ack _) => true
  | .reply (.ackModule ..) => true
  | .reply (.receipt ..) => true
  | .sweep (.drain _) => true
  | .sweep (.resendTrack ..) => true
  | .resume .restartClocks => true
  | _ => false

/-- The frames that write a row of the timeline. -/
def touchesRows : Frame → Bool
  | .ingest (.insertEvent _) => true
  | .ingest (.setCommand ..) => true
  | .ingest (.setUserUuid _) => true
  | .terminal (.writeHeld ..) => true
  | .terminal (.write ..) => true
  | .audit (.mark ..) => true
  | .audit (.release ..) => true
  | _ => false

/-- The frames that put an event on record. -/
def touchesLog : Frame → Bool
  | .fanout (.send ..) => true
  | .inProcess (.send ..) => true
  | .terminal (.ack _) => true
  | .reply (.check _) => true
  | .reply (.ackModule ..) => true
  | .reply (.receipt ..) => true
  | .advance (.notePre _) => true
  | .sweep (.drain _) => true
  | .sweep (.next _) => true
  | .sweep (.resendLoad ..) => true
  | .sweep (.resendSend ..) => true
  | .audit (.mark ..) => true
  | .audit (.release ..) => true
  | _ => false

end Frame

section Families

variable (e : Engine) (a : Answer)

theorem IngestFrame.step_shared (f : IngestFrame) :
    (f.step e a).shared =
      { e with
        pipelineStates := (f.step e a).shared.pipelineStates
        timeline := (f.step e a).shared.timeline } := by
  cases f <;> simp only [IngestFrame.step, Engine.putState] <;>
    (repeat' split) <;> rfl

theorem RecoveryFrame.step_shared (f : RecoveryFrame) :
    (f.step e a).shared =
      { e with
        pipelineStates := (f.step e a).shared.pipelineStates } := by
  cases f with
  | drainNext uuids =>
      cases uuids <;> rfl
  | _ =>
      simp only [RecoveryFrame.step, Engine.putState]
      repeat' split
      all_goals rfl

theorem BroadcastFrame.step_shared (f : BroadcastFrame) :
    (f.step e).shared =
      { e with pauseState := (f.step e).shared.pauseState } := by
  cases f <;> simp only [BroadcastFrame.step] <;> (repeat' split) <;> rfl

theorem FanoutFrame.step_shared (f : FanoutFrame) :
    (f.step e a).shared =
      { e with
        ackTracker := (f.step e a).shared.ackTracker
        log := (f.step e a).shared.log } := by
  cases f with
  | send fo todo =>
      cases todo <;> simp only [FanoutFrame.step, Engine.logged] <;>
        (repeat' split) <;> rfl
  | track fo moduleName todo =>
      rfl

theorem InProcessFrame.step_shared (f : InProcessFrame) :
    (f.step e a).shared =
      { e with
        pauseState := (f.step e a).shared.pauseState
        pipelineStates := (f.step e a).shared.pipelineStates
        ackTracker := (f.step e a).shared.ackTracker
        log := (f.step e a).shared.log } := by
  cases f <;>
    simp only [InProcessFrame.step, Engine.putState, Engine.logged] <;>
    (repeat' split) <;> rfl

theorem PostProcessFrame.step_shared (f : PostProcessFrame) :
    (f.step e a).shared =
      { e with
        pauseState := (f.step e a).shared.pauseState
        pipelineStates := (f.step e a).shared.pipelineStates } := by
  cases f <;> simp only [PostProcessFrame.step, Engine.putState] <;>
    (repeat' split) <;> rfl

theorem TerminalFrame.step_shared (f : TerminalFrame) :
    (f.step e a).shared =
      { e with
        pipelineStates := (f.step e a).shared.pipelineStates
        ackTracker := (f.step e a).shared.ackTracker
        timeline := (f.step e a).shared.timeline
        log := (f.step e a).shared.log } := by
  cases f <;>
    simp only [TerminalFrame.step, Engine.putState, Engine.logged] <;>
    (repeat' split) <;> rfl

theorem ReplyFrame.step_shared (f : ReplyFrame) :
    (f.step e).shared =
      { e with
        pipelineStates := (f.step e).shared.pipelineStates
        ackTracker := (f.step e).shared.ackTracker
        log := (f.step e).shared.log } := by
  cases f <;>
    simp only [ReplyFrame.step, Engine.modifyState, Engine.putState,
      Engine.logged] <;>
    (repeat' split) <;> rfl

theorem AdvanceFrame.step_shared (f : AdvanceFrame) :
    (f.step e a).shared =
      { e with
        pipelineStates := (f.step e a).shared.pipelineStates
        log := (f.step e a).shared.log } := by
  cases f <;>
    simp only [AdvanceFrame.step, Engine.modifyState, Engine.putState,
      Engine.logged] <;>
    (repeat' split) <;> rfl

theorem SweepFrame.step_shared (f : SweepFrame) :
    (f.step e a).shared =
      { e with
        ackTracker := (f.step e a).shared.ackTracker
        log := (f.step e a).shared.log } := by
  cases f <;>
    simp only [SweepFrame.step, SweepFrame.expire, SweepFrame.noteSweptOut,
      Engine.logged] <;>
    (repeat' split) <;> rfl

theorem gateStep_shared (t : GateTask) :
    (gateStep e t).shared =
      { e with pauseState := (t.step e.pauseState).1 } := by
  cases t <;> rfl

theorem ResumeFrame.step_shared (f : ResumeFrame) :
    (f.step e).shared =
      { e with ackTracker := (f.step e).shared.ackTracker } := by
  cases f with
  | replayNext held =>
      cases held <;> rfl
  | _ =>
      rfl

theorem AuditFrame.step_shared (f : AuditFrame) :
    (f.step e a).shared =
      { e with
        timeline := (f.step e a).shared.timeline
        log := (f.step e a).shared.log } := by
  cases f <;> simp only [AuditFrame.step, Engine.logged] <;>
    (repeat' split) <;> rfl

end Families

namespace Frame

variable (e : Engine) (a : Answer)

/-- No step moves the clock, the configuration or the registry: only the world
does. -/
theorem step_environment (f : Frame) :
    (f.step e a).shared.clock = e.clock ∧
    (f.step e a).shared.config = e.config ∧
    (f.step e a).shared.commandRegistry = e.commandRegistry := by
  cases f with
  | ingest f => simp only [step]; rw [IngestFrame.step_shared]; simp
  | recovery f => simp only [step]; rw [RecoveryFrame.step_shared]; simp
  | broadcast f => simp only [step]; rw [BroadcastFrame.step_shared]; simp
  | fanout f => simp only [step]; rw [FanoutFrame.step_shared]; simp
  | inProcess f => simp only [step]; rw [InProcessFrame.step_shared]; simp
  | postProcess f => simp only [step]; rw [PostProcessFrame.step_shared]; simp
  | terminal f => simp only [step]; rw [TerminalFrame.step_shared]; simp
  | reply f => simp only [step]; rw [ReplyFrame.step_shared]; simp
  | advance f => simp only [step]; rw [AdvanceFrame.step_shared]; simp
  | sweep f => simp only [step]; rw [SweepFrame.step_shared]; simp
  | gate t => simp only [step]; rw [gateStep_shared]; simp
  | resume f => simp only [step]; rw [ResumeFrame.step_shared]; simp
  | audit f => simp only [step]; rw [AuditFrame.step_shared]; simp

@[simp] theorem step_clock (f : Frame) :
    (f.step e a).shared.clock = e.clock :=
  (step_environment e a f).1

@[simp] theorem step_config (f : Frame) :
    (f.step e a).shared.config = e.config :=
  (step_environment e a f).2.1

@[simp] theorem step_commandRegistry (f : Frame) :
    (f.step e a).shared.commandRegistry = e.commandRegistry :=
  (step_environment e a f).2.2

theorem step_pauseState {f : Frame} (h : f.touchesGate = false) :
    (f.step e a).shared.pauseState = e.pauseState := by
  cases f with
  | broadcast f =>
      cases f with
      | enter uuid7 => simp [touchesGate] at h
      | _ =>
          simp only [step, BroadcastFrame.step]
          repeat' split
          all_goals rfl
  | inProcess f =>
      cases f with
      | enter uuid7 => simp [touchesGate] at h
      | _ =>
          simp only [step, InProcessFrame.step]
          repeat' split
          all_goals rfl
  | postProcess f =>
      cases f with
      | enter uuid7 => simp [touchesGate] at h
      | _ =>
          simp only [step, PostProcessFrame.step]
          repeat' split
          all_goals rfl
  | gate t => simp [touchesGate] at h
  | ingest f => simp only [step]; rw [IngestFrame.step_shared]
  | recovery f => simp only [step]; rw [RecoveryFrame.step_shared]
  | fanout f => simp only [step]; rw [FanoutFrame.step_shared]
  | terminal f => simp only [step]; rw [TerminalFrame.step_shared]
  | reply f => simp only [step]; rw [ReplyFrame.step_shared]
  | advance f => simp only [step]; rw [AdvanceFrame.step_shared]
  | sweep f => simp only [step]; rw [SweepFrame.step_shared]
  | resume f => simp only [step]; rw [ResumeFrame.step_shared]
  | audit f => simp only [step]; rw [AuditFrame.step_shared]

/-- A hold is one critical section of the pause state. -/
theorem step_pauseState_hold {f : Frame} {uuid7 : String} {point : HoldPoint}
    (h : f.hold = some (uuid7, point)) :
    (f.step e a).shared.pauseState =
      (e.pauseState.holdIfGated uuid7 point).2 := by
  cases f with
  | broadcast f =>
      cases f <;> simp only [hold, Option.some.injEq, Prod.mk.injEq,
        reduceCtorEq] at h
      obtain ⟨rfl, rfl⟩ := h
      cases hg : e.pauseState.isGated <;>
        simp [step, BroadcastFrame.step, PauseState.holdIfGated, hg]
  | inProcess f =>
      cases f <;> simp only [hold, Option.some.injEq, Prod.mk.injEq,
        reduceCtorEq] at h
      obtain ⟨rfl, rfl⟩ := h
      cases hg : e.pauseState.isGated <;>
        simp [step, InProcessFrame.step, PauseState.holdIfGated, hg]
  | postProcess f =>
      cases f <;> simp only [hold, Option.some.injEq, Prod.mk.injEq,
        reduceCtorEq] at h
      obtain ⟨rfl, rfl⟩ := h
      cases hg : e.pauseState.isGated <;>
        simp [step, PostProcessFrame.step, PauseState.holdIfGated, hg]
  | _ => simp [hold] at h

theorem step_ackTracker {f : Frame} (h : f.touchesAcks = false) :
    (f.step e a).shared.ackTracker = e.ackTracker := by
  cases f with
  | fanout f =>
      cases f with
      | track => simp [touchesAcks] at h
      | send fo todo =>
          cases todo <;> simp only [step, FanoutFrame.step]
          all_goals
            split
            all_goals rfl
  | inProcess f =>
      cases f with
      | track => simp [touchesAcks] at h
      | _ =>
          simp only [step, InProcessFrame.step]
          repeat' split
          all_goals rfl
  | terminal f =>
      cases f with
      | ack => simp [touchesAcks] at h
      | _ =>
          simp only [step, TerminalFrame.step]
          repeat' split
          all_goals rfl
  | reply f =>
      cases f with
      | ackModule => simp [touchesAcks] at h
      | receipt => simp [touchesAcks] at h
      | _ => rfl
  | sweep f =>
      cases f with
      | drain => simp [touchesAcks] at h
      | resendTrack => simp [touchesAcks] at h
      | _ =>
          simp only [step, SweepFrame.step, SweepFrame.expire,
            SweepFrame.noteSweptOut]
          repeat' split
          all_goals rfl
  | resume f =>
      cases f with
      | restartClocks => simp [touchesAcks] at h
      | spawnReplay => rfl
      | replayNext held => cases held <;> rfl
  | gate t => simp only [step]; rw [gateStep_shared]
  | ingest f => simp only [step]; rw [IngestFrame.step_shared]
  | recovery f => simp only [step]; rw [RecoveryFrame.step_shared]
  | broadcast f => simp only [step]; rw [BroadcastFrame.step_shared]
  | postProcess f => simp only [step]; rw [PostProcessFrame.step_shared]
  | advance f => simp only [step]; rw [AdvanceFrame.step_shared]
  | audit f => simp only [step]; rw [AuditFrame.step_shared]

theorem step_timeline {f : Frame} (h : f.touchesRows = false) :
    (f.step e a).shared.timeline = e.timeline := by
  cases f with
  | ingest f =>
      cases f with
      | insertState => rfl
      | _ => simp [touchesRows] at h
  | terminal f =>
      cases f with
      | writeHeld => simp [touchesRows] at h
      | write => simp [touchesRows] at h
      | _ =>
          simp only [step, TerminalFrame.step]
          repeat' split
          all_goals rfl
  | audit f =>
      cases f with
      | flag =>
          simp only [step, AuditFrame.step]
          split
          all_goals rfl
      | _ => simp [touchesRows] at h
  | recovery f => simp only [step]; rw [RecoveryFrame.step_shared]
  | broadcast f => simp only [step]; rw [BroadcastFrame.step_shared]
  | fanout f => simp only [step]; rw [FanoutFrame.step_shared]
  | inProcess f => simp only [step]; rw [InProcessFrame.step_shared]
  | postProcess f => simp only [step]; rw [PostProcessFrame.step_shared]
  | reply f => simp only [step]; rw [ReplyFrame.step_shared]
  | advance f => simp only [step]; rw [AdvanceFrame.step_shared]
  | sweep f => simp only [step]; rw [SweepFrame.step_shared]
  | gate t => simp only [step]; rw [gateStep_shared]
  | resume f => simp only [step]; rw [ResumeFrame.step_shared]

/-- Nothing but a hold adds to the held queue. -/
theorem mem_held_step
    {f : Frame} {x : String × HoldPoint}
    (hx : x ∈ (f.step e a).shared.pauseState.held) :
    x ∈ e.pauseState.held ∨ f.hold = some x := by
  cases htouch : f.touchesGate with
  | false =>
      rw [step_pauseState e a htouch] at hx
      exact Or.inl hx
  | true =>
      rcases touchesGate_cases htouch with ⟨v, point, hhold⟩ | ⟨t, rfl⟩
      · rw [step_pauseState_hold e a hhold] at hx
        unfold PauseState.holdIfGated at hx
        split at hx
        · rcases (PauseState.mem_insertHeld_iff ..).mp hx with ⟨hv, hp⟩ | ⟨-, hmem⟩
          · exact Or.inr (hhold.trans (by rw [← hv, ← hp]))
          · exact Or.inl hmem
        · exact Or.inl hx
      · simp only [step, gateStep_shared] at hx
        refine Or.inl ?_
        cases t with
        | resume told => simp [GateTask.step] at hx
        | setBlock reason =>
            simp only [GateTask.step, PauseState.setBlock] at hx
            repeat' split at hx
            all_goals exact hx
        | clearBlock reason =>
            simp only [GateTask.step, PauseState.clearBlock] at hx
            split at hx
            all_goals exact hx
        | pause =>
            simp only [GateTask.step, PauseState.pause] at hx
            split at hx
            all_goals exact hx
        | _ => exact hx

/-- The pending ack a frame adds to the table. -/
def tracks (now : Nat) : Frame → Option PendingAck
  | .fanout (.track fo moduleName _) =>
      some
        { uuid7 := fo.uuid7
          stage := fo.stage
          moduleName
          sentAt := now
          timeout := fo.ackTimeoutMs
          receiptReceived := false
          resendCount := 0 }
  | .inProcess (.track uuid7 moduleName ackTimeoutMs) =>
      some
        { uuid7
          stage := .inProcess
          moduleName
          sentAt := now
          timeout := ackTimeoutMs
          receiptReceived := false
          resendCount := 0 }
  | .sweep (.resendTrack _ entry) => some (AckTracker.freshEntry now entry)
  | _ => none

/-- A step that tracks or re-tracks does so at the current time. -/
theorem sentAt_of_tracks
    {f : Frame} {now : Nat} {entry : PendingAck}
    (h : f.tracks now = some entry) :
    entry.sentAt = now := by
  cases f with
  | fanout f =>
      cases f <;> simp only [Frame.tracks, Option.some.injEq, reduceCtorEq] at h
      rw [← h]
  | inProcess f =>
      cases f <;> simp only [Frame.tracks, Option.some.injEq, reduceCtorEq] at h
      rw [← h]
  | sweep f =>
      cases f <;> simp only [Frame.tracks, Option.some.injEq, reduceCtorEq] at h
      rw [← h]
      rfl
  | _ => simp [Frame.tracks] at h

/-- A pending ack after a step was pending before, up to its receipt and its
clock, or has just been tracked. -/
theorem mem_pending_step
    {f : Frame} {y : PendingAck}
    (hy : y ∈ (f.step e a).shared.ackTracker.pending) :
    (∃ x ∈ e.ackTracker.pending,
      y = x ∨ y = { x with receiptReceived := true } ∨
        (f = .resume .restartClocks ∧ y = { x with sentAt := e.now })) ∨
    f.tracks e.now = some y := by
  have hkept (h : y ∈ e.ackTracker.pending) :
      (∃ x ∈ e.ackTracker.pending,
        y = x ∨ y = { x with receiptReceived := true } ∨
          (f = .resume .restartClocks ∧ y = { x with sentAt := e.now })) ∨
      f.tracks e.now = some y :=
    Or.inl ⟨y, h, Or.inl rfl⟩
  cases htouch : f.touchesAcks with
  | false =>
      rw [step_ackTracker e a htouch] at hy
      exact hkept hy
  | true =>
      cases f with
      | fanout f =>
          cases f with
          | send => simp [touchesAcks] at htouch
          | track fo moduleName todo =>
              simp only [step, FanoutFrame.step, shared_go,
                AckTracker.mem_track_iff] at hy
              rcases hy with hy | rfl
              · exact hkept hy
              · exact Or.inr rfl
      | inProcess f =>
          cases f with
          | track v moduleName ackTimeoutMs =>
              simp only [step, InProcessFrame.step, shared_go,
                AckTracker.mem_track_iff] at hy
              rcases hy with hy | rfl
              · exact hkept hy
              · exact Or.inr rfl
          | _ => simp [touchesAcks] at htouch
      | terminal f =>
          cases f with
          | ack v =>
              simp only [step, TerminalFrame.step, shared_go, Engine.logged,
                AckTracker.mem_ack_iff] at hy
              exact hkept hy.1
          | _ => simp [touchesAcks] at htouch
      | reply f =>
          cases f with
          | ackModule v moduleName len =>
              refine hkept ?_
              rcases e.ackTracker.ackModule_cases e.now v moduleName with
                ⟨hack, -⟩ | ⟨entry, -, rest, -, -, hrest, hack⟩
              · simpa [step, ReplyFrame.step, hack] using hy
              · have hmem : y ∈ rest.pending := by
                  cases hstage : entry.stage <;>
                    simp only [step, ReplyFrame.step, hack, hstage] at hy
                  · exact hy
                  · exact hy
                  · split at hy <;> exact hy
                rw [hrest] at hmem
                exact List.mem_of_mem_filter hmem
          | receipt v moduleName =>
              obtain ⟨x, hx, hyx⟩ := AckTracker.mem_markFirst hy
              exact Or.inl ⟨x, hx, hyx.imp id Or.inl⟩
          | _ => simp [touchesAcks] at htouch
      | sweep f =>
          cases f with
          | drain cfg =>
              exact hkept ((AckTracker.mem_checkTimeouts_rest_iff ..).mp hy).1
          | resendTrack sw entry =>
              simp only [step, SweepFrame.step, shared_go,
                AckTracker.mem_reTrack_iff] at hy
              rcases hy with hy | rfl
              · exact hkept hy
              · exact Or.inr rfl
          | _ => simp [touchesAcks] at htouch
      | resume f =>
          cases f with
          | restartClocks =>
              obtain ⟨x, hx, rfl⟩ := (AckTracker.mem_restartClocks_iff ..).mp hy
              exact Or.inl ⟨x, hx, Or.inr (Or.inr ⟨rfl, rfl⟩)⟩
          | _ => simp [touchesAcks] at htouch
      | _ => simp [touchesAcks] at htouch

/-- A pending ack stays pending, up to its receipt and its clock, until its
module acks, its message ends or a sweep finds it expired. -/
theorem mem_pending_of_mem
    {f : Frame} {x : PendingAck}
    (hx : x ∈ e.ackTracker.pending) :
    (∃ y ∈ (f.step e a).shared.ackTracker.pending,
      y = x ∨ y = { x with receiptReceived := true } ∨
        y = { x with sentAt := e.now }) ∨
    (∃ len, f = .reply (.ackModule x.uuid7 x.moduleName len)) ∨
    f = .terminal (.ack x.uuid7) ∨
    (∃ cfg, f = .sweep (.drain cfg) ∧ x.expired e.now = true) := by
  have hkept (h : x ∈ (f.step e a).shared.ackTracker.pending) :
      (∃ y ∈ (f.step e a).shared.ackTracker.pending,
        y = x ∨ y = { x with receiptReceived := true } ∨
          y = { x with sentAt := e.now }) ∨
      (∃ len, f = .reply (.ackModule x.uuid7 x.moduleName len)) ∨
      f = .terminal (.ack x.uuid7) ∨
      (∃ cfg, f = .sweep (.drain cfg) ∧ x.expired e.now = true) :=
    Or.inl ⟨x, h, Or.inl rfl⟩
  cases htouch : f.touchesAcks with
  | false => exact hkept (by rwa [step_ackTracker e a htouch])
  | true =>
      cases f with
      | fanout f =>
          cases f with
          | send => simp [touchesAcks] at htouch
          | track fo moduleName todo =>
              exact hkept ((AckTracker.mem_track_iff ..).mpr (Or.inl hx))
      | inProcess f =>
          cases f with
          | track v moduleName ackTimeoutMs =>
              exact hkept ((AckTracker.mem_track_iff ..).mpr (Or.inl hx))
          | _ => simp [touchesAcks] at htouch
      | terminal f =>
          cases f with
          | ack v =>
              by_cases hv : x.uuid7 = v
              · exact Or.inr (Or.inr (Or.inl (by rw [hv])))
              · exact hkept ((AckTracker.mem_ack_iff ..).mpr ⟨hx, hv⟩)
          | _ => simp [touchesAcks] at htouch
      | reply f =>
          cases f with
          | ackModule v moduleName len =>
              by_cases hfor : x.isFor v moduleName = true
              · obtain ⟨hv, hm⟩ : x.uuid7 = v ∧ x.moduleName = moduleName :=
                  of_decide_eq_true hfor
                exact Or.inr (Or.inl ⟨len, by rw [hv, hm]⟩)
              · refine hkept ?_
                rcases e.ackTracker.ackModule_cases e.now v moduleName with
                  ⟨hack, -⟩ | ⟨entry, -, rest, -, -, hrest, hack⟩
                · simpa [step, ReplyFrame.step, hack] using hx
                · have hmem : x ∈ rest.pending := by
                    rw [hrest]
                    exact List.mem_filter.mpr ⟨hx, by simpa using hfor⟩
                  cases hstage : entry.stage <;>
                    simp only [step, ReplyFrame.step, hack, hstage]
                  · exact hmem
                  · exact hmem
                  · split <;> exact hmem
          | receipt v moduleName =>
              obtain ⟨y, hy, hyx⟩ := AckTracker.exists_mem_markFirst
                (p := PendingAck.isFor v moduleName) hx
              exact Or.inl ⟨y, hy, hyx.imp id Or.inl⟩
          | _ => simp [touchesAcks] at htouch
      | sweep f =>
          cases f with
          | drain cfg =>
              by_cases hexp : x.expired e.now = true
              · exact Or.inr (Or.inr (Or.inr ⟨cfg, rfl, hexp⟩))
              · exact hkept ((AckTracker.mem_checkTimeouts_rest_iff ..).mpr
                  ⟨hx, by simpa using hexp⟩)
          | resendTrack sw entry =>
              exact hkept ((AckTracker.mem_reTrack_iff ..).mpr (Or.inl hx))
          | _ => simp [touchesAcks] at htouch
      | resume f =>
          cases f with
          | restartClocks =>
              exact Or.inl ⟨{ x with sentAt := e.now },
                (AckTracker.mem_restartClocks_iff ..).mpr ⟨x, hx, rfl⟩,
                Or.inr (Or.inr rfl)⟩
          | _ => simp [touchesAcks] at htouch
      | _ => simp [touchesAcks] at htouch

/-- The message whose in-memory state a frame may change. -/
def stateSubject : Frame → Option String
  | .ingest (.insertState msg) => some msg.uuid7
  | .recovery (.insertState uuid7 _) => some uuid7
  | .inProcess (.load uuid7) => some uuid7
  | .inProcess (.skip uuid7 _) => some uuid7
  | .postProcess (.load uuid7) => some uuid7
  | .terminal (.take uuid7 _) => some uuid7
  | .reply (.record r) => some r.uuid7
  | .reply (.audio r) => some r.uuid7
  | .advance (.notePre uuid7) => some uuid7
  | .advance (.noteIn uuid7 _) => some uuid7
  | .advance (.nextIndex uuid7 _) => some uuid7
  | .advance (.storeUserData uuid7 _) => some uuid7
  | _ => none

/-- A step changes the in-memory state of its own message only. -/
theorem step_pipelineStates
    {f : Frame} {v : String}
    (h : f.stateSubject ≠ some v) :
    (f.step e a).shared.pipelineStates v = e.pipelineStates v := by
  cases f with
  | ingest f =>
      cases f with
      | insertState msg =>
          have hne : v ≠ msg.uuid7 := by simpa [stateSubject, eq_comm] using h
          simp [step, IngestFrame.step, Engine.putState, hne]
      | _ =>
          simp only [step, IngestFrame.step]
          repeat' split
          all_goals rfl
  | recovery f =>
      cases f with
      | insertState u msg =>
          have hne : v ≠ u := by simpa [stateSubject, eq_comm] using h
          simp [step, RecoveryFrame.step, Engine.putState, hne]
      | drainNext uuids => cases uuids <;> rfl
      | _ =>
          simp only [step, RecoveryFrame.step]
          repeat' split
          all_goals rfl
  | inProcess f =>
      cases f with
      | load u =>
          have hne : v ≠ u := by simpa [stateSubject, eq_comm] using h
          simp only [step, InProcessFrame.step]
          split <;> simp [Engine.putState, hne]
      | skip u len =>
          have hne : v ≠ u := by simpa [stateSubject, eq_comm] using h
          simp only [step, InProcessFrame.step]
          split <;> simp [Engine.putState, hne]
      | _ =>
          simp only [step, InProcessFrame.step]
          repeat' split
          all_goals rfl
  | postProcess f =>
      cases f with
      | load u =>
          have hne : v ≠ u := by simpa [stateSubject, eq_comm] using h
          simp only [step, PostProcessFrame.step]
          split <;> simp [Engine.putState, hne]
      | _ =>
          simp only [step, PostProcessFrame.step]
          repeat' split
          all_goals rfl
  | terminal f =>
      cases f with
      | take u ending =>
          have hne : v ≠ u := by simpa [stateSubject, eq_comm] using h
          simp only [step, TerminalFrame.step]
          split <;> simp [Engine.putState, hne]
      | _ =>
          simp only [step, TerminalFrame.step]
          repeat' split
          all_goals rfl
  | reply f =>
      cases f with
      | record reply =>
          have hne : v ≠ reply.uuid7 := by simpa [stateSubject, eq_comm] using h
          simp [step, ReplyFrame.step, Engine.modifyState, Engine.putState, hne]
      | audio reply =>
          have hne : v ≠ reply.uuid7 := by simpa [stateSubject, eq_comm] using h
          simp [step, ReplyFrame.step, Engine.modifyState, Engine.putState, hne]
      | ackModule u moduleName len =>
          simp only [step, ReplyFrame.step]
          repeat' split
          all_goals rfl
      | _ => rfl
  | advance f =>
      cases f with
      | notePre u =>
          have hne : v ≠ u := by simpa [stateSubject, eq_comm] using h
          simp [step, AdvanceFrame.step, Engine.modifyState, Engine.putState,
            Engine.logged, hne]
      | noteIn u len =>
          have hne : v ≠ u := by simpa [stateSubject, eq_comm] using h
          simp [step, AdvanceFrame.step, Engine.modifyState, Engine.putState, hne]
      | nextIndex u len =>
          have hne : v ≠ u := by simpa [stateSubject, eq_comm] using h
          simp only [step, AdvanceFrame.step]
          split <;> simp [Engine.putState, hne]
      | refresh u =>
          simp only [step, AdvanceFrame.step]
          split <;> rfl
      | storeUserData u userData =>
          have hne : v ≠ u := by simpa [stateSubject, eq_comm] using h
          simp [step, AdvanceFrame.step, Engine.modifyState, Engine.putState, hne]
  | broadcast f => simp only [step]; rw [BroadcastFrame.step_shared]
  | fanout f => simp only [step]; rw [FanoutFrame.step_shared]
  | sweep f => simp only [step]; rw [SweepFrame.step_shared]
  | gate t => simp only [step]; rw [gateStep_shared]
  | resume f => simp only [step]; rw [ResumeFrame.step_shared]
  | audit f => simp only [step]; rw [AuditFrame.step_shared]

/-- The message whose in-memory state a frame installs. -/
def installs : Frame → Option String
  | .ingest (.insertState msg) => some msg.uuid7
  | .recovery (.insertState uuid7 _) => some uuid7
  | _ => none

/-- A message without an in-memory state stays so until one is installed. -/
theorem step_pipelineStates_none
    {f : Frame} {v : String}
    (hstate : e.pipelineStates v = none)
    (h : f.installs ≠ some v) :
    (f.step e a).shared.pipelineStates v = none := by
  by_cases hsub : f.stateSubject = some v
  · cases f with
    | ingest f => cases f <;> simp_all [stateSubject, installs]
    | recovery f => cases f <;> simp_all [stateSubject, installs]
    | inProcess f =>
        cases f <;> simp only [stateSubject, Option.some.injEq, reduceCtorEq] at hsub
        all_goals
          subst hsub
          simp [step, InProcessFrame.step, hstate]
    | postProcess f =>
        cases f <;> simp only [stateSubject, Option.some.injEq, reduceCtorEq] at hsub
        subst hsub
        simp [step, PostProcessFrame.step, hstate]
    | terminal f =>
        cases f <;> simp only [stateSubject, Option.some.injEq, reduceCtorEq] at hsub
        rename_i ending
        subst hsub
        cases ending <;> simp [step, TerminalFrame.step, hstate]
    | reply f =>
        cases f <;> simp only [stateSubject, Option.some.injEq, reduceCtorEq] at hsub
        all_goals
          subst hsub
          simp [step, ReplyFrame.step, Engine.modifyState, Engine.putState, hstate]
    | advance f =>
        cases f <;> simp only [stateSubject, Option.some.injEq, reduceCtorEq] at hsub
        all_goals
          subst hsub
          simp [step, AdvanceFrame.step, Engine.modifyState, Engine.putState,
            Engine.logged, hstate]
    | _ => simp [stateSubject] at hsub
  · rw [step_pipelineStates e a hsub, hstate]

/-- The message whose row a frame writes, and what it makes of the row. -/
def rowUpdate (now : Nat) : Frame → Option (String × (Row → Row))
  | .ingest (.setCommand msg command) =>
      some (msg.uuid7, Row.setCommand command)
  | .ingest (.setUserUuid msg) =>
      some (msg.uuid7, Row.setUserUuid msg.userUuid7)
  | .terminal (.writeHeld uuid7 result) =>
      some (uuid7, Row.writeTerminalOutcome .auditHeld result now)
  | .terminal (.write uuid7 ending result) =>
      some (uuid7, Row.writeTerminalOutcome ending.outcome result now)
  | .audit (.mark uuid7 reason) =>
      some (uuid7, Row.writeTerminalOutcome (.audit reason) {} now)
  | .audit (.release uuid7 approve) =>
      some (uuid7, Row.releaseAudit approve now)
  | _ => none

/-- Everything a step can do to a row: nothing, insert it, or update it. -/
theorem step_row (f : Frame) (v : String) :
    (f.step e a).shared.timeline.row? v = e.timeline.row? v ∨
    (∃ msg, f = .ingest (.insertEvent msg) ∧ msg.uuid7 = v ∧
      e.timeline.row? v = none ∧
      (f.step e a).shared.timeline.row? v = some (IngestFrame.row msg)) ∨
    (a.dbOk = true ∧ ∃ g, f.rowUpdate e.now = some (v, g) ∧
      (f.step e a).shared.timeline.row? v = (e.timeline.row? v).map g) := by
  cases htouch : f.touchesRows with
  | false => exact Or.inl (congrArg (Timeline.row? · v) (step_timeline e a htouch))
  | true =>
      cases f with
      | ingest f =>
          cases f with
          | insertEvent msg =>
              simp only [step, IngestFrame.step]
              split
              · cases hins : e.timeline.insertEvent msg.uuid7
                    (IngestFrame.row msg) with
                | none => exact Or.inl rfl
                | some timeline =>
                    have hrow := Timeline.row?_insertEvent hins v
                    by_cases hv : v = msg.uuid7
                    · refine Or.inr (Or.inl ⟨msg, rfl, hv.symm, ?_, ?_⟩)
                      · subst hv
                        by_contra hne
                        simp [Timeline.insertEvent, Option.isSome_iff_ne_none,
                          hne] at hins
                      · rw [if_pos hv] at hrow
                        cases msg.command <;> exact hrow
                    · rw [if_neg hv] at hrow
                      refine Or.inl ?_
                      cases msg.command <;> exact hrow
              · exact Or.inl rfl
          | insertState msg => simp [touchesRows] at htouch
          | setCommand msg command =>
              simp only [step, IngestFrame.step]
              split
              · by_cases hv : v = msg.uuid7
                · simp_all [rowUpdate, Timeline.setCommand]
                · simp_all [Timeline.setCommand]
              · exact Or.inl rfl
          | setUserUuid msg =>
              simp only [step, IngestFrame.step]
              split
              · by_cases hv : v = msg.uuid7
                · simp_all [rowUpdate, Timeline.setUserUuid]
                · simp_all [Timeline.setUserUuid]
              · exact Or.inl rfl
      | terminal f =>
          cases f <;> simp only [touchesRows, Bool.false_eq_true] at htouch
          all_goals
            simp only [step, TerminalFrame.step]
            split
          case writeHeld.isTrue u result _ =>
            by_cases hv : v = u
            · simp_all [rowUpdate, Timeline.writeTerminalOutcome]
            · simp_all [Timeline.writeTerminalOutcome]
          case write.isTrue u ending result _ =>
            by_cases hv : v = u
            · simp_all [rowUpdate, Timeline.writeTerminalOutcome]
            · simp_all [Timeline.writeTerminalOutcome]
          all_goals exact Or.inl rfl
      | audit f =>
          cases f with
          | flag u reason => simp [touchesRows] at htouch
          | mark u reason =>
              simp only [step, AuditFrame.step]
              split
              · by_cases hv : v = u
                · simp_all [rowUpdate, Engine.logged, Timeline.markAudit,
                    Timeline.writeTerminalOutcome]
                · simp_all [Engine.logged, Timeline.markAudit,
                    Timeline.writeTerminalOutcome]
              · exact Or.inl rfl
          | release u approve =>
              simp only [step, AuditFrame.step]
              split
              · split
                · by_cases hv : v = u
                  · simp_all [rowUpdate, Engine.logged, Timeline.releaseAudit]
                  · simp_all [Engine.logged, Timeline.releaseAudit]
                · exact Or.inl rfl
              · exact Or.inl rfl
      | _ => simp [touchesRows] at htouch

theorem step_log {f : Frame} (h : f.touchesLog = false) :
    (f.step e a).shared.log = e.log := by
  cases f with
  | fanout f =>
      cases f with
      | send => simp [touchesLog] at h
      | track => rfl
  | inProcess f =>
      cases f with
      | send => simp [touchesLog] at h
      | _ =>
          simp only [step, InProcessFrame.step]
          repeat' split
          all_goals rfl
  | terminal f =>
      cases f with
      | ack => simp [touchesLog] at h
      | _ =>
          simp only [step, TerminalFrame.step]
          repeat' split
          all_goals rfl
  | reply f =>
      cases f with
      | check => simp [touchesLog] at h
      | ackModule => simp [touchesLog] at h
      | receipt => simp [touchesLog] at h
      | _ => rfl
  | advance f =>
      cases f with
      | notePre => simp [touchesLog] at h
      | _ =>
          simp only [step, AdvanceFrame.step]
          repeat' split
          all_goals rfl
  | sweep f =>
      cases f with
      | start =>
          simp only [step, SweepFrame.step]
          split
          all_goals rfl
      | config => rfl
      | resendTrack => rfl
      | _ => simp [touchesLog] at h
  | audit f =>
      cases f with
      | flag =>
          simp only [step, AuditFrame.step]
          split
          all_goals rfl
      | _ => simp [touchesLog] at h
  | ingest f => simp only [step]; rw [IngestFrame.step_shared]
  | recovery f => simp only [step]; rw [RecoveryFrame.step_shared]
  | broadcast f => simp only [step]; rw [BroadcastFrame.step_shared]
  | postProcess f => simp only [step]; rw [PostProcessFrame.step_shared]
  | gate t => simp only [step]; rw [gateStep_shared]
  | resume f => simp only [step]; rw [ResumeFrame.step_shared]

end Frame

/-- An in-memory state is only ever taken by a terminal path. -/
theorem state_step_some
    {uuid7 : String} {e : Engine} {a : Answer} {f : Frame}
    (hstate : e.pipelineStates uuid7 ≠ none)
    (htake : ∀ ending, f ≠ .terminal (.take uuid7 ending)) :
    (f.step e a).shared.pipelineStates uuid7 ≠ none := by
  by_cases hsub : f.stateSubject = some uuid7
  · obtain ⟨state, hstate⟩ := Option.ne_none_iff_exists'.mp hstate
    cases f with
    | ingest f =>
        cases f <;> simp only [Frame.stateSubject, Option.some.injEq,
          reduceCtorEq] at hsub
        subst hsub
        simp [Frame.step, IngestFrame.step, Engine.putState]
    | recovery f =>
        cases f <;> simp only [Frame.stateSubject, Option.some.injEq,
          reduceCtorEq] at hsub
        subst hsub
        simp [Frame.step, RecoveryFrame.step, Engine.putState]
    | inProcess f =>
        cases f <;> simp only [Frame.stateSubject, Option.some.injEq,
          reduceCtorEq] at hsub
        all_goals
          subst hsub
          simp [Frame.step, InProcessFrame.step, Engine.putState, hstate]
    | postProcess f =>
        cases f <;> simp only [Frame.stateSubject, Option.some.injEq,
          reduceCtorEq] at hsub
        subst hsub
        simp [Frame.step, PostProcessFrame.step, Engine.putState, hstate]
    | terminal f =>
        cases f <;> simp only [Frame.stateSubject, Option.some.injEq,
          reduceCtorEq] at hsub
        subst hsub
        exact absurd rfl (htake _)
    | reply f =>
        cases f <;> simp only [Frame.stateSubject, Option.some.injEq,
          reduceCtorEq] at hsub
        all_goals
          subst hsub
          simp [Frame.step, ReplyFrame.step, Engine.modifyState, Engine.putState,
            hstate]
    | advance f =>
        cases f <;> simp only [Frame.stateSubject, Option.some.injEq,
          reduceCtorEq] at hsub
        all_goals
          subst hsub
          simp [Frame.step, AdvanceFrame.step, Engine.modifyState,
            Engine.putState, Engine.logged, hstate]
    | _ => simp [Frame.stateSubject] at hsub
  · rwa [Frame.step_pipelineStates e a hsub]

section Stacks

/-- The loops: the frames that wait while the message they are working on is
driven further. -/
def Frame.IsLoop : Frame → Prop
  | .sweep .start => True
  | .sweep (.next _) => True
  | .resume (.spawnReplay _) => True
  | .resume (.replayNext _) => True
  | .recovery (.drainNext _) => True
  | _ => False

@[simp] theorem isLoop_next (sw : Sweep) :
    (Frame.sweep (.next sw)).IsLoop := trivial

@[simp] theorem isLoop_start : (Frame.sweep .start).IsLoop := trivial

@[simp] theorem isLoop_spawnReplay (held : List (String × HoldPoint)) :
    (Frame.resume (.spawnReplay held)).IsLoop := trivial

@[simp] theorem isLoop_replayNext (held : List (String × HoldPoint)) :
    (Frame.resume (.replayNext held)).IsLoop := trivial

@[simp] theorem isLoop_drainNext (uuids : List String) :
    (Frame.recovery (.drainNext uuids)).IsLoop := trivial

theorem IngestFrame.next_tail
    {e : Engine} {a : Answer} {f : IngestFrame} {fs : List Frame}
    (h : (f.step e a).next = some fs) :
    fs.tail = [] := by
  cases f <;> simp only [step, afterCommand] at h
  all_goals
    repeat' split at h
    all_goals cases h <;> rfl

theorem SweepFrame.expire_waiting
    {e : Engine} {sw : Sweep} {entry : PendingAck} {still : Bool}
    {fs : List Frame}
    (h : (expire e sw entry still).next = some fs) :
    ∀ g ∈ fs.tail, g.IsLoop := by
  unfold expire at h
  split at h
  all_goals
    split at h
    all_goals
      cases h
      simp

theorem SweepFrame.step_waiting
    {e : Engine} {a : Answer} {f : SweepFrame} {fs : List Frame}
    (h : (f.step e a).next = some fs) :
    ∀ g ∈ fs.tail, g.IsLoop := by
  cases f with
  | start =>
      simp only [step] at h
      split at h
      all_goals
        cases h
        simp
  | config => cases h; simp
  | drain cfg => cases h; simp
  | next sw =>
      simp only [step] at h
      split at h
      · cases h; simp
      · split at h
        · cases h; simp
        · exact expire_waiting h
  | resendLoad sw entry still =>
      simp only [step] at h
      split at h
      · exact expire_waiting h
      · cases h; simp
  | resendSend sw entry still container =>
      simp only [step] at h
      split at h
      · cases h; simp
      · exact expire_waiting h
  | resendTrack sw entry => cases h; simp

/-- What waits under another frame of its stack is a loop. -/
theorem step_waiting
    {e : Engine} {a : Answer} {f : Frame} {fs : List Frame}
    (h : (f.step e a).next = some fs) :
    ∀ g ∈ fs.tail, g.IsLoop := by
  cases f with
  | ingest f => simp [IngestFrame.next_tail h]
  | recovery f =>
      cases f with
      | drainNext uuids => cases uuids <;> cases h <;> simp
      | _ =>
          simp only [Frame.step, RecoveryFrame.step] at h
          repeat' split at h
          all_goals cases h <;> simp
  | broadcast f =>
      cases f <;> simp only [Frame.step, BroadcastFrame.step] at h
      all_goals
        repeat' split at h
        all_goals
          cases h
          simp
  | fanout f =>
      cases f with
      | send fo todo =>
          cases todo <;> simp only [Frame.step, FanoutFrame.step] at h
          all_goals
            split at h
            all_goals
              cases h
              simp
      | track => cases h; simp
  | inProcess f =>
      cases f <;> simp only [Frame.step, InProcessFrame.step] at h
      all_goals
        repeat' split at h
        all_goals cases h <;> simp
  | postProcess f =>
      cases f <;> simp only [Frame.step, PostProcessFrame.step] at h
      all_goals
        repeat' split at h
        all_goals cases h <;> simp
  | terminal f =>
      cases f <;> simp only [Frame.step, TerminalFrame.step] at h
      all_goals
        repeat' split at h
        all_goals cases h <;> simp
  | reply f =>
      cases f <;> simp only [Frame.step, ReplyFrame.step] at h
      all_goals
        repeat' split at h
        all_goals
          cases h
          simp
  | advance f =>
      cases f <;> simp only [Frame.step, AdvanceFrame.step] at h
      all_goals
        repeat' split at h
        all_goals
          cases h
          simp
  | sweep f => exact SweepFrame.step_waiting h
  | gate t =>
      cases t with
      | clearBlock reason =>
          cases h
          simp only [GateTask.step]
          split <;> simp
      | _ =>
          cases h
          simp [GateTask.step]
  | resume f =>
      cases f with
      | replayNext held => cases held <;> cases h <;> simp
      | _ => cases h; simp
  | audit f =>
      cases f <;> simp only [Frame.step, AuditFrame.step] at h
      all_goals
        repeat' split at h
        all_goals
          cases h
          simp

/-- A step that leaves no loop behind leaves one frame at most. -/
theorem next_of_no_loop
    {e : Engine} {a : Answer} {f : Frame} {fs : List Frame}
    (hloop : ∀ g ∈ (f.step e a).new, ¬ g.IsLoop)
    (hnext : (f.step e a).next = some fs) :
    fs = [] ∨ ∃ g ∈ (f.step e a).new, fs = [g] := by
  have hnew (g : Frame) (hg : g ∈ fs) : g ∈ (f.step e a).new := by
    simp [Outcome.new, hnext, hg]
  cases fs with
  | nil => exact Or.inl rfl
  | cons g gs =>
      cases gs with
      | nil => exact Or.inr ⟨g, hnew g (List.mem_cons_self ..), rfl⟩
      | cons g' gs =>
          exact absurd (step_waiting hnext g' (List.mem_cons_self ..))
            (hloop g' (hnew g' (by simp)))

/-- Only `resume` starts a task of its own: the replay. -/
theorem step_spawned
    {e : Engine} {a : Answer} {f : Frame} {t : List Frame}
    (h : t ∈ (f.step e a).spawned) :
    ∃ held, f = .resume (.spawnReplay held) ∧
      t = [.resume (.replayNext held)] := by
  cases f with
  | resume f =>
      cases f with
      | spawnReplay held =>
          simp only [Frame.step, ResumeFrame.step] at h
          split at h
          · simp at h
          · exact ⟨held, rfl, by simpa using h⟩
      | replayNext held => cases held <;> simp [Frame.step, ResumeFrame.step] at h
      | restartClocks => simp [Frame.step, ResumeFrame.step] at h
  | ingest f =>
      cases f <;> simp only [Frame.step, IngestFrame.step] at h
      all_goals
        repeat' split at h
        all_goals simp at h
  | recovery f =>
      cases f with
      | drainNext uuids =>
          cases uuids <;> simp [Frame.step, RecoveryFrame.step] at h
      | _ =>
          simp only [Frame.step, RecoveryFrame.step] at h
          repeat' split at h
          all_goals simp at h
  | broadcast f =>
      cases f <;> simp only [Frame.step, BroadcastFrame.step] at h
      all_goals
        repeat' split at h
        all_goals simp at h
  | fanout f =>
      cases f with
      | send fo todo =>
          cases todo <;> simp only [Frame.step, FanoutFrame.step] at h
          all_goals
            split at h
            all_goals simp at h
      | track => simp [Frame.step, FanoutFrame.step] at h
  | inProcess f =>
      cases f <;> simp only [Frame.step, InProcessFrame.step] at h
      all_goals
        repeat' split at h
        all_goals simp at h
  | postProcess f =>
      cases f <;> simp only [Frame.step, PostProcessFrame.step] at h
      all_goals
        repeat' split at h
        all_goals simp at h
  | terminal f =>
      cases f <;> simp only [Frame.step, TerminalFrame.step] at h
      all_goals
        repeat' split at h
        all_goals simp at h
  | reply f =>
      cases f <;> simp only [Frame.step, ReplyFrame.step] at h
      all_goals
        repeat' split at h
        all_goals simp at h
  | advance f =>
      cases f <;> simp only [Frame.step, AdvanceFrame.step] at h
      all_goals
        repeat' split at h
        all_goals simp at h
  | sweep f =>
      cases f <;> simp only [Frame.step, SweepFrame.step, SweepFrame.expire] at h
      all_goals
        repeat' split at h
        all_goals simp at h
  | gate t => cases t <;> simp [Frame.step, gateStep] at h
  | audit f =>
      cases f <;> simp only [Frame.step, AuditFrame.step] at h
      all_goals
        repeat' split at h
        all_goals simp at h

theorem starts_tail
    {ev : WorldEvent} {t : List Frame}
    (h : t ∈ ev.starts) :
    t.tail = [] := by
  cases ev <;> simp only [WorldEvent.starts] at h
  case reply r =>
    split at h <;> simp_all
  case receipt uuid7 moduleName =>
    split at h <;> simp_all
  all_goals simp_all

theorem engine_leavesWaiting : engine.LeavesWaiting Frame.IsLoop where
  next hstep hnext := by
    cases hstep
    exact step_waiting hnext
  spawned hstep t ht := by
    cases hstep
    obtain ⟨held, _, rfl⟩ := step_spawned ht
    simp
  event hev t ht := by
    cases hev
    simp [starts_tail ht]

theorem boot_waiting (e : Engine) : (boot e).Waiting Frame.IsLoop := by
  simp [Pool.Waiting, boot]

end Stacks
end CockatielEngine
