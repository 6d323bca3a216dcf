import CockatielEngine.Pipeline.Effects

/-!
# Pipeline: which frame can follow which

`Leads e a f g` says that running `f` on the engine `e` with the world's answer
`a` can leave `g` behind.  It is the inversion of `Frame.step`: what has to hold
of `e` and `a` for `g` to come out is a premise of its rule.
-/

namespace CockatielEngine

open TaskPool

/-- The frames the timeout path of one drained entry leaves behind. -/
inductive Expires (sw : Sweep) (entry : PendingAck) (still : Bool) :
    Frame → Prop
  | skip :
      Expires sw entry still (.sweep (.next sw))
  | fail :
      sw.config.criticalModules.contains entry.moduleName = true →
      sw.failed.contains entry.uuid7 = false →
      Expires sw entry still (.terminal (.check entry.uuid7
        (.failed (criticalTimeoutError entry.moduleName entry.stage))))
  | failed :
      sw.config.criticalModules.contains entry.moduleName = true →
      sw.failed.contains entry.uuid7 = false →
      Expires sw entry still
        (.sweep (.next { sw with failed := entry.uuid7 :: sw.failed }))
  | advance :
      sw.config.criticalModules.contains entry.moduleName = false →
      SweepFrame.advances sw entry still = true →
      Expires sw entry still (SweepFrame.advanceFrame entry.uuid7
        sw.config.inProcessModules.length entry.stage)
  | advanced :
      sw.config.criticalModules.contains entry.moduleName = false →
      SweepFrame.advances sw entry still = true →
      Expires sw entry still
        (.sweep (.next { sw with advanced := entry.uuid7 :: sw.advanced }))

theorem expires_of_mem
    {e : Engine} {sw : Sweep} {entry : PendingAck} {still : Bool} {g : Frame}
    (h : g ∈ (SweepFrame.expire e sw entry still).new) :
    Expires sw entry still g := by
  simp only [SweepFrame.expire] at h
  split at h
  · rename_i hcrit
    split at h
    · obtain rfl : g = _ := by simpa using h
      exact .skip
    · rename_i hfailed
      simp only [new_go, List.mem_cons, List.not_mem_nil, or_false] at h
      rcases h with rfl | rfl
      · exact .fail hcrit (by simpa using hfailed)
      · exact .failed hcrit (by simpa using hfailed)
  · rename_i hcrit
    split at h
    · rename_i hadv
      simp only [new_go, List.mem_cons, List.not_mem_nil, or_false] at h
      rcases h with rfl | rfl
      · exact .advance (by simpa using hcrit) hadv
      · exact .advanced (by simpa using hcrit) hadv
    · obtain rfl : g = _ := by simpa using h
      exact .skip

/-- The frames of the timeout path: the loop itself, or a way out of the stage
for the message of the entry. -/
theorem Expires.shape
    {sw : Sweep} {entry : PendingAck} {still : Bool} {g : Frame}
    (h : Expires sw entry still g) :
    (∃ sw', g = .sweep (.next sw') ∧ sw'.todo = sw.todo) ∨
    (∃ error, g = .terminal (.check entry.uuid7 (.failed error))) ∨
    g = .advance (.notePre entry.uuid7) ∨
    (∃ len, g = .advance (.noteIn entry.uuid7 len)) ∨
    g = .terminal (.check entry.uuid7 .complete) := by
  cases h with
  | skip => exact Or.inl ⟨_, rfl, rfl⟩
  | fail _ _ => exact Or.inr (Or.inl ⟨_, rfl⟩)
  | failed _ _ => exact Or.inl ⟨_, rfl, rfl⟩
  | advanced _ _ => exact Or.inl ⟨_, rfl, rfl⟩
  | advance _ _ =>
      cases entry.stage with
      | preProcess => exact Or.inr (Or.inr (Or.inl rfl))
      | inProcess => exact Or.inr (Or.inr (Or.inr (Or.inl ⟨_, rfl⟩)))
      | postProcess => exact Or.inr (Or.inr (Or.inr (Or.inr rfl)))

inductive Leads (e : Engine) (a : Answer) : Frame → Frame → Prop
  | insertEvent_setCommand {msg command} :
      e.timeline.row? msg.uuid7 = none →
      Leads e a (.ingest (.insertEvent msg)) (.ingest (.setCommand msg command))
  | insertEvent_setUserUuid {msg} :
      e.timeline.row? msg.uuid7 = none →
      Leads e a (.ingest (.insertEvent msg)) (.ingest (.setUserUuid msg))
  | insertEvent_insertState {msg} :
      e.timeline.row? msg.uuid7 = none →
      Leads e a (.ingest (.insertEvent msg)) (.ingest (.insertState msg))
  | setCommand_setUserUuid {msg command} :
      Leads e a (.ingest (.setCommand msg command)) (.ingest (.setUserUuid msg))
  | setCommand_insertState {msg command} :
      Leads e a (.ingest (.setCommand msg command)) (.ingest (.insertState msg))
  | setUserUuid_insertState {msg} :
      Leads e a (.ingest (.setUserUuid msg)) (.ingest (.insertState msg))
  | insertState_broadcast {msg} :
      Leads e a (.ingest (.insertState msg)) (.broadcast (.enter msg.uuid7))
  | recover_load {uuid7} :
      e.pipelineStates uuid7 = none →
      Leads e a (.recovery (.check uuid7)) (.recovery (.load uuid7))
  | recover_insertState {uuid7 msg} :
      e.timeline.loadQueuedMessage uuid7 = some msg →
      Leads e a (.recovery (.load uuid7)) (.recovery (.insertState uuid7 msg))
  | recover_broadcast {uuid7 msg} :
      Leads e a (.recovery (.insertState uuid7 msg)) (.broadcast (.enter uuid7))
  | drainQueued :
      Leads e a (.recovery .drainQueued)
        (.recovery (.drainNext e.timeline.getQueuedUuids))
  | drainNext_check {uuid7 uuids} :
      Leads e a (.recovery (.drainNext (uuid7 :: uuids)))
        (.recovery (.check uuid7))
  | drainNext {uuid7 uuids} :
      Leads e a (.recovery (.drainNext (uuid7 :: uuids)))
        (.recovery (.drainNext uuids))
  | broadcast_load {uuid7} :
      e.pauseState.isGated = false →
      Leads e a (.broadcast (.enter uuid7)) (.broadcast (.load uuid7))
  | broadcast_config {uuid7 state} :
      e.pipelineStates uuid7 = some state →
      Leads e a (.broadcast (.load uuid7)) (.broadcast (.config uuid7 state))
  | broadcast_fanout {uuid7 state} :
      Leads e a (.broadcast (.config uuid7 state))
        (.fanout (.send
          { uuid7
            stage := .preProcess
            container := state.preProcessContainer uuid7
            ackTimeoutMs := e.config.ackTimeoutMs
            sentAny := false }
          (commandRecipients state.parsedCommand e.commandRegistry
            e.config.preProcessModules)))
  | fanout_nobody {fo} :
      fo.sentAny = false →
      Leads e a (.fanout (.send fo [])) (FanoutFrame.nobody fo.uuid7 fo.stage)
  | fanout_track {fo moduleName todo} :
      a.permitted = true →
      a.outcome = .sent →
      Leads e a (.fanout (.send fo (moduleName :: todo)))
        (.fanout (.track { fo with sentAny := true } moduleName todo))
  | fanout_skip {fo moduleName todo} :
      Leads e a (.fanout (.send fo (moduleName :: todo)))
        (.fanout (.send fo todo))
  | fanout_send {fo moduleName todo} :
      Leads e a (.fanout (.track fo moduleName todo)) (.fanout (.send fo todo))
  | inProcess_audit {uuid7} :
      e.pauseState.isGated = false →
      Leads e a (.inProcess (.enter uuid7)) (.inProcess (.audit uuid7))
  | inProcess_load {uuid7} :
      e.timeline.isAudited uuid7 = false →
      Leads e a (.inProcess (.audit uuid7)) (.inProcess (.load uuid7))
  | inProcess_config {uuid7 state} :
      e.pipelineStates uuid7 = some state →
      Leads e a (.inProcess (.load uuid7))
        (.inProcess (.config uuid7 { state with stage := .inProcessing }))
  | inProcess_end {uuid7 state} :
      e.config.inProcessModules[state.currentInProcessIndex]? = none →
      Leads e a (.inProcess (.config uuid7 state)) (.postProcess (.enter uuid7))
  | inProcess_send {uuid7 state moduleName} :
      e.config.inProcessModules[state.currentInProcessIndex]? =
        some moduleName →
      Leads e a (.inProcess (.config uuid7 state))
        (.inProcess (.send uuid7 state moduleName e.config.ackTimeoutMs
          e.config.inProcessModules.length))
  | inProcess_skip {uuid7 state} :
      Leads e a (.inProcess (.config uuid7 state))
        (.inProcess (.skip uuid7 e.config.inProcessModules.length))
  | inProcess_track {uuid7 state moduleName ackTimeoutMs len} :
      a.permitted = true →
      a.outcome = .sent →
      Leads e a (.inProcess (.send uuid7 state moduleName ackTimeoutMs len))
        (.inProcess (.track uuid7 moduleName ackTimeoutMs))
  | inProcess_unsent {uuid7 state moduleName ackTimeoutMs len} :
      Leads e a (.inProcess (.send uuid7 state moduleName ackTimeoutMs len))
        (.inProcess (.skip uuid7 len))
  | inProcess_last {uuid7 len} :
      Leads e a (.inProcess (.skip uuid7 len)) (.postProcess (.enter uuid7))
  | inProcess_next {uuid7 len} :
      Leads e a (.inProcess (.skip uuid7 len)) (.inProcess (.enter uuid7))
  | postProcess_audit {uuid7} :
      e.pauseState.isGated = false →
      Leads e a (.postProcess (.enter uuid7)) (.postProcess (.audit uuid7))
  | postProcess_load {uuid7} :
      e.timeline.isAudited uuid7 = false →
      Leads e a (.postProcess (.audit uuid7)) (.postProcess (.load uuid7))
  | postProcess_config {uuid7 state} :
      e.pipelineStates uuid7 = some state →
      Leads e a (.postProcess (.load uuid7))
        (.postProcess (.config uuid7 { state with stage := .postProcessing }))
  | postProcess_fanout {uuid7 state} :
      Leads e a (.postProcess (.config uuid7 state))
        (.fanout (.send
          { uuid7
            stage := .postProcess
            container := state.postProcessContainer uuid7
            ackTimeoutMs := e.config.ackTimeoutMs
            sentAny := false }
          (postProcessRecipients state.parsedCommand e.commandRegistry
            e.config.postProcessModules)))
  | terminal_held {uuid7 ending} :
      e.timeline.isAudited uuid7 = true →
      Leads e a (.terminal (.check uuid7 ending)) (.terminal (.snapshot uuid7))
  | terminal_take {uuid7 ending} :
      e.timeline.isAudited uuid7 = false →
      Leads e a (.terminal (.check uuid7 ending)) (.terminal (.take uuid7 ending))
  | terminal_writeHeld {uuid7} :
      Leads e a (.terminal (.snapshot uuid7))
        (.terminal (.writeHeld uuid7
          (((e.pipelineStates uuid7).map PipelineState.result).getD {})))
  | terminal_write {uuid7 ending} :
      Leads e a (.terminal (.take uuid7 ending))
        (.terminal (.write uuid7 ending
          (((e.pipelineStates uuid7).map PipelineState.result).getD {})))
  | terminal_ack {uuid7 ending result} :
      Leads e a (.terminal (.write uuid7 ending result)) (.terminal (.ack uuid7))
  | reply_record {reply} :
      e.ackTracker.isPendingFor reply.uuid7 reply.moduleName reply.stage =
        true →
      Leads e a (.reply (.check reply)) (.reply (.record reply))
  | reply_audio {reply} :
      Leads e a (.reply (.record reply)) (.reply (.audio reply))
  | reply_abandon {reply} :
      reply.stage = .inProcess →
      reply.abandonMessage = true →
      Leads e a (.reply (.audio reply)) (.terminal (.check reply.uuid7
        (.dropped (abandonReason reply.moduleName))))
  | reply_ackConfig {reply} :
      Leads e a (.reply (.audio reply))
        (.reply (.ackConfig reply.uuid7 reply.moduleName))
  | reply_ackModule {uuid7 moduleName} :
      Leads e a (.reply (.ackConfig uuid7 moduleName))
        (.reply (.ackModule uuid7 moduleName e.config.inProcessModules.length))
  | ack_pre {uuid7 moduleName len elapsed tracker} :
      e.ackTracker.ackModule e.now uuid7 moduleName =
        (some (.preProcess, elapsed, false), tracker) →
      Leads e a (.reply (.ackModule uuid7 moduleName len))
        (.advance (.notePre uuid7))
  | ack_in {uuid7 moduleName len elapsed still tracker} :
      e.ackTracker.ackModule e.now uuid7 moduleName =
        (some (.inProcess, elapsed, still), tracker) →
      Leads e a (.reply (.ackModule uuid7 moduleName len))
        (.advance (.noteIn uuid7 len))
  | ack_post {uuid7 moduleName len elapsed tracker} :
      e.ackTracker.ackModule e.now uuid7 moduleName =
        (some (.postProcess, elapsed, false), tracker) →
      Leads e a (.reply (.ackModule uuid7 moduleName len))
        (.terminal (.check uuid7 .complete))
  | notePre {uuid7} :
      Leads e a (.advance (.notePre uuid7)) (.inProcess (.enter uuid7))
  | noteIn {uuid7 len} :
      Leads e a (.advance (.noteIn uuid7 len)) (.advance (.nextIndex uuid7 len))
  | nextIndex_refresh {uuid7 len} :
      Leads e a (.advance (.nextIndex uuid7 len)) (.advance (.refresh uuid7))
  | nextIndex_inProcess {uuid7 len} :
      Leads e a (.advance (.nextIndex uuid7 len)) (.inProcess (.enter uuid7))
  | refresh_store {uuid7 userData} :
      Leads e a (.advance (.refresh uuid7))
        (.advance (.storeUserData uuid7 userData))
  | refresh_postProcess {uuid7} :
      Leads e a (.advance (.refresh uuid7)) (.postProcess (.enter uuid7))
  | store_postProcess {uuid7 userData} :
      Leads e a (.advance (.storeUserData uuid7 userData))
        (.postProcess (.enter uuid7))
  | sweep_config :
      e.pauseState.isGated = false →
      Leads e a (.sweep .start) (.sweep .config)
  | sweep_drain :
      Leads e a (.sweep .config) (.sweep (.drain e.config))
  | sweep_first {cfg todo} :
      todo = SweepFrame.drained a (e.ackTracker.checkTimeouts e.now).1 →
      Leads e a (.sweep (.drain cfg))
        (.sweep (.next
          { config := cfg
            todo
            criticalUuids := SweepFrame.criticalUuids cfg todo }))
  | sweep_resendLoad {sw entry still todo} :
      sw.todo = (entry, still) :: todo →
      SweepFrame.wantsResend entry = true →
      Leads e a (.sweep (.next sw))
        (.sweep (.resendLoad { sw with todo := todo } entry still))
  | sweep_expire {sw entry still todo g} :
      sw.todo = (entry, still) :: todo →
      SweepFrame.wantsResend entry = false →
      Expires { sw with todo := todo } entry still g →
      Leads e a (.sweep (.next sw)) g
  | sweep_gone {sw entry still g} :
      e.pipelineStates entry.uuid7 = none →
      Expires sw entry still g →
      Leads e a (.sweep (.resendLoad sw entry still)) g
  | sweep_resendSend {sw entry still state} :
      e.pipelineStates entry.uuid7 = some state →
      Leads e a (.sweep (.resendLoad sw entry still))
        (.sweep (.resendSend sw entry still
          (state.resendContainer entry.uuid7 entry.stage)))
  | sweep_resendTrack {sw entry still container} :
      a.outcome = .sent →
      Leads e a (.sweep (.resendSend sw entry still container))
        (.sweep (.resendTrack sw entry))
  | sweep_unsent {sw entry still container g} :
      a.outcome ≠ .sent →
      Expires sw entry still g →
      Leads e a (.sweep (.resendSend sw entry still container)) g
  | sweep_resent {sw entry} :
      Leads e a (.sweep (.resendTrack sw entry))
        (.sweep (.next { sw with resent := entry.uuid7 :: sw.resent }))
  | gate_told {reason} :
      (e.pauseState.clearBlock reason).1 = true →
      Leads e a (.gate (.clearBlock reason)) (.gate (.resume true))
  | gate_setPaused {paused} :
      Leads e a (.gate (.setPaused paused))
        (.gate (GateTask.ofRequest paused e.pauseState.blocked))
  | resume_restartClocks {told} :
      Leads e a (.gate (.resume told)) (.resume .restartClocks)
  | resume_sweep {told} :
      Leads e a (.gate (.resume told)) (.sweep .start)
  | resume_spawnReplay {told} :
      Leads e a (.gate (.resume told))
        (.resume (.spawnReplay e.pauseState.held))
  | replay_spawn {held} :
      Leads e a (.resume (.spawnReplay held)) (.resume (.replayNext held))
  | replay_hold {uuid7 point held} :
      Leads e a (.resume (.replayNext ((uuid7, point) :: held)))
        (replayHold uuid7 point)
  | replay_next {uuid7 point held} :
      Leads e a (.resume (.replayNext ((uuid7, point) :: held)))
        (.resume (.replayNext held))
  | audit_mark {uuid7 reason} :
      Leads e a (.audit (.flag uuid7 reason)) (.audit (.mark uuid7 reason))

section Inversion

variable {e : Engine} {a : Answer} {g : Frame}

theorem row?_of_insertEvent
    {t t' : Timeline} {uuid7 : String} {row : Row}
    (h : t.insertEvent uuid7 row = some t') :
    t.row? uuid7 = none := by
  by_contra hne
  simp [Timeline.insertEvent, Option.isSome_iff_ne_none, hne] at h

theorem IngestFrame.leads {f : IngestFrame} (h : g ∈ (f.step e a).new) :
    Leads e a (.ingest f) g := by
  cases f with
  | insertEvent msg =>
      simp only [step, afterCommand] at h
      split at h
      · cases hins : e.timeline.insertEvent msg.uuid7 (row msg) with
        | none => simp [hins] at h
        | some timeline =>
            have hrow := row?_of_insertEvent hins
            simp only [hins] at h
            repeat' split at h
            all_goals
              obtain rfl : g = _ := by simpa using h
            · exact .insertEvent_setCommand hrow
            · exact .insertEvent_insertState hrow
            · exact .insertEvent_setUserUuid hrow
      · simp at h
  | setCommand msg command =>
      simp only [step, afterCommand] at h
      repeat' split at h
      all_goals simp at h
      all_goals obtain rfl := h
      · exact .setCommand_insertState
      · exact .setCommand_setUserUuid
  | setUserUuid msg =>
      simp only [step] at h
      split at h
      · obtain rfl : g = _ := by simpa using h
        exact .setUserUuid_insertState
      · simp at h
  | insertState msg =>
      obtain rfl : g = _ := by simpa [step] using h
      exact .insertState_broadcast

theorem RecoveryFrame.leads {f : RecoveryFrame} (h : g ∈ (f.step e a).new) :
    Leads e a (.recovery f) g := by
  cases f with
  | check uuid7 =>
      simp only [step] at h
      split at h
      · simp at h
      · obtain rfl : g = _ := by simpa using h
        exact .recover_load (by simp_all)
  | load uuid7 =>
      simp only [step] at h
      repeat' split at h
      all_goals simp at h
      obtain rfl := h
      exact .recover_insertState (by assumption)
  | insertState uuid7 msg =>
      obtain rfl : g = _ := by simpa [step] using h
      exact .recover_broadcast
  | drainQueued =>
      simp only [step] at h
      split at h
      · obtain rfl : g = _ := by simpa using h
        exact .drainQueued
      · simp at h
  | drainNext uuids =>
      cases uuids with
      | nil => simp [step] at h
      | cons uuid7 uuids =>
          simp only [step, new_go, List.mem_cons, List.not_mem_nil, or_false] at h
          rcases h with rfl | rfl
          · exact .drainNext_check
          · exact .drainNext

theorem BroadcastFrame.leads {f : BroadcastFrame} (h : g ∈ (f.step e).new) :
    Leads e a (.broadcast f) g := by
  cases f with
  | enter uuid7 =>
      cases hgate : e.pauseState.isGated with
      | true => simp [step, PauseState.holdIfGated, hgate] at h
      | false =>
          obtain rfl : g = _ := by
            simpa [step, PauseState.holdIfGated, hgate] using h
          exact .broadcast_load hgate
  | load uuid7 =>
      simp only [step] at h
      split at h
      · simp at h
      · obtain rfl : g = _ := by simpa using h
        exact .broadcast_config (by assumption)
  | config uuid7 state =>
      obtain rfl : g = _ := by simpa [step] using h
      exact .broadcast_fanout

theorem FanoutFrame.leads {f : FanoutFrame} (h : g ∈ (f.step e a).new) :
    Leads e a (.fanout f) g := by
  cases f with
  | send fo todo =>
      cases todo with
      | nil =>
          simp only [step] at h
          split at h
          · simp at h
          · obtain rfl : g = _ := by simpa using h
            exact .fanout_nobody (by simp_all)
      | cons moduleName todo =>
          simp only [step] at h
          split at h
          · rename_i hsent
            obtain rfl : g = _ := by simpa using h
            simp only [Bool.and_eq_true, decide_eq_true_eq] at hsent
            exact .fanout_track hsent.1 hsent.2
          · obtain rfl : g = _ := by simpa using h
            exact .fanout_skip
  | track fo moduleName todo =>
      obtain rfl : g = _ := by simpa [step] using h
      exact .fanout_send

theorem InProcessFrame.leads {f : InProcessFrame} (h : g ∈ (f.step e a).new) :
    Leads e a (.inProcess f) g := by
  cases f with
  | enter uuid7 =>
      cases hgate : e.pauseState.isGated with
      | true => simp [step, PauseState.holdIfGated, hgate] at h
      | false =>
          obtain rfl : g = _ := by
            simpa [step, PauseState.holdIfGated, hgate] using h
          exact .inProcess_audit hgate
  | audit uuid7 =>
      simp only [step] at h
      repeat' split at h
      all_goals simp at h
      obtain rfl := h
      exact .inProcess_load (by simp_all)
  | load uuid7 =>
      simp only [step] at h
      split at h
      · simp at h
      · obtain rfl : g = _ := by simpa using h
        exact .inProcess_config (by assumption)
  | config uuid7 state =>
      simp only [step] at h
      split at h
      · obtain rfl : g = _ := by simpa using h
        exact .inProcess_end (by assumption)
      · split at h
        · obtain rfl : g = _ := by simpa using h
          exact .inProcess_send (by assumption)
        · obtain rfl : g = _ := by simpa using h
          exact .inProcess_skip
  | send uuid7 state moduleName ackTimeoutMs len =>
      simp only [step] at h
      split at h
      · rename_i hsent
        obtain rfl : g = _ := by simpa using h
        simp only [Bool.and_eq_true, decide_eq_true_eq] at hsent
        exact .inProcess_track hsent.1 hsent.2
      · obtain rfl : g = _ := by simpa using h
        exact .inProcess_unsent
  | track uuid7 moduleName ackTimeoutMs => simp [step] at h
  | skip uuid7 len =>
      simp only [step] at h
      repeat' split at h
      all_goals simp at h
      all_goals obtain rfl := h
      · exact .inProcess_last
      · exact .inProcess_next

theorem PostProcessFrame.leads {f : PostProcessFrame}
    (h : g ∈ (f.step e a).new) :
    Leads e a (.postProcess f) g := by
  cases f with
  | enter uuid7 =>
      cases hgate : e.pauseState.isGated with
      | true => simp [step, PauseState.holdIfGated, hgate] at h
      | false =>
          obtain rfl : g = _ := by
            simpa [step, PauseState.holdIfGated, hgate] using h
          exact .postProcess_audit hgate
  | audit uuid7 =>
      simp only [step] at h
      repeat' split at h
      all_goals simp at h
      obtain rfl := h
      exact .postProcess_load (by simp_all)
  | load uuid7 =>
      simp only [step] at h
      split at h
      · simp at h
      · obtain rfl : g = _ := by simpa using h
        exact .postProcess_config (by assumption)
  | config uuid7 state =>
      obtain rfl : g = _ := by simpa [step] using h
      exact .postProcess_fanout

theorem TerminalFrame.leads {f : TerminalFrame} (h : g ∈ (f.step e a).new) :
    Leads e a (.terminal f) g := by
  cases f with
  | check uuid7 ending =>
      simp only [step] at h
      repeat' split at h
      all_goals simp at h
      all_goals obtain rfl := h
      · exact .terminal_held (by assumption)
      · exact .terminal_take (by simp_all)
  | snapshot uuid7 =>
      obtain rfl : g = _ := by simpa [step] using h
      exact .terminal_writeHeld
  | writeHeld uuid7 result =>
      simp only [step] at h
      split at h
      all_goals simp at h
  | take uuid7 ending =>
      simp only [step] at h
      split at h
      · simp at h
      · rename_i hnone _
        obtain rfl : g = _ := by simpa using h
        refine (congrArg (Leads e a _) ?_).mp Leads.terminal_write
        rw [hnone]
        rfl
      · rename_i hsome
        obtain rfl : g = _ := by simpa using h
        refine (congrArg (Leads e a _) ?_).mp Leads.terminal_write
        rw [hsome]
        rfl
  | write uuid7 ending result =>
      simp only [step] at h
      split at h
      · obtain rfl : g = _ := by simpa using h
        exact .terminal_ack
      · simp at h
  | ack uuid7 => simp [step] at h

theorem ReplyFrame.leads {f : ReplyFrame} (h : g ∈ (f.step e).new) :
    Leads e a (.reply f) g := by
  cases f with
  | check reply =>
      simp only [step, new_go] at h
      split at h
      · obtain rfl : g = _ := by simpa using h
        exact .reply_record (by assumption)
      · simp at h
  | record reply =>
      obtain rfl : g = _ := by simpa [step] using h
      exact .reply_audio
  | audio reply =>
      simp only [step, new_go] at h
      split at h
      · rename_i habandon
        obtain rfl : g = _ := by simpa using h
        exact .reply_abandon habandon.1 habandon.2
      · obtain rfl : g = _ := by simpa using h
        exact .reply_ackConfig
  | ackConfig uuid7 moduleName =>
      obtain rfl : g = _ := by simpa [step] using h
      exact .reply_ackModule
  | ackModule uuid7 moduleName len =>
      simp only [step] at h
      split at h
      · simp at h
      · rename_i stage elapsed still tracker hack
        cases stage <;> cases still <;> simp at h
        all_goals obtain rfl := h
        · exact .ack_pre hack
        · exact .ack_in hack
        · exact .ack_in hack
        · exact .ack_post hack
  | receipt uuid7 moduleName => simp [step] at h

theorem AdvanceFrame.leads {f : AdvanceFrame} (h : g ∈ (f.step e a).new) :
    Leads e a (.advance f) g := by
  cases f with
  | notePre uuid7 =>
      obtain rfl : g = _ := by simpa [step] using h
      exact .notePre
  | noteIn uuid7 len =>
      obtain rfl : g = _ := by simpa [step] using h
      exact .noteIn
  | nextIndex uuid7 len =>
      simp only [step] at h
      repeat' split at h
      all_goals simp at h
      all_goals obtain rfl := h
      · exact .nextIndex_refresh
      · exact .nextIndex_inProcess
  | refresh uuid7 =>
      simp only [step] at h
      split at h
      all_goals
        obtain rfl : g = _ := by simpa using h
      · exact .refresh_store
      · exact .refresh_postProcess
  | storeUserData uuid7 userData =>
      obtain rfl : g = _ := by simpa [step] using h
      exact .store_postProcess

theorem SweepFrame.leads {f : SweepFrame} (h : g ∈ (f.step e a).new) :
    Leads e a (.sweep f) g := by
  cases f with
  | start =>
      simp only [step] at h
      split at h
      · simp at h
      · obtain rfl : g = _ := by simpa using h
        exact .sweep_config (by simp_all)
  | config =>
      obtain rfl : g = _ := by simpa [step] using h
      exact .sweep_drain
  | drain cfg =>
      obtain rfl : g = _ := by simpa [step] using h
      exact .sweep_first rfl
  | next sw =>
      simp only [step] at h
      split at h
      · simp at h
      · rename_i hdone
        split at h
        · obtain rfl : g = _ := by simpa using h
          exact .sweep_resendLoad hdone (by assumption)
        · exact .sweep_expire hdone (by simp_all) (expires_of_mem h)
  | resendLoad sw entry still =>
      simp only [step] at h
      split at h
      · exact .sweep_gone (by assumption) (expires_of_mem h)
      · obtain rfl : g = _ := by simpa using h
        exact .sweep_resendSend (by assumption)
  | resendSend sw entry still container =>
      simp only [step] at h
      split at h
      · obtain rfl : g = _ := by simpa using h
        exact .sweep_resendTrack (by assumption)
      · exact .sweep_unsent (by assumption) (expires_of_mem h)
  | resendTrack sw entry =>
      obtain rfl : g = _ := by simpa [step] using h
      exact .sweep_resent

theorem gateStep_leads {t : GateTask} (h : g ∈ (gateStep e t).new) :
    Leads e a (.gate t) g := by
  cases t with
  | resume told =>
      simp only [gateStep, new_go, List.mem_cons, List.not_mem_nil,
        or_false] at h
      rcases h with rfl | rfl | rfl
      · exact .resume_restartClocks
      · exact .resume_sweep
      · exact .resume_spawnReplay
  | setPaused paused =>
      obtain rfl : g = _ := by simpa [gateStep, GateTask.step] using h
      exact .gate_setPaused
  | clearBlock reason =>
      simp only [gateStep, GateTask.step, new_go] at h
      split at h
      · obtain rfl : g = _ := by simpa using h
        exact .gate_told (by assumption)
      · simp at h
  | _ => simp [gateStep, GateTask.step] at h

theorem ResumeFrame.leads {f : ResumeFrame} (h : g ∈ (f.step e).new) :
    Leads e a (.resume f) g := by
  cases f with
  | restartClocks => simp [step] at h
  | spawnReplay held =>
      simp only [step, Outcome.new] at h
      split at h
      · simp at h
      · obtain rfl : g = _ := by simpa using h
        exact .replay_spawn
  | replayNext held =>
      cases held with
      | nil => simp [step] at h
      | cons x held =>
          simp only [step, new_go, List.mem_cons, List.not_mem_nil,
            or_false] at h
          rcases h with rfl | rfl
          · exact .replay_hold
          · exact .replay_next

theorem AuditFrame.leads {f : AuditFrame} (h : g ∈ (f.step e a).new) :
    Leads e a (.audit f) g := by
  cases f <;> simp only [step] at h
  all_goals
    repeat' split at h
    all_goals simp at h
  obtain rfl := h
  exact .audit_mark

/-- Every frame a step leaves behind follows by a rule of `Leads`. -/
theorem Frame.leads {f : Frame} (h : g ∈ (f.step e a).new) :
    Leads e a f g := by
  cases f with
  | ingest f => exact f.leads h
  | recovery f => exact f.leads h
  | broadcast f => exact f.leads h
  | fanout f => exact f.leads h
  | inProcess f => exact f.leads h
  | postProcess f => exact f.leads h
  | terminal f => exact f.leads h
  | reply f => exact f.leads h
  | advance f => exact f.leads h
  | sweep f => exact f.leads h
  | gate t => exact gateStep_leads h
  | resume f => exact f.leads h
  | audit f => exact f.leads h

end Inversion

/-- `Records e a f ev`: running `f` on `e` with the answer `a` puts `ev` on
record. -/
inductive Records (e : Engine) (a : Answer) : Frame → Event → Prop
  | nobody {fo} :
      fo.sentAny = false →
      Records e a (.fanout (.send fo [])) (.left fo.uuid7 fo.stage)
  | fanout_sent {fo moduleName todo} :
      a.permitted = true →
      a.outcome = .sent →
      Records e a (.fanout (.send fo (moduleName :: todo)))
        (.sent fo.uuid7 fo.stage moduleName fo.container)
  | inProcess_sent {uuid7 state moduleName ackTimeoutMs len} :
      a.permitted = true →
      a.outcome = .sent →
      Records e a (.inProcess (.send uuid7 state moduleName ackTimeoutMs len))
        (.sent uuid7 .inProcess moduleName (state.inProcessContainer uuid7))
  | cleared {uuid7} :
      Records e a (.terminal (.ack uuid7)) (.cleared uuid7)
  | replyTaken {reply} :
      Records e a (.reply (.check reply))
        (.replyTaken reply.uuid7 reply.stage reply.moduleName
          (e.ackTracker.isPendingFor reply.uuid7 reply.moduleName reply.stage))
  | answered {uuid7 moduleName len entry} :
      entry ∈ e.ackTracker.pending →
      entry.isFor uuid7 moduleName = true →
      Records e a (.reply (.ackModule uuid7 moduleName len))
        (.answered uuid7 entry.stage moduleName)
  | ack_left {uuid7 moduleName len elapsed tracker} :
      e.ackTracker.ackModule e.now uuid7 moduleName =
        (some (.postProcess, elapsed, false), tracker) →
      Records e a (.reply (.ackModule uuid7 moduleName len))
        (.left uuid7 .postProcess)
  | receiptTaken {uuid7 moduleName} :
      Records e a (.reply (.receipt uuid7 moduleName))
        (.receiptTaken uuid7 moduleName
          (ReplyFrame.receiptRecorded e.ackTracker uuid7 moduleName))
  | pre_left {uuid7} :
      Records e a (.advance (.notePre uuid7)) (.left uuid7 .preProcess)
  | timedOut {cfg entry} :
      entry ∈ e.ackTracker.pending →
      entry.expired e.now = true →
      Records e a (.sweep (.drain cfg)) (.timedOut entry)
  | resent {sw entry still container} :
      a.outcome = .sent →
      Records e a (.sweep (.resendSend sw entry still container))
        (.resent entry.uuid7 entry.stage entry.moduleName container)
  | sweptOut {f sw entry still} :
      (∃ todo, f = .sweep (.next { sw with todo := (entry, still) :: todo })) ∨
        f = .sweep (.resendLoad sw entry still) ∨
        (∃ container, f = .sweep (.resendSend sw entry still container)) →
      SweepFrame.advances sw entry still = true →
      Records e a f (.sweptOut entry.uuid7 entry.stage)
  | sweep_left {f sw entry still} :
      (∃ todo, f = .sweep (.next { sw with todo := (entry, still) :: todo })) ∨
        f = .sweep (.resendLoad sw entry still) ∨
        (∃ container, f = .sweep (.resendSend sw entry still container)) →
      SweepFrame.advances sw entry still = true →
      entry.stage = .postProcess →
      Records e a f (.left entry.uuid7 .postProcess)
  | flagged {uuid7 reason} :
      Records e a (.audit (.mark uuid7 reason)) (.flagged uuid7)
  | released {uuid7 approve} :
      a.dbOk = true →
      e.timeline.isAudited uuid7 = true →
      Records e a (.audit (.release uuid7 approve)) (.released uuid7 approve)

section Log

variable (e : Engine) (a : Answer)

theorem expire_log
    {f : Frame} (sw : Sweep) (entry : PendingAck) (still : Bool)
    (hf : (∃ todo, f = .sweep (.next { sw with todo := (entry, still) :: todo })) ∨
        f = .sweep (.resendLoad sw entry still) ∨
        (∃ container, f = .sweep (.resendSend sw entry still container))) :
    ∃ evs, (SweepFrame.expire e sw entry still).shared.log = evs ++ e.log ∧
      ∀ ev ∈ evs, Records e a f ev := by
  have hnone : ∃ evs, e.log = evs ++ e.log ∧ ∀ ev ∈ evs, Records e a f ev :=
    ⟨[], rfl, by simp⟩
  simp only [SweepFrame.expire]
  split
  · split <;> exact hnone
  · split
    · rename_i hadv
      simp only [shared_go, SweepFrame.noteSweptOut, Engine.logged]
      split
      · rename_i hstage
        refine ⟨[_, _], rfl, ?_⟩
        simp only [List.mem_cons, List.not_mem_nil, or_false]
        rintro ev (rfl | rfl)
        · exact .sweep_left hf hadv hstage
        · exact .sweptOut hf hadv
      · exact ⟨[_], rfl, by simpa using .sweptOut hf hadv⟩
    · exact hnone

/-- The step only adds to the log, by the rules of `Records`. -/
def Frame.LogsByRules (f : Frame) : Prop :=
  ∃ evs, (f.step e a).shared.log = evs ++ e.log ∧ ∀ ev ∈ evs, Records e a f ev

theorem Frame.logsByRules_of_quiet
    {f : Frame} (h : f.touchesLog = false) :
    f.LogsByRules e a :=
  ⟨[], Frame.step_log e a h, by simp⟩

theorem FanoutFrame.logsByRules (f : FanoutFrame) :
    (Frame.fanout f).LogsByRules e a := by
  cases f with
  | track => exact Frame.logsByRules_of_quiet e a rfl
  | send fo todo =>
      cases todo with
      | nil =>
          simp only [Frame.LogsByRules, Frame.step, FanoutFrame.step]
          split
          · exact ⟨[], rfl, by simp⟩
          · exact ⟨[_], rfl, by simpa using .nobody (by simp_all)⟩
      | cons moduleName todo =>
          simp only [Frame.LogsByRules, Frame.step, FanoutFrame.step]
          split
          · rename_i hsent
            simp only [Bool.and_eq_true, decide_eq_true_eq] at hsent
            exact ⟨[_], rfl, by simpa using .fanout_sent hsent.1 hsent.2⟩
          · exact ⟨[], rfl, by simp⟩

theorem InProcessFrame.logsByRules (f : InProcessFrame) :
    (Frame.inProcess f).LogsByRules e a := by
  cases f with
  | send v state moduleName ackTimeoutMs len =>
      simp only [Frame.LogsByRules, Frame.step, InProcessFrame.step]
      split
      · rename_i hsent
        simp only [Bool.and_eq_true, decide_eq_true_eq] at hsent
        exact ⟨[_], rfl, by simpa using .inProcess_sent hsent.1 hsent.2⟩
      · exact ⟨[], rfl, by simp⟩
  | _ => exact Frame.logsByRules_of_quiet e a rfl

theorem ReplyFrame.logsByRules (f : ReplyFrame) :
    (Frame.reply f).LogsByRules e a := by
  cases f with
  | check reply => exact ⟨[_], rfl, by simpa using .replyTaken⟩
  | receipt v moduleName => exact ⟨[_], rfl, by simpa using .receiptTaken⟩
  | ackModule v moduleName len =>
      have hanswers : ∀ ev ∈ ReplyFrame.answers e.ackTracker v moduleName,
          Records e a (.reply (.ackModule v moduleName len)) ev := by
        intro ev hev
        obtain ⟨entry, hentry, rfl⟩ := List.mem_map.mp hev
        obtain ⟨hmem, hfor⟩ := List.mem_filter.mp hentry
        exact .answered hmem hfor
      simp only [Frame.LogsByRules, Frame.step, ReplyFrame.step]
      split
      · exact ⟨[], rfl, by simp⟩
      · rename_i stage elapsed still tracker hack
        cases stage with
        | preProcess => exact ⟨_, rfl, hanswers⟩
        | inProcess => exact ⟨_, rfl, hanswers⟩
        | postProcess =>
            cases still with
            | true => exact ⟨_, rfl, hanswers⟩
            | false =>
                refine ⟨_ :: _, rfl, ?_⟩
                simp only [List.mem_cons]
                rintro ev (rfl | hev)
                · exact .ack_left hack
                · exact hanswers ev hev
  | _ => exact Frame.logsByRules_of_quiet e a rfl

theorem SweepFrame.logsByRules (f : SweepFrame) :
    (Frame.sweep f).LogsByRules e a := by
  cases f with
  | drain cfg =>
      refine ⟨_, rfl, fun ev hev => ?_⟩
      obtain ⟨⟨entry, still⟩, hmem, rfl⟩ := List.mem_map.mp hev
      obtain ⟨hpending, hexp, -⟩ := (AckTracker.mem_checkTimeouts_iff ..).mp hmem
      exact .timedOut hpending hexp
  | next sw =>
      simp only [Frame.LogsByRules, Frame.step, SweepFrame.step]
      split
      · exact ⟨[], rfl, by simp⟩
      · rename_i entry still todo hdone
        split
        · exact ⟨[], rfl, by simp⟩
        · refine expire_log e a _ _ _ (Or.inl ⟨todo, ?_⟩)
          rw [← hdone]
  | resendLoad sw entry still =>
      simp only [Frame.LogsByRules, Frame.step, SweepFrame.step]
      split
      · exact expire_log e a _ _ _ (Or.inr (Or.inl rfl))
      · exact ⟨[], rfl, by simp⟩
  | resendSend sw entry still container =>
      simp only [Frame.LogsByRules, Frame.step, SweepFrame.step]
      split
      · exact ⟨[_], rfl, by simpa using .resent (by assumption)⟩
      · exact expire_log e a _ _ _ (Or.inr (Or.inr ⟨container, rfl⟩))
  | _ => exact Frame.logsByRules_of_quiet e a rfl

theorem AuditFrame.logsByRules (f : AuditFrame) :
    (Frame.audit f).LogsByRules e a := by
  cases f with
  | flag => exact Frame.logsByRules_of_quiet e a rfl
  | mark v reason =>
      simp only [Frame.LogsByRules, Frame.step, AuditFrame.step]
      split
      · exact ⟨[_], rfl, by simpa using .flagged⟩
      · exact ⟨[], rfl, by simp⟩
  | release v approve =>
      simp only [Frame.LogsByRules, Frame.step, AuditFrame.step]
      split
      · rename_i hdb
        split
        · rename_i haudit
          exact ⟨[_], rfl, by simpa using .released hdb haudit⟩
        · exact ⟨[], rfl, by simp⟩
      · exact ⟨[], rfl, by simp⟩

/-- A step only adds to the log, by the rules of `Records`. -/
theorem Frame.records (f : Frame) :
    ∃ evs, (f.step e a).shared.log = evs ++ e.log ∧
      ∀ ev ∈ evs, Records e a f ev := by
  cases f with
  | fanout f => exact f.logsByRules e a
  | inProcess f => exact f.logsByRules e a
  | terminal f =>
      cases f with
      | ack v => exact ⟨[_], rfl, by simpa using .cleared⟩
      | _ => exact Frame.logsByRules_of_quiet e a rfl
  | reply f => exact f.logsByRules e a
  | advance f =>
      cases f with
      | notePre v => exact ⟨[_], rfl, by simpa using .pre_left⟩
      | _ => exact Frame.logsByRules_of_quiet e a rfl
  | sweep f => exact f.logsByRules e a
  | audit f => exact f.logsByRules e a
  | _ => exact Frame.logsByRules_of_quiet e a rfl

end Log

/-- The frames the world can put into the pool. -/
inductive Opens : WorldEvent → Frame → Prop
  | ingest {msg} : Opens (.ingest msg) (.ingest (.insertEvent msg))
  | recover : Opens .recover (.recovery .drainQueued)
  | reply {reply} :
      reply.uuid7 ≠ "" → Opens (.reply reply) (.reply (.check reply))
  | receipt {uuid7 moduleName} :
      uuid7 ≠ "" →
      Opens (.receipt uuid7 moduleName) (.reply (.receipt uuid7 moduleName))
  | sweep : Opens .sweep (.sweep .start)
  | boot : Opens .boot (.gate .pause)
  | operator {paused} : Opens (.operator paused) (.gate (.setPaused paused))
  | dependencyDown {reason} :
      Opens (.dependencyDown reason) (.gate (.setBlock reason))
  | dependencyUp {reason} :
      Opens (.dependencyUp reason) (.gate (.clearBlock reason))
  | auditFlag {uuid7 reason} :
      Opens (.auditFlag uuid7 reason) (.audit (.flag uuid7 reason))
  | auditDecision {uuid7 approve} :
      Opens (.auditDecision uuid7 approve) (.audit (.release uuid7 approve))

theorem opens_of_mem
    {ev : WorldEvent} {g : Frame}
    (h : g ∈ ev.starts.flatten) :
    Opens ev g := by
  cases ev <;> simp only [WorldEvent.starts] at h
  case reply r =>
    split at h
    · simp at h
    · obtain rfl : g = _ := by simpa using h
      exact .reply (by assumption)
  case receipt uuid7 moduleName =>
    split at h
    · simp at h
    · obtain rfl : g = _ := by simpa using h
      exact .receipt (by assumption)
  all_goals simp at h
  all_goals
    obtain rfl := h
    constructor
end CockatielEngine
