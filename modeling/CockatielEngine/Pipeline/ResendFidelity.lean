import CockatielEngine.Pipeline.Machine

/-!
# Pipeline: a re-send against the dispatch it repeats

`resend_stage` builds the container of a stage a second time, from the state of the
message.

**Main result.**  The container of a re-send is the one that the stage's starter
dispatches from the same state, except that post-process modules are not sent again
the audio that an earlier stage made.
-/

namespace CockatielEngine

open TaskPool

/-- Where the starter of a stage reads the state of its message. -/
def starterLoad (uuid7 : String) : Stage → Frame
  | .preProcess => .broadcast (.load uuid7)
  | .inProcess => .inProcess (.load uuid7)
  | .postProcess => .postProcess (.load uuid7)

/-- The container that a frame is about to send. -/
def Frame.carries : Frame → Option ContainerForModule
  | .fanout (.send fo _) => some fo.container
  | .inProcess (.send uuid7 state _ _ _) => some (state.inProcessContainer uuid7)
  | .sweep (.resendSend _ _ _ container) => some container
  | _ => none

/-- The frame that a step goes on with. -/
def nextFrame (o : Outcome Engine Frame) : Option Frame :=
  o.next.bind List.head?

/-- The container that the starter of a stage dispatches, if it dispatches any. -/
def startedContainer (a : Answer) (e : Engine) (uuid7 : String) (stage : Stage) :
    Option ContainerForModule :=
  let loaded := (starterLoad uuid7 stage).step e a
  (nextFrame loaded).bind fun config =>
    (nextFrame (config.step loaded.shared a)).bind Frame.carries

/-- The container that a sweep re-sends for an entry. -/
def resentContainer (a : Answer) (e : Engine) (sw : Sweep) (entry : PendingAck)
    (stillPending : Bool) : Option ContainerForModule :=
  (nextFrame ((Frame.sweep (.resendLoad sw entry stillPending)).step e a)).bind
    Frame.carries

/-- The container of a stage's dispatch. -/
def PipelineState.stageContainer (uuid7 : String) (s : PipelineState) :
    Stage → ContainerForModule
  | .preProcess => s.preProcessContainer uuid7
  | .inProcess => s.inProcessContainer uuid7
  | .postProcess => s.postProcessContainer uuid7

section Containers

variable {a : Answer} {e : Engine} {uuid7 : String} {state : PipelineState}
variable {stage : Stage} {c : ContainerForModule}

/-- What a starter dispatches is built from the state it has read. -/
theorem startedContainer_eq_some
    (hstate : e.pipelineStates uuid7 = some state)
    (h : startedContainer a e uuid7 stage = some c) :
    c = state.stageContainer uuid7 stage := by
  cases stage with
  | preProcess =>
      simp only [startedContainer, nextFrame, starterLoad, Frame.step,
        BroadcastFrame.step, hstate, go, Option.bind_some, List.head?_cons, Frame.carries,
        Option.some.injEq] at h
      exact h.symm
  | inProcess =>
      simp only [startedContainer, nextFrame, starterLoad, Frame.step,
        InProcessFrame.step, hstate, go, Option.bind_some, List.head?_cons] at h
      split at h
      · simp [Frame.carries] at h
      · split at h
        · simp only [Option.bind_some, List.head?_cons, Frame.carries,
            Option.some.injEq] at h
          exact h.symm
        · simp [Frame.carries] at h
  | postProcess =>
      simp only [startedContainer, nextFrame, starterLoad, Frame.step,
        PostProcessFrame.step, hstate, go, Option.bind_some, List.head?_cons,
        Frame.carries, Option.some.injEq] at h
      exact h.symm

/-- The two builders agree on the chat message. -/
theorem resendMessage_eq (state : PipelineState) :
    state.resendMessage = state.chatMessage := rfl

/-- The two builders differ in the audio of the post-process container. -/
theorem resendContainer_eq_iff :
    state.resendContainer uuid7 stage = state.stageContainer uuid7 stage ↔
      (stage = .postProcess → state.audioStage = "post" ∨ state.audio = []) := by
  cases stage with
  | preProcess =>
      simp [PipelineState.resendContainer, PipelineState.stageContainer,
        PipelineState.preProcessContainer, resendMessage_eq]
  | inProcess =>
      simp [PipelineState.resendContainer, PipelineState.stageContainer,
        PipelineState.inProcessContainer, resendMessage_eq]
  | postProcess =>
      simp only [PipelineState.resendContainer, PipelineState.stageContainer,
        PipelineState.postProcessContainer, PipelineState.forwardedAudio,
        resendMessage_eq, List.isEmpty_iff, true_imp_iff]
      split
      · simp_all
      · rename_i hforwarded
        constructor
        · intro heq
          simp only [ContainerForModule.mk.injEq, ModulePayload.messagePostProcess.injEq,
            true_and] at heq
          exact Or.inr heq.1.symm
        · exact fun h => absurd h hforwarded

end Containers

/-- **Main theorem.**  When a re-send repeats the dispatch of the stage. -/
theorem resentContainer_eq_started_iff
    (a : Answer) (e : Engine) (sw : Sweep) (entry : PendingAck) (stillPending : Bool)
    (state : PipelineState) (c : ContainerForModule)
    (hstate : e.pipelineStates entry.uuid7 = some state)
    (hstarted : startedContainer a e entry.uuid7 entry.stage = some c) :
    resentContainer a e sw entry stillPending = some c ↔
      (entry.stage = .postProcess → state.audioStage = "post" ∨ state.audio = []) := by
  have hresent : resentContainer a e sw entry stillPending =
      some (state.resendContainer entry.uuid7 entry.stage) := by
    simp [resentContainer, nextFrame, Frame.step, SweepFrame.step, hstate, go,
      Frame.carries]
  rw [hresent, startedContainer_eq_some hstate hstarted, Option.some.injEq]
  exact resendContainer_eq_iff

/-- A message with audio that a stage has made, on its way to the displays. -/
def voiced (audioStage : String) : Engine :=
  { config := { postProcessModules := ["display"] }
    pipelineStates := fun _ =>
      some ((PipelineState.ofMessage { uuid7 := "m", rawMessage := "hi" }).storeAudio
        audioStage "audio/mpeg" [1]) }

/-- The display that has not confirmed its receipt. -/
def unconfirmed : PendingAck where
  uuid7 := "m"
  stage := .postProcess
  moduleName := "display"
  sentAt := 0
  timeout := 5
  receiptReceived := false
  resendCount := 0

/-- The sweep that has drained it. -/
def sweeping : Sweep := { config := {}, todo := [], criticalUuids := [] }

/-- Audio of the post-process stage is in neither container; that of a stage before it
is in the dispatched one only. -/
theorem resentContainer_eq_started_voiced :
    resentContainer {} (voiced "post") sweeping unconfirmed false =
        startedContainer {} (voiced "post") "m" .postProcess ∧
      resentContainer {} (voiced "in") sweeping unconfirmed false ≠
        startedContainer {} (voiced "in") "m" .postProcess :=
  ⟨(resentContainer_eq_started_iff {} (voiced "post") sweeping unconfirmed false
      _ _ rfl rfl).mpr (by decide),
    (resentContainer_eq_started_iff {} (voiced "in") sweeping unconfirmed false
      _ _ rfl rfl).not.mpr (by decide)⟩

/-- The display gets the message without its audio. -/
theorem voiced_resent_silent :
    ¬ ∀ (a : Answer) (e : Engine) (sw : Sweep) (entry : PendingAck)
        (stillPending : Bool) (c : ContainerForModule),
      startedContainer a e entry.uuid7 entry.stage = some c →
      resentContainer a e sw entry stillPending = some c := by
  intro h
  have hresent := h {} (voiced "in") sweeping unconfirmed false _ rfl
  exact absurd hresent (by decide)

end CockatielEngine
