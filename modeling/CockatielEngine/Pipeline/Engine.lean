import CockatielEngine.Concurrency.TaskPool
import CockatielEngine.Gate.GateTask
import CockatielEngine.Pipeline.Message

/-!
# Pipeline: the shared state and the suspended functions

`Engine` is what the engine's tasks share: the pause state, the ack table, the
in-memory states, the configuration and the timeline rows, together with a
clock and a ghost log of what happened.  A `Frame` is one of the pipeline's
functions standing at one of its await points; the families follow the
functions of the source.
-/

namespace CockatielEngine

/-- Elapsed time in stretches, newest first, each with whether the gate was
closed while it passed. -/
structure Clock where
  stretches : List (Nat × Bool) := []
deriving DecidableEq, Repr

namespace Clock

/-- The current time in milliseconds. -/
def now (c : Clock) : Nat :=
  (c.stretches.map (·.1)).sum

/-- The un-gated part of the last `d` milliseconds. -/
def openWithin : List (Nat × Bool) → Nat → Nat
  | [], _ => 0
  | (n, gated) :: rest, d =>
      (if gated then 0 else min n d) + openWithin rest (d - n)

/-- The un-gated time since `t`. -/
def openSince (c : Clock) (t : Nat) : Nat :=
  openWithin c.stretches (c.now - t)

end Clock

/-- Ghost record of the steps that the pipeline's properties speak about. -/
inductive Event where
  | sent (uuid7 : String) (stage : Stage) (moduleName : String)
      (container : ContainerForModule)
  | resent (uuid7 : String) (stage : Stage) (moduleName : String)
      (container : ContainerForModule)
  | receiptTaken (uuid7 moduleName : String) (recorded : Bool)
  | replyTaken (uuid7 : String) (stage : Stage) (moduleName : String)
      (accepted : Bool)
  | answered (uuid7 : String) (stage : Stage) (moduleName : String)
  | timedOut (entry : PendingAck)
  | left (uuid7 : String) (stage : Stage)
  | sweptOut (uuid7 : String) (stage : Stage)
  | cleared (uuid7 : String)
  | flagged (uuid7 : String)
  | released (uuid7 : String) (approve : Bool)
deriving DecidableEq, Repr

/-- The state the engine's tasks share; `clock` and `log` are ghosts but for
the current time. -/
structure Engine where
  clock : Clock := {}
  pauseState : PauseState := {}
  ackTracker : AckTracker := .new
  pipelineStates : String → Option PipelineState := fun _ => none
  config : PipelineConfig := {}
  commandRegistry : CommandRegistry := {}
  timeline : Timeline := {}
  log : List Event := []

namespace Engine

def now (e : Engine) : Nat :=
  e.clock.now

/-- Replace the in-memory state of one message. -/
def putState (e : Engine) (uuid7 : String) (s : Option PipelineState) :
    Engine :=
  { e with pipelineStates := Function.update e.pipelineStates uuid7 s }

/-- Update the in-memory state of one message, if it has one. -/
def modifyState (e : Engine) (uuid7 : String)
    (f : PipelineState → PipelineState) : Engine :=
  e.putState uuid7 ((e.pipelineStates uuid7).map f)

def logged (e : Engine) (ev : Event) : Engine :=
  { e with log := ev :: e.log }

end Engine

/-- What the world answers to one step: whether the database call succeeded,
what the module gate decided, what became of the send, what the user database
returned, and the order in which the expired entries come out of the table. -/
structure Answer where
  dbOk : Bool := true
  permitted : Bool := true
  outcome : SendOutcome := .sent
  userData : Option UserData := none
  order : List (PendingAck × Bool) := []
deriving DecidableEq, Repr

/-- `insert_and_start`. -/
inductive IngestFrame where
  | insertEvent (msg : PipelineMessage)
  | setCommand (msg : PipelineMessage) (command : String)
  | setUserUuid (msg : PipelineMessage)
  | insertState (msg : PipelineMessage)
deriving DecidableEq, Repr

/-- `recover_one` and the loop of `drain_queued_once`. -/
inductive RecoveryFrame where
  | check (uuid7 : String)
  | load (uuid7 : String)
  | insertState (uuid7 : String) (msg : QueuedMessage)
  | drainQueued
  | drainNext (uuids : List String)
deriving DecidableEq, Repr

/-- `broadcast_pre_process` up to its fanout loop. -/
inductive BroadcastFrame where
  | enter (uuid7 : String)
  | load (uuid7 : String)
  | config (uuid7 : String) (state : PipelineState)
deriving DecidableEq, Repr

/-- The locals of a fanout loop. -/
structure Fanout where
  uuid7 : String
  stage : Stage
  container : ContainerForModule
  ackTimeoutMs : Nat
  sentAny : Bool
deriving DecidableEq, Repr

/-- The fanout loop of the pre-process and post-process stages. -/
inductive FanoutFrame where
  | send (fo : Fanout) (todo : List String)
  | track (fo : Fanout) (moduleName : String) (todo : List String)
deriving DecidableEq, Repr

/-- `start_in_process`; `len` is the length of the in-process list in the
configuration snapshot. -/
inductive InProcessFrame where
  | enter (uuid7 : String)
  | audit (uuid7 : String)
  | load (uuid7 : String)
  | config (uuid7 : String) (state : PipelineState)
  | send (uuid7 : String) (state : PipelineState) (moduleName : String)
      (ackTimeoutMs len : Nat)
  | track (uuid7 moduleName : String) (ackTimeoutMs : Nat)
  | skip (uuid7 : String) (len : Nat)
deriving DecidableEq, Repr

/-- `start_post_process` up to its fanout loop. -/
inductive PostProcessFrame where
  | enter (uuid7 : String)
  | audit (uuid7 : String)
  | load (uuid7 : String)
  | config (uuid7 : String) (state : PipelineState)
deriving DecidableEq, Repr

/-- The three ways a message ends. -/
inductive Ending where
  | complete
  | failed (error : String)
  | dropped (reason : String)
deriving DecidableEq, Repr

/-- The outcome the ending writes. -/
def Ending.outcome : Ending → PipelineOutcome
  | .complete => .complete
  | .failed error => .failed error
  | .dropped reason => .dropped reason

/-- `mark_complete`, `mark_failed` and `mark_dropped`, told apart by their
ending. -/
inductive TerminalFrame where
  | check (uuid7 : String) (ending : Ending)
  | snapshot (uuid7 : String)
  | writeHeld (uuid7 : String) (result : PipelineResult)
  | take (uuid7 : String) (ending : Ending)
  | write (uuid7 : String) (ending : Ending) (result : PipelineResult)
  | ack (uuid7 : String)
deriving DecidableEq, Repr

/-- `handle_message_from_module` for a module's answers, and `handle_ack` up to
the point where the stage has been left. -/
inductive ReplyFrame where
  | check (reply : StageReply)
  | record (reply : StageReply)
  | audio (reply : StageReply)
  | ackConfig (uuid7 moduleName : String)
  | ackModule (uuid7 moduleName : String) (len : Nat)
  | receipt (uuid7 moduleName : String)
deriving DecidableEq, Repr

/-- The way out of a stage that `handle_ack` and `handle_timeout` share. -/
inductive AdvanceFrame where
  | notePre (uuid7 : String)
  | noteIn (uuid7 : String) (len : Nat)
  | nextIndex (uuid7 : String) (len : Nat)
  | refresh (uuid7 : String)
  | storeUserData (uuid7 : String) (userData : UserData)
deriving DecidableEq, Repr

/-- The locals of the sweep loop. -/
structure Sweep where
  config : PipelineConfig
  criticalUuids : List String
  todo : List (PendingAck × Bool)
  advanced : List String := []
  failed : List String := []
  resent : List String := []
deriving DecidableEq, Repr

/-- `handle_timeout`, with `resend_stage` inlined at its call. -/
inductive SweepFrame where
  | start
  | config
  | drain (config : PipelineConfig)
  | next (sw : Sweep)
  | resendLoad (sw : Sweep) (entry : PendingAck) (stillPending : Bool)
  | resendSend (sw : Sweep) (entry : PendingAck) (stillPending : Bool)
      (container : ContainerForModule)
  | resendTrack (sw : Sweep) (entry : PendingAck)
deriving DecidableEq, Repr

/-- The rest of `resume` after its first critical section, and the replay. -/
inductive ResumeFrame where
  | restartClocks
  | spawnReplay (held : List (String × HoldPoint))
  | replayNext (held : List (String × HoldPoint))
deriving DecidableEq, Repr

/-- The audit flag's handler, and the release an operator decides. -/
inductive AuditFrame where
  | flag (uuid7 reason : String)
  | mark (uuid7 reason : String)
  | release (uuid7 : String) (approve : Bool)
deriving DecidableEq, Repr

/-- One function of the engine at one of its await points. -/
inductive Frame where
  | ingest (f : IngestFrame)
  | recovery (f : RecoveryFrame)
  | broadcast (f : BroadcastFrame)
  | fanout (f : FanoutFrame)
  | inProcess (f : InProcessFrame)
  | postProcess (f : PostProcessFrame)
  | terminal (f : TerminalFrame)
  | reply (f : ReplyFrame)
  | advance (f : AdvanceFrame)
  | sweep (f : SweepFrame)
  | gate (t : GateTask)
  | resume (f : ResumeFrame)
  | audit (f : AuditFrame)
deriving DecidableEq, Repr

/-- The world's moves: time passes, the configuration or the registry is
replaced, and the engine's entry points are called. -/
inductive WorldEvent where
  | tick (ms : Nat)
  | setConfig (config : PipelineConfig)
  | setRegistry (registry : CommandRegistry)
  | ingest (msg : PipelineMessage)
  | recover
  | reply (reply : StageReply)
  | receipt (uuid7 moduleName : String)
  | sweep
  | boot
  | operator (paused : Bool)
  | dependencyDown (reason : BlockedReason)
  | dependencyUp (reason : BlockedReason)
  | auditFlag (uuid7 reason : String)
  | auditDecision (uuid7 : String) (approve : Bool)
deriving DecidableEq, Repr

end CockatielEngine
