import CockatielEngine.Pipeline.Engine

/-!
# Pipeline: ingest and crash recovery

`insert_and_start` writes the row of a new message, installs its in-memory
state and starts the pre-process fanout; `recover_one` does the same for a row
that an earlier process left `queued`.
-/

namespace CockatielEngine

open TaskPool

/-- The step returned normally and continues with `fs`. -/
def go (e : Engine) (fs : List Frame) : Outcome Engine Frame :=
  { shared := e, next := some fs, spawned := [] }

/-- The step returned an error. -/
def fail (e : Engine) : Outcome Engine Frame :=
  { shared := e, next := none, spawned := [] }

@[simp] theorem shared_go (e : Engine) (fs : List Frame) :
    (go e fs).shared = e := rfl

@[simp] theorem spawned_go (e : Engine) (fs : List Frame) :
    (go e fs).spawned = [] := rfl

@[simp] theorem new_go (e : Engine) (fs : List Frame) :
    (go e fs).new = fs := by
  simp [go, Outcome.new]

@[simp] theorem shared_fail (e : Engine) : (fail e).shared = e := rfl

@[simp] theorem spawned_fail (e : Engine) : (fail e).spawned = [] := rfl

@[simp] theorem new_fail (e : Engine) : (fail e).new = [] := by
  simp [fail, Outcome.new]

namespace IngestFrame

/-- What follows the insert of the row and of its command. -/
def afterCommand (msg : PipelineMessage) : List Frame :=
  if msg.userUuid7 = "" then [.ingest (.insertState msg)]
  else [.ingest (.setUserUuid msg)]

/-- The row a message is inserted with. -/
def row (msg : PipelineMessage) : Row where
  eventType := msg.eventType
  platform := msg.platform
  rawMessage := msg.rawMessage
  command := msg.command.getD ""
  flags := some (msg.flags.getD "{}")

def step (e : Engine) (a : Answer) : IngestFrame → Outcome Engine Frame
  | .insertEvent msg =>
      if a.dbOk then
        match e.timeline.insertEvent msg.uuid7 (row msg) with
        | none => fail e
        | some timeline =>
            match msg.command with
            | some command =>
                go { e with timeline := timeline }
                  [.ingest (.setCommand msg command)]
            | none => go { e with timeline := timeline } (afterCommand msg)
      else fail e
  | .setCommand msg command =>
      if a.dbOk then
        go { e with timeline := e.timeline.setCommand msg.uuid7 command }
          (afterCommand msg)
      else fail e
  | .setUserUuid msg =>
      if a.dbOk then
        go { e with timeline := e.timeline.setUserUuid msg.uuid7 msg.userUuid7 }
          [.ingest (.insertState msg)]
      else fail e
  | .insertState msg =>
      go (e.putState msg.uuid7 (some (.ofMessage msg)))
        [.broadcast (.enter msg.uuid7)]

end IngestFrame

namespace RecoveryFrame

def step (e : Engine) (a : Answer) : RecoveryFrame → Outcome Engine Frame
  | .check uuid7 =>
      if (e.pipelineStates uuid7).isSome then go e []
      else go e [.recovery (.load uuid7)]
  | .load uuid7 =>
      if a.dbOk then
        match e.timeline.loadQueuedMessage uuid7 with
        | none => go e []
        | some msg => go e [.recovery (.insertState uuid7 msg)]
      else fail e
  | .insertState uuid7 msg =>
      go (e.putState uuid7 (some (.ofQueued uuid7 msg)))
        [.broadcast (.enter uuid7)]
  | .drainQueued =>
      if a.dbOk then go e [.recovery (.drainNext e.timeline.getQueuedUuids)]
      else fail e
  | .drainNext [] => go e []
  | .drainNext (uuid7 :: uuids) =>
      go e [.recovery (.check uuid7), .recovery (.drainNext uuids)]

end RecoveryFrame
end CockatielEngine
