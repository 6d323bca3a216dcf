import CockatielEngine.Pipeline.Ingest

/-!
# Pipeline: the terminal paths and the audit hold

`mark_complete`, `mark_failed` and `mark_dropped` are one sequence of steps
that differs in the ending: ask whether the row is held; if it is, land the
result and leave the hold alone; otherwise take the in-memory state, write the
outcome and clear the acks.  The audit flag and its release are the only other
writers of a row's status.
-/

namespace CockatielEngine

open TaskPool

namespace TerminalFrame

def step (e : Engine) (a : Answer) : TerminalFrame → Outcome Engine Frame
  | .check uuid7 ending =>
      if a.dbOk then
        if e.timeline.isAudited uuid7 then go e [.terminal (.snapshot uuid7)]
        else go e [.terminal (.take uuid7 ending)]
      else fail e
  | .snapshot uuid7 =>
      let result := ((e.pipelineStates uuid7).map PipelineState.result).getD {}
      go e [.terminal (.writeHeld uuid7 result)]
  | .writeHeld uuid7 result =>
      if a.dbOk then
        go { e with
               timeline := e.timeline.writeTerminalOutcome uuid7 .auditHeld
                 result e.now }
          []
      else fail e
  | .take uuid7 ending =>
      match e.pipelineStates uuid7, ending with
      -- a late abandon of a message that is already terminal is ignored
      | none, .dropped _ => go e []
      | none, ending => go e [.terminal (.write uuid7 ending {})]
      | some state, ending =>
          go (e.putState uuid7 none)
            [.terminal (.write uuid7 ending state.result)]
  | .write uuid7 ending result =>
      if a.dbOk then
        go { e with
               timeline := e.timeline.writeTerminalOutcome uuid7
                 ending.outcome result e.now }
          [.terminal (.ack uuid7)]
      else fail e
  | .ack uuid7 =>
      go ({ e with ackTracker := e.ackTracker.ack uuid7 }.logged
          (.cleared uuid7))
        []

end TerminalFrame

namespace AuditFrame

def step (e : Engine) (a : Answer) : AuditFrame → Outcome Engine Frame
  | .flag uuid7 reason =>
      -- a failed read counts as "not held" here
      if a.dbOk && e.timeline.isAudited uuid7 then go e []
      else go e [.audit (.mark uuid7 reason)]
  | .mark uuid7 reason =>
      if a.dbOk then
        go ({ e with
                timeline := e.timeline.markAudit uuid7 reason e.now }.logged
              (.flagged uuid7))
          []
      else go e []
  | .release uuid7 approve =>
      if a.dbOk then
        if e.timeline.isAudited uuid7 then
          go ({ e with
                  timeline :=
                    e.timeline.releaseAudit uuid7 approve e.now }.logged
                (.released uuid7 approve))
            []
        else go e []
      else go e []

end AuditFrame
end CockatielEngine
