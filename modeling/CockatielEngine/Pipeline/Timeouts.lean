import CockatielEngine.Pipeline.Ingest

/-!
# Pipeline: the timeout sweep

`handle_timeout` drains the expired entries and processes them one after the
other: an entry whose receipt never came is re-sent and tracked again; the
message of a critical module fails; otherwise the last entry of a stage takes
the message out of it.
-/

namespace CockatielEngine

open TaskPool

namespace SweepFrame

/-- The first step out of a stage, as the sweep takes it. -/
def advanceFrame (uuid7 : String) (len : Nat) : Stage → Frame
  | .preProcess => .advance (.notePre uuid7)
  | .inProcess => .advance (.noteIn uuid7 len)
  | .postProcess => .terminal (.check uuid7 .complete)

/-- The drained entry is re-sent rather than timed out, if it can be sent. -/
def wantsResend (entry : PendingAck) : Bool :=
  !entry.receiptReceived && decide (entry.resendCount < maxAckResends)

/-- The entry takes its message out of the stage. -/
def advances (sw : Sweep) (entry : PendingAck) (stillPending : Bool) : Bool :=
  !stillPending && !sw.resent.contains entry.uuid7 &&
    !sw.criticalUuids.contains entry.uuid7 &&
    !sw.advanced.contains entry.uuid7

/-- The record of a sweep that takes a message out of its stage; the first
two stages are left by a step of their own. -/
def noteSweptOut (e : Engine) (entry : PendingAck) : Engine :=
  let e := e.logged (.sweptOut entry.uuid7 entry.stage)
  if entry.stage = .postProcess then
    e.logged (.left entry.uuid7 .postProcess)
  else e

/-- The timeout path of one drained entry. -/
def expire (e : Engine) (sw : Sweep) (entry : PendingAck)
    (stillPending : Bool) : Outcome Engine Frame :=
  if sw.config.criticalModules.contains entry.moduleName then
    if sw.failed.contains entry.uuid7 then go e [.sweep (.next sw)]
    else
      go e
        [.terminal (.check entry.uuid7
            (.failed (criticalTimeoutError entry.moduleName entry.stage))),
          .sweep (.next { sw with failed := entry.uuid7 :: sw.failed })]
  else if advances sw entry stillPending then
    go (noteSweptOut e entry)
      [advanceFrame entry.uuid7 sw.config.inProcessModules.length entry.stage,
        .sweep (.next { sw with advanced := entry.uuid7 :: sw.advanced })]
  else go e [.sweep (.next sw)]

/-- The drained entries, in the order the world lets them come out. -/
def drained (a : Answer) (timedOut : List (PendingAck × Bool)) :
    List (PendingAck × Bool) :=
  if a.order.isPerm timedOut then a.order else timedOut

theorem mem_drained_iff
    {a : Answer} {timedOut : List (PendingAck × Bool)} {x : PendingAck × Bool} :
    x ∈ drained a timedOut ↔ x ∈ timedOut := by
  unfold drained
  split
  · rename_i hperm
    exact (List.isPerm_iff.mp hperm).mem_iff
  · rfl

/-- The messages with an expired entry of a critical module. -/
def criticalUuids (cfg : PipelineConfig)
    (timedOut : List (PendingAck × Bool)) : List String :=
  (timedOut.filter fun x =>
    cfg.criticalModules.contains x.1.moduleName).map fun x => x.1.uuid7

def step (e : Engine) (a : Answer) : SweepFrame → Outcome Engine Frame
  | .start =>
      if e.pauseState.isGated then go e [] else go e [.sweep .config]
  | .config => go e [.sweep (.drain e.config)]
  | .drain cfg =>
      let r := e.ackTracker.checkTimeouts e.now
      let todo := drained a r.1
      go { e with
             ackTracker := r.2
             log := (r.1.map fun x => .timedOut x.1) ++ e.log }
        [.sweep (.next
          { config := cfg, todo
            criticalUuids := criticalUuids cfg todo })]
  | .next sw =>
      match sw.todo with
      | [] => go e []
      | (entry, stillPending) :: todo =>
          let sw := { sw with todo := todo }
          if wantsResend entry then
            go e [.sweep (.resendLoad sw entry stillPending)]
          else expire e sw entry stillPending
  | .resendLoad sw entry stillPending =>
      match e.pipelineStates entry.uuid7 with
      | none => expire e sw entry stillPending
      | some state =>
          go e [.sweep (.resendSend sw entry stillPending
            (state.resendContainer entry.uuid7 entry.stage))]
  | .resendSend sw entry stillPending container =>
      if a.outcome = .sent then
        go (e.logged
            (.resent entry.uuid7 entry.stage entry.moduleName container))
          [.sweep (.resendTrack sw entry)]
      else expire e sw entry stillPending
  | .resendTrack sw entry =>
      go { e with ackTracker := e.ackTracker.reTrack e.now entry }
        [.sweep (.next { sw with resent := entry.uuid7 :: sw.resent })]

end SweepFrame
end CockatielEngine
