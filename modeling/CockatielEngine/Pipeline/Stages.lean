import CockatielEngine.Pipeline.Ingest

/-!
# Pipeline: the three stage starters

`broadcast_pre_process`, `start_in_process` and `start_post_process`.  Each
begins at the pause gate; the last two then consult the audit hold.  The two
fanouts share one loop: send to a recipient, then track the ack it owes, then
the next recipient.
-/

namespace CockatielEngine

open TaskPool

namespace BroadcastFrame

def step (e : Engine) : BroadcastFrame → Outcome Engine Frame
  | .enter uuid7 =>
      match e.pauseState.holdIfGated uuid7 .entry with
      | (true, s) => go { e with pauseState := s } []
      | (false, _) => go e [.broadcast (.load uuid7)]
  | .load uuid7 =>
      match e.pipelineStates uuid7 with
      | none => go e []
      | some state => go e [.broadcast (.config uuid7 state)]
  | .config uuid7 state =>
      let fo : Fanout :=
        { uuid7
          stage := .preProcess
          container := state.preProcessContainer uuid7
          ackTimeoutMs := e.config.ackTimeoutMs
          sentAny := false }
      go e [.fanout (.send fo
        (commandRecipients state.parsedCommand e.commandRegistry
          e.config.preProcessModules))]

end BroadcastFrame

namespace FanoutFrame

/-- Where a fanout that reached nobody sends its message.  An empty recipient
list is the case of a loop that never sent. -/
def nobody (uuid7 : String) : Stage → Frame
  | .preProcess => .inProcess (.enter uuid7)
  | .inProcess => .inProcess (.enter uuid7)
  | .postProcess => .terminal (.check uuid7 .complete)

def step (e : Engine) (a : Answer) : FanoutFrame → Outcome Engine Frame
  | .send fo [] =>
      if fo.sentAny then go e []
      else go (e.logged (.left fo.uuid7 fo.stage)) [nobody fo.uuid7 fo.stage]
  | .send fo (moduleName :: todo) =>
      if a.permitted && decide (a.outcome = .sent) then
        go (e.logged (.sent fo.uuid7 fo.stage moduleName fo.container))
          [.fanout (.track { fo with sentAny := true } moduleName todo)]
      else go e [.fanout (.send fo todo)]
  | .track fo moduleName todo =>
      go { e with
             ackTracker := e.ackTracker.track e.now fo.uuid7 fo.stage
               moduleName fo.ackTimeoutMs }
        [.fanout (.send fo todo)]

end FanoutFrame

namespace InProcessFrame

def step (e : Engine) (a : Answer) : InProcessFrame → Outcome Engine Frame
  | .enter uuid7 =>
      match e.pauseState.holdIfGated uuid7 .inProcess with
      | (true, s) => go { e with pauseState := s } []
      | (false, _) => go e [.inProcess (.audit uuid7)]
  | .audit uuid7 =>
      if a.dbOk then
        if e.timeline.isAudited uuid7 then go e []
        else go e [.inProcess (.load uuid7)]
      else fail e
  | .load uuid7 =>
      match e.pipelineStates uuid7 with
      | none => go e []
      | some state =>
          let state := { state with stage := .inProcessing }
          go (e.putState uuid7 (some state))
            [.inProcess (.config uuid7 state)]
  | .config uuid7 state =>
      let modules := e.config.inProcessModules
      match modules[state.currentInProcessIndex]? with
      | none => go e [.postProcess (.enter uuid7)]
      | some moduleName =>
          if (commandRecipients state.parsedCommand e.commandRegistry
              modules).contains moduleName then
            go e [.inProcess (.send uuid7 state moduleName
              e.config.ackTimeoutMs modules.length)]
          else go e [.inProcess (.skip uuid7 modules.length)]
  | .send uuid7 state moduleName ackTimeoutMs len =>
      if a.permitted && decide (a.outcome = .sent) then
        go (e.logged (.sent uuid7 .inProcess moduleName
            (state.inProcessContainer uuid7)))
          [.inProcess (.track uuid7 moduleName ackTimeoutMs)]
      else go e [.inProcess (.skip uuid7 len)]
  | .track uuid7 moduleName ackTimeoutMs =>
      go { e with
             ackTracker := e.ackTracker.track e.now uuid7 .inProcess
               moduleName ackTimeoutMs }
        []
  | .skip uuid7 len =>
      match e.pipelineStates uuid7 with
      | none => go e []
      | some state =>
          let nextIndex := state.currentInProcessIndex + 1
          go (e.putState uuid7
              (some { state with currentInProcessIndex := nextIndex }))
            (if len ≤ nextIndex then [.postProcess (.enter uuid7)]
             else [.inProcess (.enter uuid7)])

end InProcessFrame

namespace PostProcessFrame

def step (e : Engine) (a : Answer) : PostProcessFrame → Outcome Engine Frame
  | .enter uuid7 =>
      match e.pauseState.holdIfGated uuid7 .postProcess with
      | (true, s) => go { e with pauseState := s } []
      | (false, _) => go e [.postProcess (.audit uuid7)]
  | .audit uuid7 =>
      if a.dbOk then
        if e.timeline.isAudited uuid7 then go e []
        else go e [.postProcess (.load uuid7)]
      else fail e
  | .load uuid7 =>
      match e.pipelineStates uuid7 with
      | none => go e []
      | some state =>
          let state := { state with stage := .postProcessing }
          go (e.putState uuid7 (some state))
            [.postProcess (.config uuid7 state)]
  | .config uuid7 state =>
      let fo : Fanout :=
        { uuid7
          stage := .postProcess
          container := state.postProcessContainer uuid7
          ackTimeoutMs := e.config.ackTimeoutMs
          sentAny := false }
      go e [.fanout (.send fo
        (postProcessRecipients state.parsedCommand e.commandRegistry
          e.config.postProcessModules))]

end PostProcessFrame
end CockatielEngine
