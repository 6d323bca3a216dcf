import CockatielEngine.Pipeline.PauseState

/-!
# Gate: the callers of the pause state

The operator's `pipeline_set_paused`, the boot pause, and the tasks that watch
the engine's dependencies.  A caller is represented by the critical section it
runs next; `resume` is represented by its first critical section, the only one
that touches the pause state.
-/

namespace CockatielEngine

/-- A caller of the pause state, standing before its next critical section.
`resume told` records whether `clear_block` told the caller to resume. -/
inductive GateTask where
  | pause
  | deferPause
  | deferResume
  | resume (told : Bool)
  | setPaused (paused : Bool)
  | setBlock (reason : BlockedReason)
  | clearBlock (reason : BlockedReason)
deriving DecidableEq, Repr

namespace GateTask

/-- What `pipeline_set_paused` decides from the blocked reason it read. -/
def ofRequest : Bool → Option BlockedReason → GateTask
  | true, some _ => .deferPause
  | true, none => .pause
  | false, some _ => .deferResume
  | false, none => .resume false

/-- Run one critical section; the list is what the caller still has to do. -/
def step (s : PauseState) : GateTask → PauseState × List GateTask
  | .pause => (s.pause.2, [])
  | .deferPause => (s.deferPause, [])
  | .deferResume => (s.deferResume, [])
  | .resume _ => (s.resume.2, [])
  | .setPaused paused => (s, [ofRequest paused s.blocked])
  | .setBlock reason => (s.setBlock reason, [])
  | .clearBlock reason =>
      let r := s.clearBlock reason
      (r.2, if r.1 then [.resume true] else [])

end GateTask
end CockatielEngine
