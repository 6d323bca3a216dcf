import CockatielEngine.Pipeline.Replies
import CockatielEngine.Pipeline.Stages
import CockatielEngine.Pipeline.Terminal
import CockatielEngine.Pipeline.Timeouts

/-!
# Pipeline: the engine as a task pool

The steps of all families together, the frames that contain errors, and the
entry points through which the world starts the engine's tasks.
-/

namespace CockatielEngine

open TaskPool

/-- The replay of a held dispatch. -/
def replayHold (uuid7 : String) : HoldPoint → Frame
  | .entry => .broadcast (.enter uuid7)
  | .inProcess => .inProcess (.enter uuid7)
  | .postProcess => .postProcess (.enter uuid7)

namespace ResumeFrame

def step (e : Engine) : ResumeFrame → Outcome Engine Frame
  | .restartClocks =>
      go { e with ackTracker := e.ackTracker.restartClocks e.now } []
  | .spawnReplay held =>
      { shared := e
        next := some []
        spawned :=
          if held.isEmpty then [] else [[.resume (.replayNext held)]] }
  | .replayNext [] => go e []
  | .replayNext ((uuid7, point) :: held) =>
      go e [replayHold uuid7 point, .resume (.replayNext held)]

end ResumeFrame

/-- A caller of the pause state; `resume` goes on to restart the clocks, to
sweep and to release what it took. -/
def gateStep (e : Engine) (t : GateTask) : Outcome Engine Frame :=
  let r := t.step e.pauseState
  let e' := { e with pauseState := r.1 }
  match t with
  | .resume _ =>
      go e' [.resume .restartClocks, .sweep .start,
        .resume (.spawnReplay e.pauseState.held)]
  | _ => go e' (r.2.map .gate)

namespace Frame

def step (e : Engine) (a : Answer) : Frame → Outcome Engine Frame
  | .ingest f => f.step e a
  | .recovery f => f.step e a
  | .broadcast f => f.step e
  | .fanout f => f.step e a
  | .inProcess f => f.step e a
  | .postProcess f => f.step e a
  | .terminal f => f.step e a
  | .reply f => f.step e
  | .advance f => f.step e a
  | .sweep f => f.step e a
  | .gate t => gateStep e t
  | .resume f => f.step e
  | .audit f => f.step e a

/-- `resume` goes on after a failed sweep, and the replay and the recovery
drain go on after a message they could not drive. -/
def catches : Frame → Bool
  | .resume (.spawnReplay _) => true
  | .resume (.replayNext _) => true
  | .recovery (.drainNext _) => true
  | _ => false

end Frame

namespace WorldEvent

/-- The effect of the world's move on the shared state. -/
def effect (e : Engine) : WorldEvent → Engine
  | .tick ms =>
      { e with
        clock :=
          { stretches := (ms, e.pauseState.isGated) :: e.clock.stretches } }
  | .setConfig cfg => { e with config := cfg }
  | .setRegistry registry => { e with commandRegistry := registry }
  | _ => e

/-- The task the world's move starts.  A reply or a receipt that names no
message is dropped at the door. -/
def starts : WorldEvent → List (List Frame)
  | .tick _ => []
  | .setConfig _ => []
  | .setRegistry _ => []
  | .ingest msg => [[.ingest (.insertEvent msg)]]
  | .recover => [[.recovery .drainQueued]]
  | .reply r =>
      if r.uuid7 = "" then [] else [[.reply (.check r)]]
  | .receipt uuid7 moduleName =>
      if uuid7 = "" then [] else [[.reply (.receipt uuid7 moduleName)]]
  | .sweep => [[.sweep .start]]
  | .boot => [[.gate .pause]]
  | .operator paused => [[.gate (.setPaused paused)]]
  | .dependencyDown reason => [[.gate (.setBlock reason)]]
  | .dependencyUp reason => [[.gate (.clearBlock reason)]]
  | .auditFlag uuid7 reason => [[.audit (.flag uuid7 reason)]]
  | .auditDecision uuid7 approve => [[.audit (.release uuid7 approve)]]

end WorldEvent

/-- The engine. -/
def engine : Program Engine Frame Answer WorldEvent where
  step e f a := some (f.step e a)
  catches := Frame.catches
  event e ev := some (ev.effect e, ev.starts)

abbrev EnginePool := Pool Engine Frame
abbrev EngineLabel := Label Answer WorldEvent

/-- The pool an engine boots with. -/
def boot (e : Engine) : EnginePool :=
  { shared := e, threads := [] }

/-- The pool after task `i` has run `f`. -/
abbrev afterRun (s : EnginePool) (i : Nat) (a : Answer) (f : Frame)
    (rest : List Frame) : EnginePool :=
  { shared := (f.step s.shared a).shared
    threads := s.threads.set i (engine.unwind (f.step s.shared a).next rest) ++
      (f.step s.shared a).spawned }

theorem engine_step_eq
    {e : Engine} {f : Frame} {a : Answer} {o : Outcome Engine Frame}
    (h : engine.step e f a = some o) :
    o = f.step e a :=
  (Option.some.inj h).symm

theorem engine_event_eq
    {e : Engine} {ev : WorldEvent} {r : Engine × List (List Frame)}
    (h : engine.event e ev = some r) :
    r = (ev.effect e, ev.starts) :=
  (Option.some.inj h).symm

end CockatielEngine
