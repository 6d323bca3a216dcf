import CockatielEngine.Concurrency.TaskPool

/-!
# Shutdown: the signal, the writer task and the query arms

A shutdown request moves the signal to `requested`; the connection that has
queued the answer arms its flush flag, and the writer task, which reads the
flag after each frame it has written, moves the signal to `answered`.

Each connection has two tasks, the read loop with its query arms and the
writer.  Their atomic steps are the ones at which they touch the signal, the
flag or the outgoing queue.
-/

namespace CockatielEngine

open TaskPool

inductive ShutdownStage where
  | idle
  | requested
  | answered
deriving DecidableEq, Repr

/-- A frame for the socket: the answer to an accepted shutdown request, or
anything else. -/
inductive OutboundFrame where
  | shutdownAnswer
  | other
deriving DecidableEq, Repr

/-- The frame that answers a query. -/
def answerFrame (accepted : Bool) : OutboundFrame :=
  if accepted then .shutdownAnswer else .other

/-- A query on either surface: whether it names `engine_shutdown`, and whether
the control surface sent it. -/
structure EngineQuery where
  isShutdown : Bool
  fromControlSurface : Bool
deriving DecidableEq, Repr

/-- The two gates of a shutdown request. -/
def EngineQuery.accepted (q : EngineQuery) (shutdownOnRequest : Bool) : Bool :=
  q.isShutdown && q.fromControlSurface && shutdownOnRequest

/-- The writer task: it waits for a frame, is sending one, is about to read the
flush flag, is about to confirm the answer, or is over. -/
inductive WriterState where
  | receiving
  | sending (f : OutboundFrame)
  | reporting (f : OutboundFrame)
  | confirming
  | exited
deriving DecidableEq, Repr

/-- The read loop.  A `DatabaseQuery` goes from `reading` to `arming` and
perhaps `releasing`; a `QueryRequest` is dispatched and replied to; the cleanup
goes from `aborting` to `over`. -/
inductive HandlerState where
  | waiting
  | reading (q : EngineQuery)
  | dispatching (q : EngineQuery) (wasRequested : Bool)
  | rereading (accepted wasRequested : Bool)
  | sending (accepted answered : Bool)
  | arming (accepted answered queued : Bool)
  | releasing
  | dispatchingRequest (q : EngineQuery)
  | replying (accepted : Bool)
  | aborting
  | joining
  | checkingFlush
  | releasingLast
  | over
deriving DecidableEq, Repr

/-- One connection: its outgoing queue, its flush flag and its two tasks.  The
last two fields are ghosts: an answer to an accepted request has been written
to the socket, or can no longer be. -/
structure ConnectionIo where
  queue : List OutboundFrame := []
  flush : Bool := false
  writer : WriterState := .receiving
  handler : HandlerState := .waiting
  answerWritten : Bool := false
  answerLost : Bool := false
deriving DecidableEq, Repr

namespace WriterState

/-- The frame the writer has taken off the queue and not yet reported. -/
def hand : WriterState → Option OutboundFrame
  | .sending f => some f
  | .reporting f => some f
  | _ => none

end WriterState

namespace ConnectionIo

/-- An answer to an accepted request is on its way to the socket. -/
def pending (c : ConnectionIo) : Bool :=
  c.queue.contains .shutdownAnswer || c.writer.hand = some .shutdownAnswer

/-- The queue has taken the frame, its receiver is gone, or its bound on the
wait ran out; the first two count as queued. -/
def send (c : ConnectionIo) (f : OutboundFrame) (taken : Bool) :
    Bool × ConnectionIo :=
  let lost := { c with answerLost := c.answerLost || f = .shutdownAnswer }
  if c.writer = .exited then (true, lost)
  else if taken then (true, { c with queue := c.queue ++ [f] })
  else (false, lost)

/-- The writer is over, and the frames it had and those behind it are lost. -/
def exitWriter (c : ConnectionIo) : ConnectionIo :=
  { c with
    writer := .exited
    queue := []
    answerLost := c.answerLost || c.pending }

/-- The next step of the read loop. -/
def handlerStep (stage : ShutdownStage) (c : ConnectionIo)
    (shutdownOnRequest taken : Bool) : Option (ShutdownStage × ConnectionIo) :=
  match c.handler with
  | .reading q =>
      some (stage,
        { c with handler := .dispatching q (decide (stage = .requested)) })
  | .dispatching q wasRequested =>
      let accepted := q.accepted shutdownOnRequest
      some (if accepted then .requested else stage,
        { c with handler := .rereading accepted wasRequested })
  | .rereading accepted wasRequested =>
      some (stage,
        { c with
          handler :=
            .sending accepted (!wasRequested && decide (stage = .requested)) })
  | .sending accepted answered =>
      let r := c.send (answerFrame accepted) taken
      some (stage, { r.2 with handler := .arming accepted answered r.1 })
  | .arming _ answered queued =>
      some (stage,
        { c with
          flush := answered && queued
          handler := if answered && !queued then .releasing else .waiting })
  | .releasing => some (.answered, { c with handler := .waiting })
  | .dispatchingRequest q =>
      let accepted := q.accepted shutdownOnRequest
      some (if accepted then .requested else stage,
        { c with handler := .replying accepted })
  | .replying accepted =>
      some (stage,
        { (c.send (answerFrame accepted) taken).2 with handler := .waiting })
  | .aborting => some (stage, { c with handler := .joining })
  | .joining =>
      if c.writer = .exited then some (stage, { c with handler := .checkingFlush })
      else none
  | .checkingFlush =>
      some (stage,
        { c with
          flush := false
          handler := if c.flush then .releasingLast else .over })
  | .releasingLast => some (.answered, { c with handler := .over })
  | .waiting => none
  | .over => none

/-- The next step of the writer; the socket takes the frame or fails. -/
def writerStep (stage : ShutdownStage) (c : ConnectionIo) (ok : Bool) :
    Option (ShutdownStage × ConnectionIo) :=
  match c.writer, c.queue with
  | .receiving, [] => none
  | .receiving, f :: rest =>
      some (stage, { c with writer := .sending f, queue := rest })
  | .sending f, _ =>
      if ok then
        some (stage,
          { c with
            writer := .reporting f
            answerWritten := c.answerWritten || f = .shutdownAnswer })
      else some (stage, c.exitWriter)
  | .reporting _, _ =>
      some (stage,
        { c with
          flush := false
          writer := if c.flush then .confirming else .receiving })
  | .confirming, _ => some (.answered, { c with writer := .receiving })
  | .exited, _ => none

/-- The abort takes effect at an await of the writer. -/
def cancelWriter (c : ConnectionIo) : Option ConnectionIo :=
  match c.handler, c.writer with
  | .joining, .receiving => some c.exitWriter
  | .joining, .sending _ => some c.exitWriter
  | _, _ => none

/-- What arrives while the read loop waits. -/
def arrive (c : ConnectionIo) (handler : HandlerState) : Option ConnectionIo :=
  if c.handler = .waiting then some { c with handler := handler } else none

/-- Another task has something to send. -/
def enqueue (c : ConnectionIo) : ConnectionIo :=
  if c.writer = .exited then c else { c with queue := c.queue ++ [.other] }

end ConnectionIo

/-- The signal and the connections. -/
structure ShutdownState where
  stage : ShutdownStage := .idle
  connections : Nat → ConnectionIo

/-- A step of one connection. -/
inductive HandOffEvent where
  | databaseQuery (k : Nat) (q : EngineQuery)
  | queryRequest (k : Nat) (q : EngineQuery)
  | hangUp (k : Nat)
  | handler (k : Nat) (shutdownOnRequest taken : Bool)
  | enqueue (k : Nat)
  | writer (k : Nat) (ok : Bool)
  | cancelWriter (k : Nat)
deriving DecidableEq, Repr

namespace HandOffEvent

/-- The connection that takes the step. -/
def connection : HandOffEvent → Nat
  | .databaseQuery k _ => k
  | .queryRequest k _ => k
  | .hangUp k => k
  | .handler k _ _ => k
  | .enqueue k => k
  | .writer k _ => k
  | .cancelWriter k => k

/-- The step, on the signal and the connection. -/
def apply (stage : ShutdownStage) (c : ConnectionIo) :
    HandOffEvent → Option (ShutdownStage × ConnectionIo)
  | .databaseQuery _ q => (c.arrive (.reading q)).map fun c => (stage, c)
  | .queryRequest _ q =>
      (c.arrive (.dispatchingRequest q)).map fun c => (stage, c)
  | .hangUp _ => (c.arrive .aborting).map fun c => (stage, c)
  | .handler _ shutdownOnRequest taken =>
      c.handlerStep stage shutdownOnRequest taken
  | .enqueue _ => some (stage, c.enqueue)
  | .writer _ ok => c.writerStep stage ok
  | .cancelWriter _ => c.cancelWriter.map fun c => (stage, c)

end HandOffEvent

/-- The connections as a program without further tasks. -/
def handOff : Program ShutdownState Empty Unit HandOffEvent where
  step _ f _ := nomatch f
  catches f := nomatch f
  event s ev :=
    (ev.apply s.stage (s.connections ev.connection)).map fun r =>
      ({ stage := r.1
         connections := Function.update s.connections ev.connection r.2 }, [])

end CockatielEngine
