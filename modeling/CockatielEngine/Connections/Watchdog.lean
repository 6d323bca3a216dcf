import CockatielEngine.Connections.Connection

/-!
# Connections: the watchdog

The loop that probes silent sessions and gives up on those that do not answer,
beside the connections of the engine.  A pass works on a copy of the session
table; every access to a shared table is a step of its own, and the connections
go on between them.
-/

namespace CockatielEngine

open TaskPool

/-- The fields of a session that tell whether it is alive, in milliseconds. -/
structure Liveness where
  lastActivityMs : Nat
  lastProbeAtMs : Nat
  probeDeadlineMs : Nat
  unresponsive : Bool
deriving DecidableEq, Repr

namespace Liveness

/-- A session is registered. -/
def new (now : Nat) (_ : Liveness) : Liveness where
  lastActivityMs := now
  lastProbeAtMs := 0
  probeDeadlineMs := 0
  unresponsive := false

def updateActivity (now : Nat) (l : Liveness) : Liveness :=
  { l with lastActivityMs := now, probeDeadlineMs := 0 }

def claimSocket (now : Nat) (l : Liveness) : Liveness :=
  { l with lastActivityMs := now, probeDeadlineMs := 0, unresponsive := false }

def markProbed (now deadline : Nat) (l : Liveness) : Liveness :=
  { l with lastProbeAtMs := now, probeDeadlineMs := deadline }

def markUnresponsive (l : Liveness) : Liveness :=
  { l with unresponsive := true, probeDeadlineMs := 0 }

end Liveness

/-- How long a session may be silent, and how long it has to answer a probe, in
seconds. -/
structure ProbeTimes where
  interval : UInt32
  response : UInt32

/-- The times for a module: its manifest's where they are set, the
configuration's otherwise. -/
def probeTimes (defaults : ProbeTimes) (manifests : String → Option ProbeTimes)
    (moduleName : String) : ProbeTimes :=
  match manifests moduleName with
  | some d =>
      { interval := if 0 < d.interval then d.interval else defaults.interval
        response := if 0 < d.response then d.response else defaults.response }
  | none => defaults

/-- Seconds in milliseconds, in the arithmetic of 32 bits. -/
def millis (secs : UInt32) : Nat :=
  (secs * 1000).toNat

theorem millis_of_lt {secs : UInt32} (h : secs.toNat * 1000 < 2 ^ 32) :
    millis secs = secs.toNat * 1000 := by
  simp only [millis, UInt32.toNat_mul]
  exact Nat.mod_eq_of_lt h

/-- A session as the pass has copied it. -/
structure SessionCopy where
  instanceUuid7 : String
  session : AuthSession
  liveness : Liveness
deriving DecidableEq, Repr

namespace SessionCopy

/-- A probe is outstanding, and its window is over. -/
def expired (c : SessionCopy) (now : Nat) : Bool :=
  decide (0 < c.liveness.probeDeadlineMs) && decide (c.liveness.probeDeadlineMs ≤ now)

/-- The session has been silent, and left alone, for the interval. -/
def due (c : SessionCopy) (times : ProbeTimes) (now : Nat) : Bool :=
  decide ((millis times.interval : Int) ≤ now - c.liveness.lastActivityMs) &&
    decide ((millis times.interval : Int) ≤ now - c.liveness.lastProbeAtMs)

/-- The pass probes the session. -/
def probes (c : SessionCopy) (times : ProbeTimes) (now : Nat) : Bool :=
  !c.liveness.unresponsive && !c.expired now && c.due times now

end SessionCopy

/-- Ghost record of what the watchdog's soundness speaks about. -/
inductive WatchEvent where
  | heard (instanceUuid7 : String) (time : Nat)
  | probed (instanceUuid7 moduleName : String) (time : Nat)
  | queued (instanceUuid7 : String) (socketToken : Nat)
  | marked (instanceUuid7 : String) (socketToken : Nat)
  | killed (instanceUuid7 : String) (socketToken : Nat)
deriving DecidableEq, Repr

/-- The tables of the connections, and the liveness of their sessions; `log` is
a ghost, newest first. -/
structure Watched where
  tables : ConnectionTables := {}
  now : Nat := 0
  liveness : String → Liveness := fun _ => ⟨0, 0, 0, false⟩
  log : List WatchEvent := []

/-- The watchdog at one of its steps; `now` is the time at which the pass
began. -/
inductive WatchdogFrame where
  | sleep
  | values (now : Nat)
  | each (now : Nat) (todo : List SessionCopy)
  | mark (now : Nat) (c : SessionCopy) (todo : List SessionCopy)
  | kill (now : Nat) (c : SessionCopy) (todo : List SessionCopy)
  | probe (now : Nat) (c : SessionCopy) (todo : List SessionCopy)
deriving DecidableEq, Repr

/-- What the world answers to a step: to a connection, or to the watchdog the
order in which the sessions come out of the table, and whether the queue of an
open connection takes a probe. -/
structure WatchedAnswer where
  connection : ConnectionAnswer := {}
  order : List String := []
  queued : Bool := true
deriving DecidableEq, Repr

namespace Watched

/-- A container arrives from the instance, which stamps its session. -/
def hear (w : Watched) (instanceUuid7 : String)
    (stamp : Nat → Liveness → Liveness) : Watched :=
  { w with
    liveness := Function.update w.liveness instanceUuid7
      (stamp w.now (w.liveness instanceUuid7))
    log := .heard instanceUuid7 w.now :: w.log }

/-- Change the liveness of a session that is in the table. -/
def modify (w : Watched) (instanceUuid7 : String) (f : Liveness → Liveness)
    (ev : AuthSession → WatchEvent) : Watched :=
  match w.tables.sessions instanceUuid7 with
  | some session =>
      { w with
        liveness := Function.update w.liveness instanceUuid7
          (f (w.liveness instanceUuid7))
        log := ev session :: w.log }
  | none => w

def markProbed (w : Watched) (instanceUuid7 : String) (now deadline : Nat) :
    Watched :=
  w.modify instanceUuid7 (.markProbed now deadline) fun session =>
    .probed instanceUuid7 session.moduleName w.now

def markUnresponsive (w : Watched) (instanceUuid7 : String) : Watched :=
  w.modify instanceUuid7 .markUnresponsive fun session =>
    .marked instanceUuid7 session.socketToken

/-- Throw the kill switch of the instance, if there is one. -/
def kill (w : Watched) (instanceUuid7 : String) : Watched :=
  match w.tables.killMap instanceUuid7 with
  | some k =>
      { w with
        tables := w.tables.throwKill instanceUuid7
        log := .killed instanceUuid7 k :: w.log }
  | none => w

/-- Send the probe for a session into the slot of its module's name; what
became of it is not looked at. -/
def sendProbe (w : Watched) (c : SessionCopy) (queued : Bool) : Watched :=
  match w.tables.moduleSenders c.session.moduleName with
  | some k =>
      if !w.tables.closed k && queued then
        { w with log := .queued c.instanceUuid7 k :: w.log }
      else w
  | none => w

/-- A copy of every session. -/
def values (w : Watched) (order : List String) : List SessionCopy :=
  order.dedup.filterMap fun u =>
    (w.tables.sessions u).map fun session => ⟨u, session, w.liveness u⟩

end Watched

/-- The session that a step of a connection stamps, and how: a container that is
accepted, a session that is registered, and one that is claimed. -/
def ConnectionFrame.stamps (t : ConnectionTables) (received : Received) :
    ConnectionFrame → Option (String × (Nat → Liveness → Liveness))
  | .serve _ =>
      match received with
      | .container instanceUuid7 true =>
          if t.sessions.isAuthenticated instanceUuid7 then
            some (instanceUuid7, .updateActivity)
          else none
      | _ => none
  | .insertSession c => some (c.instanceUuid7, .new)
  | .claimSocket c => some (c.instanceUuid7, .claimSocket)
  | .rebuildSession c =>
      if (t.sessions c.instanceUuid7).isNone then some (c.instanceUuid7, .new)
      else none
  | _ => none

abbrev WatchedFrame := ConnectionFrame ⊕ WatchdogFrame

/-- A step of a connection, which the clock stamps. -/
def connectionStep (w : Watched) (a : ConnectionAnswer) (f : ConnectionFrame) :
    Option (Outcome Watched WatchedFrame) :=
  (f.step w.tables { a with now := w.now }).map fun o =>
    let w' := { w with tables := o.shared }
    { shared :=
        match f.stamps w.tables a.received with
        | some (instanceUuid7, stamp) => w'.hear instanceUuid7 stamp
        | none => w'
      next := o.next.map fun fs => fs.map .inl
      spawned := o.spawned.map fun fs => fs.map .inl }

/-- How long a session that was shut down may stay in the table. -/
def maxShutdownAgeMs : Nat := 60000

namespace WatchdogFrame

variable (times : String → ProbeTimes)

/-- What the watchdog goes on to. -/
def step (w : Watched) (a : WatchedAnswer) :
    WatchdogFrame → Watched × WatchdogFrame
  | .sleep =>
      ({ w with
          tables :=
            { w.tables with
              sessions := w.tables.sessions.sweepShutdownSessions w.now
                maxShutdownAgeMs } },
        .values w.now)
  | .values now => (w, .each now (w.values a.order))
  | .each _ [] => (w, .sleep)
  | .each now (c :: todo) =>
      if c.liveness.unresponsive then (w, .each now todo)
      else if c.expired now then (w, .mark now c todo)
      else if c.due (times c.session.moduleName) now then
        (w.markProbed c.instanceUuid7 now
            (now + millis (times c.session.moduleName).response),
          .probe now c todo)
      else (w, .each now todo)
  | .mark now c todo => (w.markUnresponsive c.instanceUuid7, .kill now c todo)
  | .kill now c todo => (w.kill c.instanceUuid7, .each now todo)
  | .probe now c todo => (w.sendProbe c a.queued, .each now todo)

end WatchdogFrame

/-- The world's moves: time passes, and clients come. -/
inductive WatchedEvent where
  | tick (ms : Nat)
  | pinConnect (moduleName instanceUuid7 : String)
  | tokenReconnect (moduleName instanceUuid7 : String)
deriving DecidableEq, Repr

namespace WatchedEvent

/-- The move as the connections see it. -/
def connect : WatchedEvent → Option ConnectionEvent
  | .tick _ => none
  | .pinConnect moduleName instanceUuid7 => some (.pinConnect moduleName instanceUuid7)
  | .tokenReconnect moduleName instanceUuid7 =>
      some (.tokenReconnect moduleName instanceUuid7)

def effect (w : Watched) : WatchedEvent → Watched
  | .tick ms => { w with now := w.now + ms }
  | ev =>
      match ev.connect with
      | some ev => { w with tables := ev.effect w.tables }
      | none => w

def starts (w : Watched) (ev : WatchedEvent) : List (List WatchedFrame) :=
  match ev.connect with
  | some ev => (ev.starts w.tables).map fun fs => fs.map .inl
  | none => []

end WatchedEvent

/-- The connections of an engine together with its watchdog. -/
def watched (times : String → ProbeTimes) :
    Program Watched WatchedFrame WatchedAnswer WatchedEvent where
  step w f a :=
    match f with
    | .inl f => connectionStep w a.connection f
    | .inr f =>
        some (.thenRun (f.step times w a).1 [.inr (f.step times w a).2])
  catches _ := false
  event w ev := some (ev.effect w, ev.starts w)

abbrev WatchedPool := Pool Watched WatchedFrame
abbrev WatchedLabel := Label WatchedAnswer WatchedEvent

/-- An engine that has started its watchdog. -/
def bootWatched : WatchedPool :=
  { shared := {}, threads := [[.inr .sleep]] }

end CockatielEngine
