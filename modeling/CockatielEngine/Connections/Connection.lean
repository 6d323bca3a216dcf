import CockatielEngine.Concurrency.TaskPool
import CockatielEngine.Connections.AuthStore

/-!
# Connections: the life of one connection

`handle_connection` from the moment the client is accepted, by PIN or by
token, to the end of its disconnect cleanup.  Every access to one of the four
shared tables (sessions, routing slot, slot owner, kill switches) is a step of
its own; the two tables that the code locks together share a step.  A client
that is refused touches none of the tables.
-/

namespace CockatielEngine

open TaskPool

/-- The locals of a connection; its socket token also stands for its outbound
sender and for its kill switch. -/
structure Connection where
  moduleName : String
  instanceUuid7 : String
  routeName : String
  socketToken : Nat
deriving DecidableEq, Repr

/-- What the connections share.  `closed` says whose outbound receiver is gone,
`killed` whose kill switch was thrown; `takenOver` is a ghost for the sockets
that lost their session to a later socket of the same instance. -/
structure ConnectionTables where
  nextSocketToken : Nat := 1
  sessions : AuthStore := fun _ => none
  moduleSenders : String → Option Nat := fun _ => none
  slotOwner : String → Option String := fun _ => none
  killMap : String → Option Nat := fun _ => none
  closed : Nat → Bool := fun _ => false
  killed : Nat → Bool := fun _ => false
  takenOver : Nat → Bool := fun _ => false

/-- A same-name connection is accepted as a shadow only beside a live incumbent
of a different instance. -/
def shouldShadow (liveIncumbent sameInstance : Bool) : Bool :=
  liveIncumbent && !sameInstance

namespace ConnectionTables

/-- The sender in the slot of the name is open. -/
def liveSender (t : ConnectionTables) (name : String) : Bool :=
  ((t.moduleSenders name).map fun k => !t.closed k).getD false

/-- The instance that owns the name, when its sender is open. -/
def liveIncumbent (t : ConnectionTables) (name : String) : Option String :=
  if t.liveSender name then t.slotOwner name else none

/-- Throw the kill switch registered for the instance, if there is one. -/
def throwKill (t : ConnectionTables) (instanceUuid7 : String) :
    ConnectionTables :=
  match t.killMap instanceUuid7 with
  | some k => { t with killed := Function.update t.killed k true }
  | none => t

/-- Drop the receiver of a connection's outbound queue. -/
def close (t : ConnectionTables) (socketToken : Nat) : ConnectionTables :=
  { t with closed := Function.update t.closed socketToken true }

/-- Record that the session's present socket loses it to another one. -/
def noteTakeover (t : ConnectionTables) (instanceUuid7 : String)
    (socketToken : Nat) : ConnectionTables :=
  match t.sessions instanceUuid7 with
  | some s =>
      if s.socketToken = socketToken then t
      else { t with takenOver := Function.update t.takenOver s.socketToken true }
  | none => t

/-- Install the connection's sender in its slot. -/
def fillSlot (t : ConnectionTables) (c : Connection) : ConnectionTables :=
  { t with
    moduleSenders := Function.update t.moduleSenders c.routeName
      (some c.socketToken)
    slotOwner := Function.update t.slotOwner c.routeName
      (some c.instanceUuid7) }

/-- Remove the sender and the owner of a slot. -/
def freeSlot (t : ConnectionTables) (name : String) : ConnectionTables :=
  { t with
    moduleSenders := Function.update t.moduleSenders name none
    slotOwner := Function.update t.slotOwner name none }

/-- The connection would be a shadow in its slot. -/
def shadows (t : ConnectionTables) (c : Connection) : Bool :=
  shouldShadow (t.liveSender c.routeName)
    (decide (t.slotOwner c.routeName = some c.instanceUuid7))

section Fields

variable (t : ConnectionTables) (u : String) (k : Nat)

/-- Throwing a kill switch moves nothing but the switches. -/
theorem throwKill_eq :
    t.throwKill u = { t with killed := (t.throwKill u).killed } := by
  unfold throwKill
  split <;> rfl

/-- A takeover is only put on record. -/
theorem noteTakeover_eq :
    t.noteTakeover u k = { t with takenOver := (t.noteTakeover u k).takenOver } := by
  unfold noteTakeover
  repeat' split
  all_goals rfl

/-- A switch stays thrown. -/
theorem killed_of_throwKill {k : Nat} (h : (t.throwKill u).killed k = false) :
    t.killed k = false := by
  unfold throwKill at h
  split at h
  · rename_i k' _
    by_cases hk : k = k'
    · simp [hk] at h
    · simpa [hk] using h
  · exact h

/-- A takeover stays on record. -/
theorem takenOver_of_noteTakeover {k' : Nat}
    (h : (t.noteTakeover u k).takenOver k' = false) :
    t.takenOver k' = false ∧
      ∀ s ∈ t.sessions u, s.socketToken = k' → k' = k := by
  unfold noteTakeover at h
  cases hs : t.sessions u with
  | none => simpa [hs] using h
  | some s =>
      simp only [hs] at h
      split at h
      · rename_i hk
        refine ⟨h, fun s' hs' heq => ?_⟩
        obtain rfl := Option.some.inj hs'
        exact heq.symm.trans hk
      · by_cases hk' : k' = s.socketToken
        · simp [hk'] at h
        · refine ⟨by simpa [hk'] using h, fun s' hs' heq => ?_⟩
          obtain rfl := Option.some.inj hs'
          exact absurd heq.symm hk'

end Fields

end ConnectionTables

/-- `handle_connection` at one of its steps.  The first three are those of a
PIN connect, `routeName`, `claimSocket` and `rebuildSession` those of a token
reconnect; `dropOthers` is in both. -/
inductive ConnectionFrame where
  | incumbent (c : Connection)
  | evict (c : Connection) (incumbent : String)
  | freeSlot (c : Connection)
  | dropOthers (c : Connection) (reconnect : Bool)
  | insertSession (c : Connection)
  | routeName (c : Connection)
  | claimSocket (c : Connection)
  | rebuildSession (c : Connection)
  | respond (c : Connection)
  | registerSender (c : Connection)
  | registerKill (c : Connection)
  | serve (c : Connection)
  | stopWriter (c : Connection)
  | unregisterKill (c : Connection)
  | shutdownSession (c : Connection)
  | removeSession (c : Connection)
  | unregisterSender (c : Connection) (stillOwned : Bool)
deriving DecidableEq, Repr

/-- What the read loop of a connection sees next. -/
inductive Received where
  | container (instanceUuid7 : String) (tokenValid : Bool)
  | hangup
  | killed
  | writerExits
deriving DecidableEq, Repr

/-- What the world answers to a step of a connection: whether the response was
sent, what the read loop received, and the time. -/
structure ConnectionAnswer where
  sent : Bool := true
  received : Received := .hangup
  now : Nat := 0
deriving DecidableEq, Repr

namespace ConnectionFrame

/-- The connection that the frame belongs to. -/
def connection : ConnectionFrame → Connection
  | .incumbent c => c
  | .evict c _ => c
  | .freeSlot c => c
  | .dropOthers c _ => c
  | .insertSession c => c
  | .routeName c => c
  | .claimSocket c => c
  | .rebuildSession c => c
  | .respond c => c
  | .registerSender c => c
  | .registerKill c => c
  | .serve c => c
  | .stopWriter c => c
  | .unregisterKill c => c
  | .shutdownSession c => c
  | .removeSession c => c
  | .unregisterSender c _ => c

/-- The socket token of the connection that the frame belongs to. -/
def token (f : ConnectionFrame) : Nat :=
  f.connection.socketToken

/-- The session a PIN connect registers. -/
def newSession (moduleName : String) (socketToken : Nat) : AuthSession where
  moduleName := moduleName
  authenticated := true
  shutdownAt := none
  socketToken := socketToken

/-- One turn of the read loop. -/
def serveStep (t : ConnectionTables) (c : Connection) :
    Received → Option (Outcome ConnectionTables ConnectionFrame)
  | .container instanceUuid7 tokenValid =>
      some (.thenRun t
        (if tokenValid && t.sessions.isAuthenticated instanceUuid7
          then [.serve c] else [.stopWriter c]))
  | .hangup => some (.thenRun t [.stopWriter c])
  | .killed =>
      if t.killed c.socketToken then some (.thenRun t [.stopWriter c])
      else none
  -- the reader learns of it later
  | .writerExits => some (.thenRun (t.close c.socketToken) [.serve c])

def step (t : ConnectionTables) (a : ConnectionAnswer) :
    ConnectionFrame → Option (Outcome ConnectionTables ConnectionFrame)
  | .incumbent c =>
      match (t.liveIncumbent c.moduleName).filter (· ≠ c.instanceUuid7) with
      | some inc => some (.thenRun t [.evict c inc])
      | none => some (.thenRun t [.dropOthers c false])
  | .evict c inc => some (.thenRun (t.throwKill inc) [.freeSlot c])
  | .freeSlot c =>
      some (.thenRun (t.freeSlot c.moduleName) [.dropOthers c false])
  | .dropOthers c reconnect =>
      some (.thenRun
        { t with
          sessions := t.sessions.removeOtherSessionsNamed c.moduleName
            c.instanceUuid7 }
        (if reconnect then [.claimSocket c] else [.insertSession c]))
  | .insertSession c =>
      some (.thenRun
        { t.noteTakeover c.instanceUuid7 c.socketToken with
          sessions := t.sessions.insert c.instanceUuid7
            (newSession c.moduleName c.socketToken) }
        [.respond c])
  | .routeName c =>
      some (.thenRun t
        [.dropOthers
          { c with
            routeName := ((t.sessions c.instanceUuid7).map
              (·.moduleName)).getD c.moduleName }
          true])
  | .claimSocket c =>
      some (.thenRun
        { t.noteTakeover c.instanceUuid7 c.socketToken with
          sessions := t.sessions.claimSocket c.instanceUuid7 c.socketToken }
        [.rebuildSession c])
  | .rebuildSession c =>
      some (.thenRun
        (match t.sessions c.instanceUuid7 with
          | some _ => t
          | none =>
              { t with
                sessions := t.sessions.insert c.instanceUuid7
                  (newSession c.moduleName c.socketToken) })
        [.respond c])
  | .respond c =>
      if a.sent then some (.thenRun t [.registerSender c])
      -- an early return runs no cleanup; it drops the queue
      else some (.thenRun (t.close c.socketToken) [])
  | .registerSender c =>
      some (.thenRun (if t.shadows c then t else t.fillSlot c)
        [.registerKill c])
  | .registerKill c =>
      some (.thenRun
        { t with
          killMap := Function.update t.killMap c.instanceUuid7
            (some c.socketToken) }
        [.serve c])
  | .serve c => serveStep t c a.received
  | .stopWriter c => some (.thenRun (t.close c.socketToken) [.unregisterKill c])
  | .unregisterKill c =>
      some (.thenRun
        { t with killMap := Function.update t.killMap c.instanceUuid7 none }
        [.shutdownSession c])
  | .shutdownSession c =>
      some (.thenRun
        { t with
          sessions := t.sessions.setShutdownIfSocket c.instanceUuid7 a.now
            c.socketToken }
        [.removeSession c])
  | .removeSession c =>
      let r := t.sessions.removeIfSocket c.instanceUuid7 c.socketToken
      some (.thenRun { t with sessions := r.1 } [.unregisterSender c r.2])
  | .unregisterSender c stillOwned =>
      some (.thenRun
        (if stillOwned && decide (t.slotOwner c.routeName = some c.instanceUuid7)
          then t.freeSlot c.routeName else t)
        [])

end ConnectionFrame

/-- The world's moves: a client is accepted by PIN or by token, the probe task
gives up on an instance, and the session sweep runs. -/
inductive ConnectionEvent where
  | pinConnect (moduleName instanceUuid7 : String)
  | tokenReconnect (moduleName instanceUuid7 : String)
  | unresponsive (instanceUuid7 : String)
  | sweepShutdownSessions (now maxAge : Nat)
deriving DecidableEq, Repr

namespace ConnectionEvent

/-- The connection of the next client. -/
def accept (t : ConnectionTables) (moduleName instanceUuid7 : String) :
    Connection :=
  { moduleName, instanceUuid7
    routeName := moduleName
    socketToken := t.nextSocketToken }

def effect (t : ConnectionTables) : ConnectionEvent → ConnectionTables
  | .pinConnect _ _ => { t with nextSocketToken := t.nextSocketToken + 1 }
  | .tokenReconnect _ _ => { t with nextSocketToken := t.nextSocketToken + 1 }
  | .unresponsive instanceUuid7 => t.throwKill instanceUuid7
  | .sweepShutdownSessions now maxAge =>
      { t with sessions := t.sessions.sweepShutdownSessions now maxAge }

def starts (t : ConnectionTables) : ConnectionEvent → List (List ConnectionFrame)
  | .pinConnect moduleName instanceUuid7 =>
      [[.incumbent (accept t moduleName instanceUuid7)]]
  | .tokenReconnect moduleName instanceUuid7 =>
      [[.routeName (accept t moduleName instanceUuid7)]]
  | _ => []

end ConnectionEvent

/-- The connections of one engine. -/
def connections :
    Program ConnectionTables ConnectionFrame ConnectionAnswer ConnectionEvent where
  step t f a := f.step t a
  catches _ := false
  event t ev := some (ev.effect t, ev.starts t)

abbrev ConnectionPool := Pool ConnectionTables ConnectionFrame
abbrev ConnectionLabel := Label ConnectionAnswer ConnectionEvent

end CockatielEngine
