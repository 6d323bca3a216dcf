import CockatielEngine.Blocks.BlockCache
import CockatielEngine.Concurrency.Correspondence
import CockatielEngine.Connections.AuthStore
import CockatielEngine.Connections.PinGate
import CockatielEngine.Queries.QueryRoutes
import CockatielEngine.Registry.ModuleRegistry

/-!
# Connections: who is let in

`handle_connection` from the first message of a client to the last payload that
is taken from it: the PIN or the token, the approval, the issue of the token and
the check that every later payload passes.  Connections interleave at every
access to what they share, and the engine may be restarted: the registry file
and the signing secret outlive a process, the sessions and the PIN gate do not.

The log is a ghost.  It has what the operator wrote and decided, and what the
engine then granted.

**Main results.**
* Every payload that is processed stands on a token for its instance and name,
  issued in the last thirty days, on a right PIN, to a name that was vouched for.
* Wrong PINs under a control-surface name that come with a token that does not
  verify are never counted.
-/

namespace CockatielEngine

open TaskPool

section Tokens

structure TokenClaims where
  sub : String
  name : String
  iat : Int
  exp : Int
deriving DecidableEq

/-- 30 days. -/
def tokenTtlSecs : Int := 30 * 24 * 60 * 60

def tokenClaims (now : Int) (instanceUuid7 moduleName : String) : TokenClaims where
  sub := instanceUuid7
  name := moduleName
  iat := now
  exp := now + tokenTtlSecs

/-- Signing and checking with the engine's secret.  What cannot be signed is the
empty text; a check may look at the clock. -/
structure TokenCodec where
  encode : TokenClaims → String
  decode : Int → String → Option TokenClaims

/-- What a message carries to say who sent it. -/
structure Presented where
  moduleInstanceUuid7 : String
  authToken : String
  moduleName : String
deriving DecidableEq

namespace TokenCodec

/-- What was signed is read back as it was. -/
def Sound (codec : TokenCodec) : Prop :=
  ∀ now claims claims',
    codec.decode now (codec.encode claims) = some claims' → claims' = claims

def verifyToken (codec : TokenCodec) (now : Int) (p : Presented) : Bool :=
  match codec.decode now p.authToken with
  | some claims =>
      claims.sub == p.moduleInstanceUuid7 && decide (now < claims.exp) &&
        claims.name == p.moduleName
  | none => false

theorem verifyToken_eq_true_iff
    {codec : TokenCodec} {now : Int} {p : Presented} :
    codec.verifyToken now p = true ↔
      ∃ claims, codec.decode now p.authToken = some claims ∧
        claims.sub = p.moduleInstanceUuid7 ∧ now < claims.exp ∧
        claims.name = p.moduleName := by
  unfold verifyToken
  cases codec.decode now p.authToken with
  | none => simp
  | some claims => simp [and_assoc]

end TokenCodec

def verifyPin (pin : Int32) (configPin : UInt32) : Bool :=
  pin.toUInt32 == configPin

end Tokens

/-- The first message of a client. -/
structure Hello extends Presented where
  pin : Int32
  requestedUuid7 : String
  position : String
  priority : Int

/-- The socket of a connection; the count starts again with every process. -/
structure SocketId where
  boot : Nat
  socketToken : Nat
deriving DecidableEq

/-- What a connection knows from its start. -/
structure Visit where
  socket : SocketId
  peerIp : IpAddr
  hello : Hello

namespace Visit

def name (v : Visit) : String := v.hello.moduleName

def identity (v : Visit) : PinIdentity := ⟨v.peerIp, v.name⟩

end Visit

inductive AdmissionEvent where
  /-- The registry file as the TUI, the operator or auto-configuration left it. -/
  | wrote (modules : List RegisteredModule)
  | rightPin (socket : SocketId) (name : String)
  | accepted (socket : SocketId) (name instanceUuid7 : String)
  /-- A control surface came while the registry had no entry of its name. -/
  | unlisted (socket : SocketId) (name instanceUuid7 : String)
  | issued (socket : SocketId) (claims : TokenClaims)
  | processed (socket : SocketId) (p : Presented) (now : Int)

structure AdmissionState where
  boot : Nat := 0
  nextSocketToken : Nat := 1
  sessions : AuthStore := fun _ => none
  pinGate : PinGate := .after []
  /-- `none` when the registry file cannot be read or parsed. -/
  file : Option (List RegisteredModule)
  memory : List RegisteredModule
  log : List AdmissionEvent

def AdmissionState.note (e : AdmissionState) (ev : AdmissionEvent) : AdmissionState :=
  { e with log := ev :: e.log }

/-- Where a connection stands. -/
inductive AdmissionStage where
  | hello
  | verify
  | removeOthers
  | claimSocket
  | rebuildSession
  | checkPin
  | verifyPin
  | recordFailure
  | recordSuccess
  | assignUuid
  | refreshRead (m : RegisteredModule)
  | refreshStore (m : RegisteredModule) (read : List RegisteredModule)
  | find (m : RegisteredModule)
  | isKnown (m : RegisteredModule)
  | prompt (m : RegisteredModule)
  | dropOthers (m : RegisteredModule)
  | issue (m : RegisteredModule)
  | insertSession (m : RegisteredModule)
  | register (m : RegisteredModule)
  | save (instanceUuid7 : String)
  | respond (instanceUuid7 : String)
  | serve (instanceUuid7 : String)
  | setShutdown (instanceUuid7 : String)
  | leave (instanceUuid7 : String)

structure AdmissionFrame where
  visit : Visit
  stage : AdmissionStage

/-- What the world returns to one step. -/
structure AdmissionAnswer where
  now : Int := 0
  fresh : String := ""
  readable : Bool := true
  /-- The answer to the prompt; a prompt that times out is refused. -/
  accepted : Bool := false
  written : Bool := true
  sent : Bool := true
  /-- The next message; `none` when the socket ends or sends no container. -/
  received : Option Presented := none

/-- A session as a connection opens it. -/
def openSession (moduleName : String) (socketToken : Nat) : AuthSession where
  moduleName := moduleName
  authenticated := true
  shutdownAt := none
  socketToken := socketToken

/-- The entry of a client that has passed the PIN. -/
def Visit.asksFor (v : Visit) (fresh : String) : RegisteredModule where
  name := v.name
  instanceUuid7 := if v.hello.requestedUuid7 = "" then fresh else v.hello.requestedUuid7
  position := v.hello.position
  priority := v.hello.priority

namespace AdmissionStage

/-- One step of a connection: what it leaves behind and where it goes on. -/
def run (codec : TokenCodec) (configPin : UInt32) (v : Visit) (a : AdmissionAnswer)
    (e : AdmissionState) : AdmissionStage → AdmissionState × Option AdmissionStage
  | .hello =>
      let staleControlSurface :=
        v.hello.authToken != "" && !codec.verifyToken a.now v.hello.toPresented &&
          isControlSurface v.name && CockatielEngine.verifyPin v.hello.pin configPin
      (e, some (if v.hello.authToken != "" && !staleControlSurface then .verify
        else .checkPin))
  | .verify =>
      (e, if codec.verifyToken a.now v.hello.toPresented then some .removeOthers
        else none)
  | .removeOthers =>
      ({ e with
          sessions := e.sessions.removeOtherSessionsNamed v.name
            v.hello.moduleInstanceUuid7 }, some .claimSocket)
  | .claimSocket =>
      ({ e with
          sessions := e.sessions.claimSocket v.hello.moduleInstanceUuid7
            v.socket.socketToken }, some .rebuildSession)
  | .rebuildSession =>
      ({ e with
          sessions :=
            if (e.sessions v.hello.moduleInstanceUuid7).isNone then
              e.sessions.insert v.hello.moduleInstanceUuid7
                (openSession v.name v.socket.socketToken)
            else e.sessions }, some (.respond v.hello.moduleInstanceUuid7))
  | .checkPin =>
      (e, if e.pinGate.check v.identity a.now then some .verifyPin else none)
  | .verifyPin =>
      if CockatielEngine.verifyPin v.hello.pin configPin then
        (e.note (.rightPin v.socket v.name), some .recordSuccess)
      else (e, some .recordFailure)
  | .recordFailure =>
      ({ e with pinGate := e.pinGate.recordFailure v.identity a.now }, none)
  | .recordSuccess =>
      ({ e with pinGate := e.pinGate.recordSuccess v.identity },
        if trimmed v.name = "" ∨ trimmed v.name = "unnamed_module" then none
        else some .assignUuid)
  | .assignUuid => (e, some (.refreshRead (v.asksFor a.fresh)))
  | .refreshRead m =>
      (e, some (((e.file.filter fun _ => a.readable).map (.refreshStore m)).getD
        (.find m)))
  | .refreshStore m read => ({ e with memory := read }, some (.find m))
  | .find m =>
      let entry := findModule e.memory m.name
      if isAlwaysTrusted m.name then
        if entry.any (·.instanceUuid7 = m.instanceUuid7) then (e, some (.dropOthers m))
        else if entry.isNone then
          (e.note (.unlisted v.socket m.name m.instanceUuid7), some (.dropOthers m))
        else (e, some (.prompt m))
      else (e, some (.isKnown m))
  | .isKnown m =>
      (e, some (if (findModule e.memory m.name).any (·.autoAuth) then .dropOthers m
        else .prompt m))
  | .prompt m =>
      if a.accepted then
        (e.note (.accepted v.socket m.name m.instanceUuid7), some (.dropOthers m))
      else (e, none)
  | .dropOthers m =>
      ({ e with
          sessions := e.sessions.removeOtherSessionsNamed m.name m.instanceUuid7 },
        some (.issue m))
  | .issue m =>
      let claims := tokenClaims a.now m.instanceUuid7 m.name
      (e.note (.issued v.socket claims),
        some (.insertSession { m with authToken := codec.encode claims }))
  | .insertSession m =>
      ({ e with
          sessions := e.sessions.insert m.instanceUuid7
            (openSession m.name v.socket.socketToken) }, some (.register m))
  | .register m =>
      ({ e with memory := putModule { m with autoAuth := true } e.memory },
        some (.save m.instanceUuid7))
  | .save u =>
      ({ e with file := if a.written then some e.memory else e.file },
        some (.respond u))
  | .respond u => (e, if a.sent then some (.serve u) else none)
  | .serve u =>
      (a.received.filter fun p => codec.verifyToken a.now p &&
        e.sessions.isAuthenticated p.moduleInstanceUuid7).elim
          (e, some (.setShutdown u))
          fun p => (e.note (.processed v.socket p a.now), some (.serve u))
  | .setShutdown u =>
      ({ e with
          sessions := e.sessions.setShutdownIfSocket u a.now.toNat
            v.socket.socketToken }, some (.leave u))
  | .leave u =>
      ({ e with sessions := (e.sessions.removeIfSocket u v.socket.socketToken).1 },
        none)

section Equations

variable {codec : TokenCodec} {configPin : UInt32} {v : Visit}
variable {a : AdmissionAnswer} {e : AdmissionState} {m : RegisteredModule} {u : String}

theorem run_verifyPin :
    verifyPin.run codec configPin v a e =
      if CockatielEngine.verifyPin v.hello.pin configPin then
        (e.note (.rightPin v.socket v.name), some .recordSuccess)
      else (e, some .recordFailure) := rfl

theorem run_recordFailure :
    recordFailure.run codec configPin v a e =
      ({ e with pinGate := e.pinGate.recordFailure v.identity a.now }, none) := rfl

theorem run_recordSuccess :
    recordSuccess.run codec configPin v a e =
      ({ e with pinGate := e.pinGate.recordSuccess v.identity },
        if trimmed v.name = "" ∨ trimmed v.name = "unnamed_module" then none
        else some .assignUuid) := rfl

theorem run_refreshRead :
    (refreshRead m).run codec configPin v a e =
      (e, some (((e.file.filter fun _ => a.readable).map (.refreshStore m)).getD
        (.find m))) := rfl

theorem run_find :
    (find m).run codec configPin v a e =
      if isAlwaysTrusted m.name then
        if (findModule e.memory m.name).any (·.instanceUuid7 = m.instanceUuid7) then
          (e, some (.dropOthers m))
        else if (findModule e.memory m.name).isNone then
          (e.note (.unlisted v.socket m.name m.instanceUuid7), some (.dropOthers m))
        else (e, some (.prompt m))
      else (e, some (.isKnown m)) := rfl

theorem run_isKnown :
    (isKnown m).run codec configPin v a e =
      (e, some (if (findModule e.memory m.name).any (·.autoAuth) then .dropOthers m
        else .prompt m)) := rfl

theorem run_prompt :
    (prompt m).run codec configPin v a e =
      if a.accepted then
        (e.note (.accepted v.socket m.name m.instanceUuid7), some (.dropOthers m))
      else (e, none) := rfl

/-- A payload passes with its own token and session, or ends the connection. -/
theorem serve_cases
    (codec : TokenCodec) (configPin : UInt32) (v : Visit) (a : AdmissionAnswer)
    (e : AdmissionState) (u : String) :
    (∃ p ∈ a.received, codec.verifyToken a.now p = true ∧
      (serve u).run codec configPin v a e =
        (e.note (.processed v.socket p a.now), some (.serve u))) ∨
    (serve u).run codec configPin v a e = (e, some (.setShutdown u)) := by
  have hrun : (serve u).run codec configPin v a e =
      (a.received.filter fun p => codec.verifyToken a.now p &&
        e.sessions.isAuthenticated p.moduleInstanceUuid7).elim
          (e, some (.setShutdown u))
          fun p => (e.note (.processed v.socket p a.now), some (.serve u)) := rfl
  cases hpass : a.received.filter fun p => codec.verifyToken a.now p &&
      e.sessions.isAuthenticated p.moduleInstanceUuid7 with
  | none =>
      right
      rw [hrun, hpass]
      rfl
  | some p =>
      obtain ⟨hp, hverified⟩ := Option.filter_eq_some_iff.mp hpass
      refine .inl ⟨p, hp, ((Bool.and_eq_true _ _).mp hverified).1, ?_⟩
      rw [hrun, hpass]
      rfl

end Equations

end AdmissionStage

/-- What the world does. -/
inductive AdmissionInput where
  | connect (peerIp : IpAddr) (hello : Hello)
  | rewrite (file : Option (List RegisteredModule))
  | sweep (now maxAge : Nat)
  | restart

namespace AdmissionState

/-- The registry file is rewritten by somebody else, or lost. -/
def rewrite (e : AdmissionState) (file : Option (List RegisteredModule)) :
    AdmissionState :=
  { e with file := file }.note (.wrote (file.getD []))

/-- A new process starts from the registry file. -/
def restart (e : AdmissionState) : AdmissionState :=
  { boot := e.boot + 1, file := e.file, memory := e.file.getD [], log := e.log }

end AdmissionState

/-- The connections as a program; those of an earlier process are gone. -/
def admission (codec : TokenCodec) (configPin : UInt32) :
    Program AdmissionState AdmissionFrame AdmissionAnswer AdmissionInput where
  step e f a :=
    if f.visit.socket.boot = e.boot then
      let r := f.stage.run codec configPin f.visit a e
      some (.thenRun r.1 (r.2.toList.map fun stage => ⟨f.visit, stage⟩))
    else some (.thenRun e [])
  catches _ := false
  event e
    | .connect peerIp hello =>
        some ({ e with nextSocketToken := e.nextSocketToken + 1 },
          [[⟨⟨⟨e.boot, e.nextSocketToken⟩, peerIp, hello⟩, .hello⟩]])
    | .rewrite file => some (e.rewrite file, [])
    | .sweep now maxAge =>
        some ({ e with sessions := e.sessions.sweepShutdownSessions now maxAge }, [])
    | .restart => some (e.restart, [])

abbrev AdmissionPool := Pool AdmissionState AdmissionFrame
abbrev AdmissionLabel := Label AdmissionAnswer AdmissionInput

/-- The first process, with the registry file that it finds. -/
def admissionStart (file : Option (List RegisteredModule)) : AdmissionPool where
  shared := { file := file, memory := file.getD [], log := [.wrote (file.getD [])] }
  threads := []

section Grounds

/-- The entry lets the instance in without a prompt. -/
def RegisteredModule.vouchesFor (m : RegisteredModule) (name instanceUuid7 : String) :
    Prop :=
  if isAlwaysTrusted name then m.instanceUuid7 = instanceUuid7 else m.autoAuth = true

/-- Why a name may be let in: an entry that the operator's side wrote, a prompt
that was accepted, or, for a control surface, a registry without its name.  A
control-surface name is vouched for with its instance. -/
inductive Vouched (log : List AdmissionEvent) (name instanceUuid7 : String) : Prop
  | listed {modules : List RegisteredModule} {m : RegisteredModule} :
      .wrote modules ∈ log →
      findModule modules name = some m →
      m.vouchesFor name instanceUuid7 →
      Vouched log name instanceUuid7
  | accepted {socket : SocketId} {u : String} :
      .accepted socket name u ∈ log →
      (isAlwaysTrusted name = true → u = instanceUuid7) →
      Vouched log name instanceUuid7
  | first {socket : SocketId} :
      isAlwaysTrusted name = true →
      .unlisted socket name instanceUuid7 ∈ log →
      Vouched log name instanceUuid7

/-- What an event must follow from. -/
def Justified (past : List AdmissionEvent) : AdmissionEvent → Prop
  | .issued socket claims =>
      .rightPin socket claims.name ∈ past ∧ Vouched past claims.name claims.sub ∧
        claims.exp = claims.iat + tokenTtlSecs
  | .processed _ p now =>
      ∃ socket claims, .issued socket claims ∈ past ∧
        claims.sub = p.moduleInstanceUuid7 ∧ claims.name = p.moduleName ∧
        now < claims.exp
  | _ => True

/-- Every entry that would let somebody in is accounted for. -/
def AccountedFor (log : List AdmissionEvent) (modules : List RegisteredModule) : Prop :=
  ∀ name u, ∀ m ∈ findModule modules name, m.vouchesFor name u → Vouched log name u

structure SoundAdmission (e : AdmissionState) : Prop where
  founded : Founded Justified e.log
  memory : AccountedFor e.log e.memory
  file : ∀ read ∈ e.file, AccountedFor e.log read

/-- What has been established when a connection stands there. -/
def AdmissionStage.Asserts (log : List AdmissionEvent) (v : Visit) :
    AdmissionStage → Prop
  | .recordSuccess | .assignUuid => .rightPin v.socket v.name ∈ log
  | .refreshRead m | .find m | .prompt m => .rightPin v.socket m.name ∈ log
  | .isKnown m => .rightPin v.socket m.name ∈ log ∧ isAlwaysTrusted m.name = false
  | .refreshStore m read => .rightPin v.socket m.name ∈ log ∧ AccountedFor log read
  | .dropOthers m | .issue m =>
      .rightPin v.socket m.name ∈ log ∧ Vouched log m.name m.instanceUuid7
  | .insertSession m | .register m => Vouched log m.name m.instanceUuid7
  | _ => True

/-- Nobody has a token that verifies but those that the engine has issued. -/
def Unforged (codec : TokenCodec) (s : AdmissionPool) : AdmissionLabel → Prop
  | .run _ a => ∀ p ∈ a.received, ∀ now,
      (codec.decode now p.authToken).isSome →
      ∃ socket claims, .issued socket claims ∈ s.shared.log ∧
        codec.encode claims = p.authToken
  | .world _ => True

end Grounds

section Steps

variable {log log' : List AdmissionEvent} {name u : String}
variable {modules : List RegisteredModule} {m : RegisteredModule}
variable {codec : TokenCodec} {configPin : UInt32} {v : Visit}
variable {a : AdmissionAnswer} {e : AdmissionState} {stage : AdmissionStage}

theorem Vouched.mono
    (h : Vouched log name u)
    (hsub : log ⊆ log') :
    Vouched log' name u := by
  cases h with
  | listed hwrote hfind hvouches => exact .listed (hsub hwrote) hfind hvouches
  | accepted haccepted htrusted => exact .accepted (hsub haccepted) htrusted
  | first htrusted hunlisted => exact .first htrusted (hsub hunlisted)

theorem AccountedFor.mono
    (h : AccountedFor log modules)
    (hsub : log ⊆ log') :
    AccountedFor log' modules :=
  fun name u m hm hvouches => (h name u m hm hvouches).mono hsub

/-- What the operator's side wrote accounts for itself. -/
theorem accountedFor_wrote (h : .wrote modules ∈ log) : AccountedFor log modules :=
  fun _ _ _ hm hvouches => .listed h hm hvouches

/-- The entry of an instance that was vouched for adds nothing. -/
theorem AccountedFor.putModule
    (h : AccountedFor log modules)
    (hm : Vouched log m.name m.instanceUuid7) :
    AccountedFor log (putModule m modules) := by
  intro name u entry hentry hvouches
  rw [findModule_putModule] at hentry
  by_cases hname : name = m.name
  · subst hname
    rw [if_pos rfl] at hentry
    obtain rfl := Option.some.inj hentry
    cases htrusted : isAlwaysTrusted m.name with
    | true =>
        obtain rfl : m.instanceUuid7 = u := by
          simpa [RegisteredModule.vouchesFor, htrusted] using hvouches
        exact hm
    | false =>
        -- a name that is not a control surface is vouched for whatever its instance
        cases hm with
        | listed hwrote hfind hlisted =>
            exact .listed hwrote hfind (by
              simpa [RegisteredModule.vouchesFor, htrusted] using hlisted)
        | accepted haccepted _ =>
            exact .accepted haccepted fun htrue => by simp [htrusted] at htrue
        | first htrue _ => simp [htrusted] at htrue
  · rw [if_neg hname] at hentry
    exact h name u entry hentry hvouches

theorem AdmissionStage.Asserts.mono
    (h : stage.Asserts log v)
    (hsub : log ⊆ log') :
    stage.Asserts log' v := by
  cases stage with
  | recordSuccess => exact hsub h
  | assignUuid => exact hsub h
  | refreshRead m => exact hsub h
  | find m => exact hsub h
  | isKnown m => exact ⟨hsub h.1, h.2⟩
  | prompt m => exact hsub h
  | refreshStore m read => exact ⟨hsub h.1, h.2.mono hsub⟩
  | dropOthers m => exact ⟨hsub h.1, h.2.mono hsub⟩
  | issue m => exact ⟨hsub h.1, h.2.mono hsub⟩
  | insertSession m => exact Vouched.mono h hsub
  | register m => exact Vouched.mono h hsub
  | _ => trivial

theorem SoundAdmission.note
    {ev : AdmissionEvent}
    (he : SoundAdmission e)
    (hev : Justified e.log ev) :
    SoundAdmission (e.note ev) where
  founded := ⟨hev, he.founded⟩
  memory := he.memory.mono (List.subset_cons_self ..)
  file := fun read hread => (he.file read hread).mono (List.subset_cons_self ..)

/-- A step keeps the state sound and establishes what the next stage needs. -/
structure Establishes (v : Visit) (r : AdmissionState × Option AdmissionStage) :
    Prop where
  sound : SoundAdmission r.1
  next : ∀ stage ∈ r.2, stage.Asserts r.1.log v

theorem SoundAdmission.establishes
    {next : Option AdmissionStage}
    (he : SoundAdmission e)
    (hnext : ∀ stage ∈ next, stage.Asserts e.log v) :
    Establishes v (e, next) :=
  ⟨he, hnext⟩

end Steps

section Runs

variable {codec : TokenCodec} {configPin : UInt32} {v : Visit}
variable {a : AdmissionAnswer} {e : AdmissionState}
variable {m : RegisteredModule} {u : String}

namespace AdmissionStage

/-- A step only ever adds to the log. -/
theorem log_run (stage : AdmissionStage) :
    e.log <:+ (stage.run codec configPin v a e).1.log := by
  cases stage with
  | verifyPin =>
      rw [run_verifyPin]
      split
      · exact List.suffix_cons ..
      · exact List.suffix_rfl
  | find m =>
      rw [run_find]
      split_ifs
      · exact List.suffix_rfl
      · exact List.suffix_cons ..
      · exact List.suffix_rfl
      · exact List.suffix_rfl
  | prompt m =>
      rw [run_prompt]
      split
      · exact List.suffix_cons ..
      · exact List.suffix_rfl
  | issue m => exact List.suffix_cons ..
  | serve u =>
      rcases serve_cases codec configPin v a e u with ⟨p, -, -, hrun⟩ | hrun
      · rw [hrun]
        exact List.suffix_cons ..
      · rw [hrun]
  | _ => exact List.suffix_rfl

theorem verifyPin_establishes
    (he : SoundAdmission e) :
    Establishes v (verifyPin.run codec configPin v a e) := by
  rw [run_verifyPin]
  split
  · have hnoted : SoundAdmission (e.note (.rightPin v.socket v.name)) := he.note trivial
    exact hnoted.establishes (by
      rintro _ ⟨⟩
      exact List.mem_cons_self)
  · exact he.establishes (by
      rintro _ ⟨⟩
      trivial)

theorem refreshRead_establishes
    (he : SoundAdmission e)
    (hpin : .rightPin v.socket m.name ∈ e.log) :
    Establishes v ((refreshRead m).run codec configPin v a e) := by
  rw [run_refreshRead]
  refine he.establishes ?_
  rintro _ ⟨⟩
  cases hread : e.file.filter fun _ => a.readable with
  | none => exact hpin
  | some read => exact ⟨hpin, he.file read (Option.filter_eq_some_iff.mp hread).1⟩

/-- A control surface goes on only with its pinned instance, or while the
registry has no entry of its name. -/
theorem find_establishes
    (he : SoundAdmission e)
    (hpin : .rightPin v.socket m.name ∈ e.log) :
    Establishes v ((find m).run codec configPin v a e) := by
  rw [run_find]
  split
  · rename_i htrusted
    split
    · rename_i hpinned
      obtain ⟨entry, hentry, hinstance⟩ := (Option.any_eq_true _ _).mp hpinned
      refine he.establishes ?_
      rintro _ ⟨⟩
      refine ⟨hpin, he.memory _ _ entry hentry ?_⟩
      simpa [RegisteredModule.vouchesFor, htrusted] using hinstance
    · split
      · have hnoted :
            SoundAdmission (e.note (.unlisted v.socket m.name m.instanceUuid7)) :=
          he.note trivial
        exact hnoted.establishes (by
          rintro _ ⟨⟩
          exact ⟨List.mem_cons_of_mem _ hpin, .first htrusted List.mem_cons_self⟩)
      · exact he.establishes (by
          rintro _ ⟨⟩
          exact hpin)
  · rename_i htrusted
    exact he.establishes (by
      rintro _ ⟨⟩
      exact ⟨hpin, Bool.eq_false_of_not_eq_true htrusted⟩)

theorem isKnown_establishes
    (he : SoundAdmission e)
    (hpin : .rightPin v.socket m.name ∈ e.log)
    (htrusted : isAlwaysTrusted m.name = false) :
    Establishes v ((isKnown m).run codec configPin v a e) := by
  rw [run_isKnown]
  refine he.establishes ?_
  split
  · rename_i hknown
    obtain ⟨entry, hentry, hauto⟩ := (Option.any_eq_true _ _).mp hknown
    rintro _ ⟨⟩
    refine ⟨hpin, he.memory _ _ entry hentry ?_⟩
    simpa [RegisteredModule.vouchesFor, htrusted] using hauto
  · rintro _ ⟨⟩
    exact hpin

theorem prompt_establishes
    (he : SoundAdmission e)
    (hpin : .rightPin v.socket m.name ∈ e.log) :
    Establishes v ((prompt m).run codec configPin v a e) := by
  rw [run_prompt]
  split
  · have hnoted :
        SoundAdmission (e.note (.accepted v.socket m.name m.instanceUuid7)) :=
      he.note trivial
    exact hnoted.establishes (by
      rintro _ ⟨⟩
      exact ⟨List.mem_cons_of_mem _ hpin, .accepted List.mem_cons_self fun _ => rfl⟩)
  · exact he.establishes (by rintro _ ⟨⟩)

theorem issue_establishes
    (he : SoundAdmission e)
    (hpin : .rightPin v.socket m.name ∈ e.log)
    (hvouched : Vouched e.log m.name m.instanceUuid7) :
    Establishes v ((issue m).run codec configPin v a e) := by
  have hissued : Justified e.log
      (.issued v.socket (tokenClaims a.now m.instanceUuid7 m.name)) :=
    ⟨hpin, hvouched, rfl⟩
  exact (he.note hissued).establishes (by
    rintro _ ⟨⟩
    exact hvouched.mono (List.subset_cons_self ..))

theorem register_establishes
    (he : SoundAdmission e)
    (hvouched : Vouched e.log m.name m.instanceUuid7) :
    Establishes v ((register m).run codec configPin v a e) where
  sound :=
    { founded := he.founded
      memory := he.memory.putModule (m := { m with autoAuth := true }) hvouched
      file := he.file }
  next := by
    rintro _ ⟨⟩
    trivial

theorem save_establishes
    (he : SoundAdmission e) :
    Establishes v ((save u).run codec configPin v a e) := by
  have hfile : ∀ read ∈ (if a.written then some e.memory else e.file),
      AccountedFor e.log read := by
    split
    · rintro _ ⟨⟩
      exact he.memory
    · exact he.file
  exact ⟨⟨he.founded, he.memory, hfile⟩, by rintro _ ⟨⟩; trivial⟩

/-- A payload is processed on a token that was issued for what it claims. -/
theorem serve_establishes
    (hcodec : codec.Sound)
    (he : SoundAdmission e)
    (hunforged : ∀ p ∈ a.received, ∀ now,
      (codec.decode now p.authToken).isSome →
      ∃ socket claims, .issued socket claims ∈ e.log ∧
        codec.encode claims = p.authToken) :
    Establishes v ((serve u).run codec configPin v a e) := by
  rcases serve_cases codec configPin v a e u with ⟨p, hp, hverified, hrun⟩ | hrun
  · obtain ⟨claims, hdecode, hsub, hexp, hname⟩ :=
      TokenCodec.verifyToken_eq_true_iff.mp hverified
    obtain ⟨socket, claims', hissued, hencode⟩ :=
      hunforged p hp a.now (by simp [hdecode])
    obtain rfl : claims = claims' := hcodec a.now claims' claims (hencode ▸ hdecode)
    have hprocessed : Justified e.log (.processed v.socket p a.now) :=
      ⟨socket, claims, hissued, hsub, hname, hexp⟩
    rw [hrun]
    exact (he.note hprocessed).establishes (by
      rintro _ ⟨⟩
      trivial)
  · rw [hrun]
    exact he.establishes (by
      rintro _ ⟨⟩
      trivial)

theorem run_establishes
    {stage : AdmissionStage}
    (hcodec : codec.Sound)
    (he : SoundAdmission e)
    (h : stage.Asserts e.log v)
    (hunforged : ∀ p ∈ a.received, ∀ now,
      (codec.decode now p.authToken).isSome →
      ∃ socket claims, .issued socket claims ∈ e.log ∧
        codec.encode claims = p.authToken) :
    Establishes v (stage.run codec configPin v a e) := by
  cases stage with
  | hello =>
      refine he.establishes ?_
      rintro _ ⟨⟩
      split <;> trivial
  | verify =>
      refine he.establishes ?_
      split
      · rintro _ ⟨⟩
        trivial
      · rintro _ ⟨⟩
  | removeOthers => exact ⟨⟨he.founded, he.memory, he.file⟩, by rintro _ ⟨⟩; trivial⟩
  | claimSocket => exact ⟨⟨he.founded, he.memory, he.file⟩, by rintro _ ⟨⟩; trivial⟩
  | rebuildSession => exact ⟨⟨he.founded, he.memory, he.file⟩, by rintro _ ⟨⟩; trivial⟩
  | checkPin =>
      refine he.establishes ?_
      split
      · rintro _ ⟨⟩
        trivial
      · rintro _ ⟨⟩
  | verifyPin => exact verifyPin_establishes he
  | recordFailure => exact ⟨⟨he.founded, he.memory, he.file⟩, by rintro _ ⟨⟩⟩
  | recordSuccess =>
      refine ⟨⟨he.founded, he.memory, he.file⟩, ?_⟩
      rw [run_recordSuccess]
      split
      · rintro _ ⟨⟩
      · rintro _ ⟨⟩
        exact h
  | assignUuid => exact he.establishes (by rintro _ ⟨⟩; exact h)
  | refreshRead m => exact refreshRead_establishes he h
  | refreshStore m read =>
      exact ⟨⟨he.founded, h.2, he.file⟩, by rintro _ ⟨⟩; exact h.1⟩
  | find m => exact find_establishes he h
  | isKnown m => exact isKnown_establishes he h.1 h.2
  | prompt m => exact prompt_establishes he h
  | dropOthers m => exact ⟨⟨he.founded, he.memory, he.file⟩, by rintro _ ⟨⟩; exact h⟩
  | issue m => exact issue_establishes he h.1 h.2
  | insertSession m => exact ⟨⟨he.founded, he.memory, he.file⟩, by rintro _ ⟨⟩; exact h⟩
  | register m => exact register_establishes he h
  | save u => exact save_establishes he
  | respond u =>
      refine he.establishes ?_
      split
      · rintro _ ⟨⟩
        trivial
      · rintro _ ⟨⟩
  | serve u => exact serve_establishes hcodec he hunforged
  | setShutdown u => exact ⟨⟨he.founded, he.memory, he.file⟩, by rintro _ ⟨⟩; trivial⟩
  | leave u => exact ⟨⟨he.founded, he.memory, he.file⟩, by rintro _ ⟨⟩⟩

end AdmissionStage

/-- Nothing the world does lets anybody in. -/
theorem admission_event_sound
    {ev : AdmissionInput} {r : AdmissionState × List (List AdmissionFrame)}
    (he : SoundAdmission e)
    (hr : (admission codec configPin).event e ev = some r) :
    SoundAdmission r.1 ∧ e.log <:+ r.1.log ∧
      ∀ f ∈ r.2.flatten, f.stage.Asserts r.1.log f.visit := by
  cases ev with
  | connect peerIp hello =>
      obtain rfl := Option.some.inj hr
      refine ⟨⟨he.founded, he.memory, he.file⟩, List.suffix_rfl, ?_⟩
      intro f hf
      obtain rfl := List.mem_singleton.mp hf
      trivial
  | rewrite file =>
      obtain rfl := Option.some.inj hr
      refine ⟨⟨⟨trivial, he.founded⟩, he.memory.mono (List.subset_cons_self ..), ?_⟩,
        List.suffix_cons .., by simp⟩
      rintro read (rfl : file = some read)
      exact accountedFor_wrote List.mem_cons_self
  | sweep now maxAge =>
      obtain rfl := Option.some.inj hr
      exact ⟨⟨he.founded, he.memory, he.file⟩, List.suffix_rfl, by simp⟩
  | restart =>
      obtain rfl := Option.some.inj hr
      refine ⟨⟨he.founded, ?_, he.file⟩, List.suffix_rfl, by simp⟩
      cases hfile : e.file with
      | none =>
          intro name u m hm
          simp [AdmissionState.restart, hfile, findModule] at hm
      | some read => simpa [AdmissionState.restart, hfile] using he.file read hfile

theorem admission_outline
    (hcodec : codec.Sound) :
    ProofOutline (admission codec configPin) (Unforged codec) SoundAdmission
      (fun e f => f.stage.Asserts e.log f.visit) where
  run := by
    intro s i a f rest o hs hok hi ho
    have hf := hs.2 f (mem_frames_of_getElem? hi List.mem_cons_self)
    simp only [admission] at ho
    split at ho
    · obtain rfl := Option.some.inj ho
      have hrun : Establishes f.visit (f.stage.run codec configPin f.visit a s.shared) :=
        AdmissionStage.run_establishes hcodec hs.1 hf hok
      refine ⟨hrun.sound, ?_, fun g _ hg => hg.mono (f.stage.log_run).subset⟩
      intro g hg
      rw [Outcome.new_thenRun] at hg
      obtain ⟨stage, hstage, rfl⟩ := List.mem_map.mp hg
      exact hrun.next stage (Option.mem_toList.mp hstage)
    · obtain rfl := Option.some.inj ho
      exact ⟨hs.1, by simp, fun _ _ hg => hg⟩
  world := by
    intro s ev r hs _ hr
    obtain ⟨hsound, hlog, hnew⟩ := admission_event_sound hs.1 hr
    exact ⟨hsound, hnew, fun g _ hg => hg.mono hlog.subset⟩

theorem annotated_admissionStart (file : Option (List RegisteredModule)) :
    Annotated SoundAdmission (fun e f => f.stage.Asserts e.log f.visit)
      (admissionStart file) := by
  have hwrote : AdmissionEvent.wrote (file.getD []) ∈ (admissionStart file).shared.log :=
    List.mem_singleton_self _
  refine ⟨⟨⟨trivial, trivial⟩, accountedFor_wrote hwrote, ?_⟩, by
    simp [Pool.frames, admissionStart]⟩
  intro read hread
  have hfile : file.getD [] = read := by
    rw [show file = some read from hread]
    rfl
  exact hfile ▸ accountedFor_wrote hwrote

/-- A payload is processed only on a token that was issued for its instance and
name in the last thirty days, to a connection that had given the right PIN for
the name, which had been vouched for. -/
theorem processed_of_admitted
    {file : Option (List RegisteredModule)} {s : AdmissionPool}
    {past : List AdmissionEvent} {socket : SocketId} {p : Presented} {now : Int}
    (hcodec : codec.Sound)
    (hs : Reachable (admission codec configPin) (Unforged codec)
      (admissionStart file) s)
    (hprocessed : .processed socket p now :: past <:+ s.shared.log) :
    ∃ admitted claims before,
      .issued admitted claims :: before <:+ past ∧
      claims.sub = p.moduleInstanceUuid7 ∧ claims.name = p.moduleName ∧
      now < claims.iat + tokenTtlSecs ∧
      .rightPin admitted p.moduleName ∈ before ∧
      Vouched before p.moduleName p.moduleInstanceUuid7 := by
  have hsound : SoundAdmission s.shared :=
    ((admission_outline hcodec).annotated (annotated_admissionStart file) hs).1
  obtain ⟨⟨admitted, claims, hissued, hsub, hname, hexp⟩, hpast⟩ :=
    hsound.founded.justified hprocessed
  obtain ⟨before, hbefore, ⟨hpin, hvouched, httl⟩, -⟩ := hpast.of_mem hissued
  rw [hname] at hpin
  rw [hname, hsub] at hvouched
  exact ⟨admitted, claims, before, hbefore, hsub, hname, httl ▸ hexp, hpin, hvouched⟩

/-- A run of one connection to which nothing is sent. -/
theorem reachable_of_silent
    {s₀ s s' : AdmissionPool}
    (answers : List AdmissionAnswer)
    (hs : Reachable (admission codec configPin) (Unforged codec) s₀ s)
    (hsilent : ∀ a ∈ answers, a.received = none)
    (hrun : (admission codec configPin).exec s (answers.map (.run 0)) = some s') :
    Reachable (admission codec configPin) (Unforged codec) s₀ s' := by
  induction answers generalizing s with
  | nil =>
      obtain rfl := Option.some.inj hrun
      exact hs
  | cons a answers ih =>
      obtain ⟨s₁, hfire, hrest⟩ := Option.bind_eq_some_iff.mp hrun
      have hok : Unforged codec s (.run 0 a) := by
        intro p hp
        rw [hsilent a List.mem_cons_self] at hp
        cases hp
      exact ih (.step hs hok hfire)
        (fun b hb => hsilent b (List.mem_cons_of_mem _ hb)) hrest

end Runs

section Bootstrap

def bootstrapClaims : TokenClaims := tokenClaims 0 "u1" "cockatiel-tui"

/-- It signs these claims only, and checks the expiry with a minute's leeway. -/
def bootstrapCodec : TokenCodec where
  encode claims := if claims = bootstrapClaims then "signed" else ""
  decode now token :=
    if token = "signed" ∧ now ≤ bootstrapClaims.exp + 60 then some bootstrapClaims
    else none

theorem bootstrapCodec_sound : bootstrapCodec.Sound := by
  intro now claims claims' h
  by_cases hclaims : claims = bootstrapClaims
  · simp only [bootstrapCodec, if_pos hclaims] at h
    split at h
    · rw [hclaims]
      exact (Option.some.inj h).symm
    · cases h
  · simp [bootstrapCodec, hclaims] at h

/-- The first contact of the control surface. -/
def bootstrapHello : Hello where
  moduleInstanceUuid7 := ""
  authToken := ""
  moduleName := "cockatiel-tui"
  pin := 1234
  requestedUuid7 := "u1"
  position := ""
  priority := 0

def bootstrapPayload : Presented := ⟨"u1", "signed", "cockatiel-tui"⟩

theorem processed_of_admitted_bootstrap :
    ∃ (s : AdmissionPool) (past : List AdmissionEvent),
      .processed ⟨0, 1⟩ bootstrapPayload 0 :: past <:+ s.shared.log ∧
      ∃ admitted claims before,
        .issued admitted claims :: before <:+ past ∧
        claims.sub = "u1" ∧ claims.name = "cockatiel-tui" ∧
        0 < claims.iat + tokenTtlSecs ∧
        .rightPin admitted "cockatiel-tui" ∈ before ∧
        Vouched before "cockatiel-tui" "u1" := by
  obtain ⟨s₁, hconnect, s₂, hquiet, hissued, s₃, hserve, past, hlog⟩ :
      ∃ s₁, (admission bootstrapCodec 1234).fire (admissionStart (some []))
          (.world (.connect (.v4 0) bootstrapHello)) = some s₁ ∧
        ∃ s₂, (admission bootstrapCodec 1234).exec s₁
            ((List.replicate 14 {}).map (.run 0)) = some s₂ ∧
          .issued ⟨0, 1⟩ bootstrapClaims ∈ s₂.shared.log ∧
          ∃ s₃, (admission bootstrapCodec 1234).fire s₂
              (.run 0 { received := some bootstrapPayload }) = some s₃ ∧
            ∃ past, s₃.shared.log = .processed ⟨0, 1⟩ bootstrapPayload 0 :: past :=
    ⟨_, rfl, _, rfl, List.mem_of_getElem? (i := 0) rfl, _, rfl, _, rfl⟩
  have hadmitted : Reachable (admission bootstrapCodec 1234) (Unforged bootstrapCodec)
      (admissionStart (some [])) s₂ :=
    reachable_of_silent _ (.step .start (by exact trivial) hconnect)
      (fun a ha => by rw [List.eq_of_mem_replicate ha]) hquiet
  have hunforged : Unforged bootstrapCodec s₂
      (.run 0 { received := some bootstrapPayload }) := by
    rintro p ⟨⟩ now -
    exact ⟨⟨0, 1⟩, bootstrapClaims, hissued, rfl⟩
  have hprocessed : .processed ⟨0, 1⟩ bootstrapPayload 0 :: past <:+ s₃.shared.log :=
    hlog ▸ List.suffix_rfl
  exact ⟨s₃, past, hprocessed, processed_of_admitted bootstrapCodec_sound
    (.step hadmitted hunforged hserve) hprocessed⟩

end Bootstrap

section Guesses

variable {codec : TokenCodec} {configPin : UInt32} {v : Visit} {i : PinIdentity}
variable {a : AdmissionAnswer} {e : AdmissionState} {stage next : AdmissionStage}

/-- The message comes with a token, and no check would accept it. -/
def Hello.Stale (codec : TokenCodec) (hello : Hello) : Prop :=
  hello.authToken ≠ "" ∧ ∀ now, codec.decode now hello.authToken = none

/-- Whoever comes as the identity brings a token that does not verify. -/
def GuessesStale (codec : TokenCodec) (i : PinIdentity) (_ : AdmissionPool) :
    AdmissionLabel → Prop
  | .world (.connect peerIp hello) =>
      (⟨peerIp, hello.moduleName⟩ : PinIdentity) = i → hello.Stale codec
  | _ => True

/-- The PIN check is only reached with the right PIN. -/
def AdmissionStage.Uncounted (configPin : UInt32) (v : Visit) : AdmissionStage → Prop
  | .checkPin | .verifyPin => CockatielEngine.verifyPin v.hello.pin configPin = true
  | .recordFailure => False
  | _ => True

/-- A frame of the identity is not about to count anything. -/
def SparesIdentity (codec : TokenCodec) (configPin : UInt32) (i : PinIdentity)
    (f : AdmissionFrame) : Prop :=
  f.visit.identity = i →
    f.visit.hello.Stale codec ∧ f.stage.Uncounted configPin f.visit

theorem Hello.Stale.verifyToken
    {hello : Hello} {now : Int}
    (h : hello.Stale codec) :
    codec.verifyToken now hello.toPresented = false := by
  unfold TokenCodec.verifyToken
  rw [h.2 now]

theorem Hello.Stale.bne
    {hello : Hello}
    (h : hello.Stale codec) :
    (hello.authToken != "") = true := by
  simpa using h.1

namespace AdmissionStage

/-- With a stale token it is the PIN that decides whether the PIN check is
reached. -/
theorem run_hello_of_stale
    (hstale : v.hello.Stale codec) :
    hello.run codec configPin v a e =
      (e, some (if isControlSurface v.name &&
          CockatielEngine.verifyPin v.hello.pin configPin then .checkPin
        else .verify)) := by
  have hrun : hello.run codec configPin v a e =
      (e, some (if v.hello.authToken != "" && !(v.hello.authToken != "" &&
          !codec.verifyToken a.now v.hello.toPresented && isControlSurface v.name &&
          CockatielEngine.verifyPin v.hello.pin configPin) then .verify
        else .checkPin)) := rfl
  rw [hrun, hstale.verifyToken, hstale.bne]
  cases isControlSurface v.name <;>
    cases CockatielEngine.verifyPin v.hello.pin configPin <;> rfl

theorem uncounted_next
    (hstale : v.hello.Stale codec)
    (h : stage.Uncounted configPin v) :
    ∀ next ∈ (stage.run codec configPin v a e).2, next.Uncounted configPin v := by
  cases stage with
  | hello =>
      rw [run_hello_of_stale hstale]
      rintro _ ⟨⟩
      split
      · rename_i hpass
        exact ((Bool.and_eq_true _ _).mp hpass).2
      · trivial
  | checkPin =>
      intro next hnext
      obtain rfl := Option.some.inj (Option.ite_none_right_eq_some.mp hnext).2
      exact h
  | verifyPin =>
      have hpin : CockatielEngine.verifyPin v.hello.pin configPin = true := h
      rw [run_verifyPin, if_pos hpin]
      rintro _ ⟨⟩
      trivial
  | recordFailure => exact h.elim
  | verify =>
      intro next hnext
      obtain rfl := Option.some.inj (Option.ite_none_right_eq_some.mp hnext).2
      trivial
  | recordSuccess =>
      intro next hnext
      obtain rfl := Option.some.inj (Option.ite_none_left_eq_some.mp hnext).2
      trivial
  | refreshRead m =>
      rw [run_refreshRead]
      rintro _ ⟨⟩
      cases e.file.filter fun _ => a.readable <;> trivial
  | find m =>
      rw [run_find]
      split_ifs <;> rintro _ ⟨⟩ <;> trivial
  | isKnown m =>
      rw [run_isKnown]
      rintro _ ⟨⟩
      split <;> trivial
  | prompt m =>
      rw [run_prompt]
      split
      · rintro _ ⟨⟩
        trivial
      · rintro _ ⟨⟩
  | respond u =>
      intro next hnext
      obtain rfl := Option.some.inj (Option.ite_none_right_eq_some.mp hnext).2
      trivial
  | serve u =>
      rcases serve_cases codec configPin v a e u with ⟨p, -, -, hrun⟩ | hrun
      · rw [hrun]
        rintro _ ⟨⟩
        trivial
      · rw [hrun]
        rintro _ ⟨⟩
        trivial
  | leave u => rintro _ ⟨⟩
  | _ =>
      rintro _ ⟨⟩
      trivial

/-- The gate keeps no record of an identity that nobody counts against. -/
theorem attempt?_run
    (hnone : e.pinGate.attempt? i = none)
    (hstage : v.identity = i → stage ≠ .recordFailure) :
    (stage.run codec configPin v a e).1.pinGate.attempt? i = none := by
  cases stage with
  | verifyPin =>
      rw [run_verifyPin]
      split <;> exact hnone
  | recordFailure =>
      have hne : i ≠ v.identity := fun heq => hstage heq.symm rfl
      rw [run_recordFailure]
      simp only [PinGate.attempt?_recordFailure, if_neg hne, PinGate.attempt?_makeRoom,
        hnone, Option.filter_none, ite_self]
  | recordSuccess =>
      rw [run_recordSuccess]
      simp only [PinGate.attempt?_recordSuccess, hnone, ite_self]
  | find m =>
      rw [run_find]
      split_ifs <;> exact hnone
  | prompt m =>
      rw [run_prompt]
      split <;> exact hnone
  | serve u =>
      rcases serve_cases codec configPin v a e u with ⟨p, -, -, hrun⟩ | hrun
      · rw [hrun]
        exact hnone
      · rw [hrun]
        exact hnone
  | _ => exact hnone

end AdmissionStage

theorem guesses_outline :
    ProofOutline (admission codec configPin) (GuessesStale codec i)
      (fun e => e.pinGate.attempt? i = none)
      (fun _ f => SparesIdentity codec configPin i f) where
  run := by
    intro s j a f rest o hs _ hi ho
    have hf := hs.2 f (mem_frames_of_getElem? hi List.mem_cons_self)
    simp only [admission] at ho
    split at ho
    · obtain rfl := Option.some.inj ho
      refine ⟨AdmissionStage.attempt?_run hs.1 ?_, ?_, fun _ _ hg => hg⟩
      · intro hidentity hstage
        have huncounted := (hf hidentity).2
        rw [hstage] at huncounted
        exact huncounted
      · intro g hg
        rw [Outcome.new_thenRun] at hg
        obtain ⟨stage, hstage, rfl⟩ := List.mem_map.mp hg
        intro hidentity
        obtain ⟨hstale, huncounted⟩ := hf hidentity
        exact ⟨hstale, AdmissionStage.uncounted_next hstale huncounted stage
          (Option.mem_toList.mp hstage)⟩
    · obtain rfl := Option.some.inj ho
      exact ⟨hs.1, by simp, fun _ _ hg => hg⟩
  world := by
    intro s ev r hs hok hr
    cases ev with
    | connect peerIp hello =>
        obtain rfl := Option.some.inj hr
        refine ⟨hs.1, ?_, fun _ _ hg => hg⟩
        intro f hf hidentity
        obtain rfl := List.mem_singleton.mp hf
        exact ⟨hok hidentity, trivial⟩
    | rewrite file =>
        obtain rfl := Option.some.inj hr
        exact ⟨hs.1, by simp, fun _ _ hg => hg⟩
    | sweep now maxAge =>
        obtain rfl := Option.some.inj hr
        exact ⟨hs.1, by simp, fun _ _ hg => hg⟩
    | restart =>
        obtain rfl := Option.some.inj hr
        exact ⟨PinGate.attempt?_default, by simp, fun _ _ hg => hg⟩

/-- A guess at the PIN, with a token that does not verify. -/
def staleGuess (pin : Int32) : Hello where
  moduleInstanceUuid7 := "u2"
  authToken := "stale"
  moduleName := "cockatiel-tui"
  pin := pin
  requestedUuid7 := ""
  position := ""
  priority := 0

/-- Six wrong guesses, each answered, and then the right one. -/
def sevenGuesses : List AdmissionLabel :=
  ((List.range 6).flatMap fun k =>
    [.world (.connect (.v4 0) (staleGuess 1)), .run k {}, .run k {}]) ++
      [.world (.connect (.v4 0) (staleGuess 1234))]

end Guesses

end CockatielEngine
