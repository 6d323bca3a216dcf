import CockatielEngine.Channels.OrderedLink
import CockatielEngine.Concurrency.LockInvariant

/-!
# Connections: requests to the user database

The client has one connection at most, behind a mutex, and connects when it has none.
A response does not say which request it answers: it is taken to be the answer to the
request that was sent last.  An exchange that fails in any way, also on an answer that
cannot be read, gives up the connection.  A request that has begun runs to its return.

The server answers on each connection the requests it got there, once each and in
order, however late; it may also send frames that answer nothing, as the protocol of
the connection has them, but these are not binary.

**Main result.**  In every run, whatever a request reads is the answer to itself or
answers nothing, and a response it returns is the server's one answer to it.
-/

namespace CockatielEngine

open TaskPool

section Program

/-- The client's token and the coding of `UserDbRequest` and `UserDbResponse`. -/
structure UserDbWire (Op Response : Type) where
  token : String
  encode : String → Op → Except String (List UInt8)
  decode : List UInt8 → Except String Response

inductive WsMessage where
  | text (text : String)
  | binary (data : List UInt8)
  | ping (data : List UInt8)
  | pong (data : List UInt8)
  | close
deriving DecidableEq

def WsMessage.isBinary : WsMessage → Bool
  | .binary _ => true
  | _ => false

/-- A request on a connection.  The bytes are what the server gets. -/
structure SentRequest where
  id : Nat
  buf : List UInt8
deriving DecidableEq

/-- What a request has read and returned. -/
structure ReturnedRequest (Op Response : Type) where
  id : Nat
  op : Op
  read : Option (Arrival SentRequest WsMessage)
  result : Except String Response

/-- The state of `UserDbClient` and of its peer.  Requests are numbered as they are
issued and connections as they are made. -/
structure UserDbLine (Op Response : Type) where
  locked : Bool := false
  conn : Option Nat := none
  links : Links SentRequest WsMessage := []
  issued : Nat := 0
  /-- The answers the server has given. -/
  answers : List (SentRequest × WsMessage) := []
  returned : List (ReturnedRequest Op Response) := []

/-- A request at its next suspension point. -/
inductive RequestFrame (Op : Type) where
  | lock (id : Nat) (op : Op)
  | connect (id : Nat) (op : Op)
  | send (id : Nat) (op : Op) (c : Nat) (buf : List UInt8)
  | receive (id : Nat) (op : Op) (c : Nat)
deriving DecidableEq

/-- How a wait ends.  A send that fails may have reached the server. -/
inductive RequestAnswer where
  | locked
  | connected
  | connectFailed (e : String)
  | timedOut
  | sent
  | sendFailed (e : String) (delivered : Bool)
  | message
  | recvFailed (e : String)
  | closed
deriving DecidableEq

/-- A task issues a request; the server answers on a connection, or sends there what
answers nothing. -/
inductive RequestEvent (Op : Type) where
  | issue (op : Op)
  | answer (c : Nat) (m : WsMessage)
  | control (c : Nat) (m : WsMessage)
deriving DecidableEq

variable {Op Response : Type}

abbrev RequestOutcome (Op Response : Type) :=
  Outcome (UserDbLine Op Response) (RequestFrame Op)

namespace UserDbLine

/-- `request` returns and drops the guard. -/
def finish (s : UserDbLine Op Response) (id : Nat) (op : Op)
    (read : Option (Arrival SentRequest WsMessage))
    (result : Except String Response) : RequestOutcome Op Response :=
  .thenRun
    { s with
      locked := false
      returned := s.returned ++ [{ id, op, read, result }] } []

/-- The end of an exchange: a failed one gives up the connection. -/
def endExchange (s : UserDbLine Op Response) (id : Nat) (op : Op)
    (read : Option (Arrival SentRequest WsMessage))
    (result : Except String Response) : RequestOutcome Op Response :=
  match result with
  | .ok _ => s.finish id op read result
  | .error _ => { s with conn := none }.finish id op read result

/-- From the encoding of the request up to the call of `send` on the connection. -/
def beginExchange (s : UserDbLine Op Response) (wire : UserDbWire Op Response)
    (id : Nat) (op : Op) (c : Nat) : RequestOutcome Op Response :=
  match wire.encode wire.token op with
  | .error e => s.finish id op none (.error e)
  | .ok buf => .thenRun s [.send id op c buf]

def connected (s : UserDbLine Op Response) : UserDbLine Op Response :=
  { s with conn := some s.links.length, links := s.links.opened }

def transmit (s : UserDbLine Op Response) (c : Nat) (r : SentRequest) :
    UserDbLine Op Response :=
  { s with links := s.links.send c r }

end UserDbLine

/-- What is made of a message: `UserDbResponse::decode`, if it is binary. -/
def UserDbWire.response (wire : UserDbWire Op Response) :
    WsMessage → Except String Response
  | .binary data => wire.decode data
  | _ => .error "UserDB returned non-binary message"

open UserDbLine in
def RequestFrame.step (wire : UserDbWire Op Response) (s : UserDbLine Op Response) :
    RequestFrame Op → RequestAnswer → Option (RequestOutcome Op Response)
  | .lock id op, .locked =>
      if s.locked then none
      else
        match s.conn with
        | none => some (.thenRun { s with locked := true } [.connect id op])
        | some c => some ({ s with locked := true }.beginExchange wire id op c)
  | .connect id op, .connected =>
      some (s.connected.beginExchange wire id op s.links.length)
  | .connect id op, .timedOut =>
      some (s.finish id op none (.error "UserDB connect timed out after 3s"))
  | .connect id op, .connectFailed e =>
      some (s.finish id op none (.error ("UserDB connect failed: " ++ e)))
  | .send id op c buf, .sent =>
      some (.thenRun (s.transmit c ⟨id, buf⟩) [.receive id op c])
  | .send id op c buf, .sendFailed e delivered =>
      some ((if delivered then s.transmit c ⟨id, buf⟩ else s).endExchange id op none
        (.error ("UserDB send failed: " ++ e)))
  | .receive id op c, .message =>
      (s.links.receive c).map fun x =>
        { s with links := x.2 }.endExchange id op (some x.1) (wire.response x.1.message)
  | .receive id op _, .recvFailed e =>
      some (s.endExchange id op none (.error ("UserDB recv error: " ++ e)))
  | .receive id op _, .closed =>
      some (s.endExchange id op none (.error "UserDB closed connection"))
  | .receive id op _, .timedOut =>
      some (s.endExchange id op none (.error "UserDB request timed out"))
  | _, _ => none

def RequestEvent.occur (s : UserDbLine Op Response) :
    RequestEvent Op → Option (UserDbLine Op Response × List (List (RequestFrame Op)))
  | .issue op => some ({ s with issued := s.issued + 1 }, [[.lock s.issued op]])
  | .answer c m =>
      (s.links.answer c m).map fun x =>
        ({ s with links := x.2, answers := s.answers ++ [(x.1, m)] }, [])
  | .control c m =>
      if m.isBinary then none
      else some ({ s with links := s.links.volunteer c m }, [])

/-- Any number of requests, issued at any time; a task that makes several issues each
when it likes. -/
def userDbRequests (wire : UserDbWire Op Response) :
    Program (UserDbLine Op Response) (RequestFrame Op) RequestAnswer
      (RequestEvent Op) where
  step := RequestFrame.step wire
  catches _ := false
  event := RequestEvent.occur

abbrev RequestPool (Op Response : Type) :=
  Pool (UserDbLine Op Response) (RequestFrame Op)

/-- `UserDbClient::new`. -/
def newUserDbClient : RequestPool Op Response :=
  { shared := {}, threads := [] }

end Program

section Meaning

variable {Op Response : Type}

/-- The request read nothing that answers another one, and a response it returned is
decoded from an answer to its own bytes. -/
structure ReturnedRequest.Paired (wire : UserDbWire Op Response)
    (answers : List (SentRequest × WsMessage))
    (x : ReturnedRequest Op Response) : Prop where
  own : ∀ a ∈ x.read, ∀ r, a.answers = some r → r.id = x.id
  answered : ∀ response, x.result = .ok response →
    ∃ buf data,
      wire.encode wire.token x.op = .ok buf ∧
      x.read = some ⟨some ⟨x.id, buf⟩, .binary data⟩ ∧
      (⟨x.id, buf⟩, .binary data) ∈ answers ∧
      wire.decode data = .ok response

/-- Every request that has returned is paired, and the server has answered no request
twice. -/
structure PairsRequests (wire : UserDbWire Op Response)
    (s : UserDbLine Op Response) : Prop where
  paired : ∀ x ∈ s.returned, x.Paired wire s.answers
  once : (s.answers.map fun x => x.1.id).Nodup

/-- What a step of a request does. -/
inductive RequestFrame.Moves (wire : UserDbWire Op Response)
    (s : UserDbLine Op Response) :
    RequestFrame Op → RequestOutcome Op Response → Prop
  | connects (id : Nat) (op : Op) :
      s.locked = false →
      s.conn = none →
      Moves wire s (.lock id op) (.thenRun { s with locked := true } [.connect id op])
  | begins (id : Nat) (op : Op) (c : Nat) :
      s.locked = false →
      s.conn = some c →
      Moves wire s (.lock id op)
        ({ s with locked := true }.beginExchange wire id op c)
  | connected (id : Nat) (op : Op) :
      Moves wire s (.connect id op)
        (s.connected.beginExchange wire id op s.links.length)
  | unconnected (id : Nat) (op : Op) (e : String) :
      Moves wire s (.connect id op) (s.finish id op none (.error e))
  | sends (id : Nat) (op : Op) (c : Nat) (buf : List UInt8) :
      Moves wire s (.send id op c buf)
        (.thenRun (s.transmit c ⟨id, buf⟩) [.receive id op c])
  | unsent (id : Nat) (op : Op) (c : Nat) (buf : List UInt8) (delivered : Bool)
      (e : String) :
      Moves wire s (.send id op c buf)
        ((if delivered then s.transmit c ⟨id, buf⟩ else s).endExchange id op none
          (.error e))
  | reads (id : Nat) (op : Op) (c : Nat) (a : Arrival SentRequest WsMessage)
      (links' : Links SentRequest WsMessage) :
      s.links.receive c = some (a, links') →
      Moves wire s (.receive id op c)
        ({ s with links := links' }.endExchange id op (some a)
          (wire.response a.message))
  | unread (id : Nat) (op : Op) (c : Nat) (e : String) :
      Moves wire s (.receive id op c) (s.endExchange id op none (.error e))

/-- The mutex of the connection. -/
def connLock : Lock (UserDbLine Op Response) (RequestFrame Op) where
  holds
    | .lock _ _ => false
    | _ => true
  taken s := s.locked

/-- The connection the next request will use has no answer on the way. -/
def NothingOwed (s : UserDbLine Op Response) : Prop :=
  ∀ c, s.conn = some c → s.links.Owes c []

/-- Where the exchange of the request under way stands. -/
def RequestFrame.Stands (wire : UserDbWire Op Response) (s : UserDbLine Op Response) :
    RequestFrame Op → Prop
  | .lock _ _ => True
  | .connect _ _ => s.conn = none
  | .send _ op c buf =>
      s.conn = some c ∧ wire.encode wire.token op = .ok buf ∧ s.links.Owes c []
  | .receive id op c =>
      s.conn = some c ∧
        ∃ buf, wire.encode wire.token op = .ok buf ∧ s.links.Owes c [⟨id, buf⟩]

/-- What is on the connections is in the server's record or not binary, and what has
returned is paired. -/
structure Tracks (wire : UserDbWire Op Response) (s : UserDbLine Op Response) : Prop where
  honest : s.links.Honest s.answers (fun m => m.isBinary = false)
  paired : ∀ x ∈ s.returned, x.Paired wire s.answers

/-- The request of this number. -/
def SentRequest.isOf (k : Nat) (r : SentRequest) : Bool :=
  decide (r.id = k)

/-- How often the request `k` can still be sent. -/
def RequestFrame.toSend (k : Nat) : RequestFrame Op → Nat
  | .lock id _ => (decide (id = k)).toNat
  | .connect id _ => (decide (id = k)).toNat
  | .send id _ _ _ => (decide (id = k)).toNat
  | .receive _ _ _ => 0

/-- How often the server has got the request `k`. -/
def UserDbLine.got (s : UserDbLine Op Response) (k : Nat) : Nat :=
  s.links.pending.countP (SentRequest.isOf k) +
    s.answers.countP (fun x => x.1.isOf k)

/-- What every reachable pool satisfies. -/
structure InTurn (wire : UserDbWire Op Response)
    (s : RequestPool Op Response) : Prop where
  guards : connLock.Guards NothingOwed (RequestFrame.Stands wire) s
  tracks : Tracks wire s.shared
  once : ∀ k, s.total (RequestFrame.toSend k) + s.shared.got k ≤
    (decide (k < s.shared.issued)).toNat

end Meaning

section Steps

variable {Op Response : Type} {wire : UserDbWire Op Response}
variable {s : UserDbLine Op Response} {f : RequestFrame Op} {a : RequestAnswer}
variable {o : RequestOutcome Op Response}
variable {id : Nat} {op : Op} {c : Nat}
variable {read : Option (Arrival SentRequest WsMessage)}
variable {result : Except String Response}

theorem RequestFrame.moves_of_step
    (h : f.step wire s a = some o) :
    Moves wire s f o := by
  cases f with
  | lock id op =>
      cases a with
      | locked =>
          simp only [step] at h
          split at h
          · cases h
          · rename_i hfree
            have hfree : s.locked = false := by simpa using hfree
            split at h
            · rename_i hconn
              cases h
              exact .connects id op hfree hconn
            · rename_i c hconn
              cases h
              exact .begins id op c hfree hconn
      | _ => cases h
  | connect id op =>
      cases a with
      | connected =>
          cases h
          exact .connected id op
      | timedOut =>
          cases h
          exact .unconnected id op _
      | connectFailed e =>
          cases h
          exact .unconnected id op _
      | _ => cases h
  | send id op c buf =>
      cases a with
      | sent =>
          cases h
          exact .sends id op c buf
      | sendFailed e delivered =>
          cases h
          exact .unsent id op c buf delivered _
      | _ => cases h
  | receive id op c =>
      cases a with
      | message =>
          obtain ⟨⟨a, links'⟩, hreceive, rfl⟩ := Option.map_eq_some_iff.mp h
          exact .reads id op c a links' hreceive
      | recvFailed e =>
          cases h
          exact .unread id op c _
      | closed =>
          cases h
          exact .unread id op c _
      | timedOut =>
          cases h
          exact .unread id op c _
      | _ => cases h

section Exclusion

/-- A request that is over leaves the lock free. -/
theorem leaves_finish
    (h : NothingOwed s) :
    connLock.Leaves NothingOwed (RequestFrame.Stands wire) (s.finish id op read result) :=
  Or.inr ⟨by simp [UserDbLine.finish], rfl, h⟩

/-- However an exchange ends, nothing is owed on the connection that is kept. -/
theorem leaves_endExchange
    (h : ∀ response, result = .ok response → NothingOwed s) :
    connLock.Leaves NothingOwed (RequestFrame.Stands wire)
      (s.endExchange id op read result) := by
  unfold UserDbLine.endExchange
  split
  · exact leaves_finish (h _ rfl)
  · exact leaves_finish fun c hconn => by cases hconn

theorem leaves_beginExchange
    (hlocked : s.locked = true)
    (hconn : s.conn = some c)
    (howes : s.links.Owes c []) :
    connLock.Leaves NothingOwed (RequestFrame.Stands wire)
      (s.beginExchange wire id op c) := by
  unfold UserDbLine.beginExchange
  split
  · refine leaves_finish fun d hd => ?_
    obtain rfl : c = d := Option.some.inj (hconn.symm.trans hd)
    exact howes
  · rename_i buf hencode
    exact Or.inl ⟨.send id op c buf, by simp, hlocked, hconn, hencode, howes⟩

/-- Only a binary message has a response in it. -/
theorem isBinary_of_response
    {m : WsMessage} {response : Response}
    (h : wire.response m = .ok response) :
    ∃ data, m = .binary data ∧ wire.decode data = .ok response := by
  cases m with
  | binary data => exact ⟨data, rfl, h⟩
  | _ => cases h

/-- A response was read from the answer that was owed, and nothing is owed after
it. -/
theorem owes_nil_of_response
    (hlinks : s.links.Honest s.answers (fun m => m.isBinary = false))
    {r : SentRequest} {m : Arrival SentRequest WsMessage}
    {links' : Links SentRequest WsMessage} {response : Response}
    (howes : s.links.Owes c [r])
    (hreceive : s.links.receive c = some (m, links'))
    (h : wire.response m.message = .ok response) :
    m.answers = some r ∧ links'.Owes c [] := by
  rcases howes.receive hreceive with hanswer | ⟨hnone, -⟩
  · exact hanswer
  · obtain ⟨data, hbinary, -⟩ := isBinary_of_response h
    have hcontrol := (hlinks.receive hreceive).2.1 hnone
    rw [hbinary] at hcontrol
    cases hcontrol

theorem RequestFrame.Moves.leaves
    (hm : Moves wire s f o)
    (henters : connLock.Enters NothingOwed (Stands wire) s f)
    (hlinks : s.links.Honest s.answers (fun m => m.isBinary = false)) :
    connLock.Leaves NothingOwed (Stands wire) o := by
  cases hm with
  | connects id op hfree hconn =>
      exact Or.inl ⟨.connect id op, by simp, rfl, hconn⟩
  | begins id op c hfree hconn =>
      obtain ⟨hholds, -⟩ | ⟨-, -, howed⟩ := henters
      · cases hholds
      · exact leaves_beginExchange rfl hconn (howed c hconn)
  | connected id op =>
      obtain ⟨-, htaken, -⟩ | ⟨hholds, -⟩ := henters
      · exact leaves_beginExchange htaken rfl Links.owes_opened
      · cases hholds
  | unconnected id op e =>
      obtain ⟨-, -, hconn⟩ | ⟨hholds, -⟩ := henters
      · refine leaves_finish fun c hc => ?_
        rw [show s.conn = none from hconn] at hc
        cases hc
      · cases hholds
  | sends id op c buf =>
      obtain ⟨-, htaken, hconn, hencode, howes⟩ | ⟨hholds, -⟩ := henters
      · exact Or.inl ⟨.receive id op c, by simp, htaken, hconn, buf, hencode, howes.send⟩
      · cases hholds
  | unsent id op c buf delivered e =>
      exact leaves_endExchange fun response hresult => by cases hresult
  | reads id op c m links' hreceive =>
      obtain ⟨-, -, hconn, buf, -, howes⟩ | ⟨hholds, -⟩ := henters
      · refine leaves_endExchange fun response hresponse d hd => ?_
        obtain rfl : c = d := Option.some.inj (hconn.symm.trans hd)
        exact (owes_nil_of_response hlinks howes hreceive hresponse).2
      · cases hholds
  | unread id op c e =>
      exact leaves_endExchange fun response hresult => by cases hresult

end Exclusion

section Pairing

variable {x : ReturnedRequest Op Response}
variable {answers answers' : List (SentRequest × WsMessage)}

theorem ReturnedRequest.Paired.mono
    (h : x.Paired wire answers)
    (hsub : answers ⊆ answers') :
    x.Paired wire answers' where
  own := h.own
  answered response hresponse := by
    obtain ⟨buf, data, hencode, hread, hmem, hdecode⟩ := h.answered response hresponse
    exact ⟨buf, data, hencode, hread, hsub hmem, hdecode⟩

/-- A request that fails before it reads anything. -/
theorem ReturnedRequest.Paired.of_error
    (e : String) :
    ({ id, op, read := none, result := .error e } :
      ReturnedRequest Op Response).Paired wire answers :=
  ⟨fun a ha => (by cases ha), fun response hresult => (by cases hresult)⟩

theorem Tracks.finish
    (h : Tracks wire s)
    (hx : ReturnedRequest.Paired wire s.answers { id, op, read, result }) :
    Tracks wire (s.finish id op read result).shared := by
  refine ⟨h.honest, fun x hmem => ?_⟩
  rcases List.mem_append.mp hmem with hmem | hmem
  · exact h.paired x hmem
  · obtain rfl := List.mem_singleton.mp hmem
    exact hx

theorem Tracks.endExchange
    (h : Tracks wire s)
    (hx : ReturnedRequest.Paired wire s.answers { id, op, read, result }) :
    Tracks wire (s.endExchange id op read result).shared := by
  unfold UserDbLine.endExchange
  split
  · exact h.finish hx
  · exact Tracks.finish ⟨h.honest, h.paired⟩ hx

theorem Tracks.beginExchange
    (h : Tracks wire s) :
    Tracks wire (s.beginExchange wire id op c).shared := by
  unfold UserDbLine.beginExchange
  split
  · exact h.finish (.of_error _)
  · exact h

/-- What a request reads while one answer is owed, its own. -/
theorem paired_of_receive
    (hlinks : s.links.Honest s.answers (fun m => m.isBinary = false))
    {buf : List UInt8} {m : Arrival SentRequest WsMessage}
    {links' : Links SentRequest WsMessage}
    (hencode : wire.encode wire.token op = .ok buf)
    (howes : s.links.Owes c [⟨id, buf⟩])
    (hreceive : s.links.receive c = some (m, links')) :
    ReturnedRequest.Paired wire s.answers
      { id, op, read := some m, result := wire.response m.message } where
  own := by
    rintro m' ⟨⟩ r hr
    rcases howes.receive hreceive with ⟨hanswer, -⟩ | ⟨hnone, -⟩
    · obtain rfl := Option.some.inj (hanswer.symm.trans hr)
      rfl
    · rw [hnone] at hr
      cases hr
  answered response hresponse := by
    obtain ⟨hanswer, -⟩ := owes_nil_of_response hlinks howes hreceive hresponse
    obtain ⟨data, hbinary, hdecode⟩ := isBinary_of_response hresponse
    have hmem := (hlinks.receive hreceive).2.2 _ hanswer
    rw [hbinary] at hmem
    refine ⟨buf, data, hencode, ?_, hmem, hdecode⟩
    rw [← hanswer, ← hbinary]

theorem RequestFrame.Moves.tracks
    (hm : Moves wire s f o)
    (henters : connLock.Enters NothingOwed (Stands wire) s f)
    (h : Tracks wire s) :
    Tracks wire o.shared := by
  cases hm with
  | connects id op hfree hconn =>
      exact ⟨h.honest, h.paired⟩
  | begins id op c hfree hconn =>
      exact Tracks.beginExchange ⟨h.honest, h.paired⟩
  | connected id op =>
      exact Tracks.beginExchange ⟨h.honest.opened, h.paired⟩
  | unconnected id op e =>
      exact h.finish (.of_error e)
  | sends id op c buf =>
      exact ⟨h.honest.send, h.paired⟩
  | unsent id op c buf delivered e =>
      cases delivered with
      | false => exact h.endExchange (.of_error e)
      | true => exact Tracks.endExchange ⟨h.honest.send, h.paired⟩ (.of_error e)
  | reads id op c m links' hreceive =>
      obtain ⟨-, -, -, buf, hencode, howes⟩ | ⟨hholds, -⟩ := henters
      · exact Tracks.endExchange ⟨(h.honest.receive hreceive).1, h.paired⟩
          (paired_of_receive h.honest hencode howes hreceive)
      · cases hholds
  | unread id op c e =>
      exact h.endExchange (.of_error e)

end Pairing
section Counts

/-- Of a request that could be sent `n` times, no more is left to be sent or has been
got by the server since. -/
def SendsOnce (s : UserDbLine Op Response) (k n : Nat)
    (o : RequestOutcome Op Response) : Prop :=
  o.shared.issued = s.issued ∧
    (o.new.map (RequestFrame.toSend k)).sum + o.shared.got k ≤ n + s.got k

variable {k n : Nat}

theorem sendsOnce_finish :
    SendsOnce s k n (s.finish id op read result) :=
  ⟨rfl, by simp [UserDbLine.finish, UserDbLine.got]⟩

theorem sendsOnce_endExchange :
    SendsOnce s k n (s.endExchange id op read result) := by
  unfold UserDbLine.endExchange
  split
  · exact sendsOnce_finish
  · exact ⟨rfl, by simp [UserDbLine.finish, UserDbLine.got]⟩

theorem sendsOnce_beginExchange :
    SendsOnce s k (decide (id = k)).toNat (s.beginExchange wire id op c) := by
  unfold UserDbLine.beginExchange
  split
  · exact sendsOnce_finish
  · exact ⟨rfl, by simp [RequestFrame.toSend]⟩

theorem SendsOnce.trans
    {s' : UserDbLine Op Response} {n' : Nat}
    (h : SendsOnce s' k n' o)
    (hissued : s'.issued = s.issued)
    (hgot : n' + s'.got k ≤ n + s.got k) :
    SendsOnce s k n o :=
  ⟨h.1.trans hissued, h.2.trans hgot⟩

theorem got_transmit
    {buf : List UInt8} :
    (s.transmit c ⟨id, buf⟩).got k ≤ (decide (id = k)).toNat + s.got k := by
  have hsend : (s.links.send c ⟨id, buf⟩).pending.countP (SentRequest.isOf k) ≤
      s.links.pending.countP (SentRequest.isOf k) + (decide (id = k)).toNat :=
    Links.countP_pending_send _
  simp only [UserDbLine.got, UserDbLine.transmit]
  omega

theorem RequestFrame.Moves.sendsOnce
    (hm : Moves wire s f o) :
    SendsOnce s k (f.toSend k) o := by
  cases hm with
  | connects id op hfree hconn =>
      exact ⟨rfl, by simp [toSend, UserDbLine.got]⟩
  | begins id op c hfree hconn =>
      exact sendsOnce_beginExchange.trans rfl (Nat.le_refl _)
  | connected id op =>
      refine sendsOnce_beginExchange.trans rfl (Nat.le_of_eq ?_)
      simp [UserDbLine.got, UserDbLine.connected, toSend]
  | unconnected id op e =>
      exact sendsOnce_finish
  | sends id op c buf =>
      exact ⟨rfl, by simpa [toSend] using got_transmit⟩
  | unsent id op c buf delivered e =>
      cases delivered with
      | false => exact sendsOnce_endExchange
      | true =>
          refine (sendsOnce_endExchange (n := 0)).trans rfl ?_
          simpa [toSend] using got_transmit
  | reads id op c m links' hreceive =>
      refine (sendsOnce_endExchange (n := 0)).trans rfl (Nat.le_of_eq ?_)
      simp [UserDbLine.got, toSend, Links.countP_pending_receive _ hreceive]
  | unread id op c e =>
      exact sendsOnce_endExchange

end Counts
end Steps

section Runs

variable {Op Response : Type} {wire : UserDbWire Op Response}
variable {s s' : RequestPool Op Response}

/-- A request that stands before the lock takes a step only when it is free. -/
theorem RequestFrame.Moves.may_enter
    {s : UserDbLine Op Response} {f : RequestFrame Op} {o : RequestOutcome Op Response}
    (hm : Moves wire s f o)
    (hf : connLock.holds (σ := UserDbLine Op Response) f = false) :
    connLock.taken (φ := RequestFrame Op) s = false := by
  cases hm with
  | connects id op hfree hconn => exact hfree
  | begins id op c hfree hconn => exact hfree
  | _ => cases hf

theorem InTurn.run
    {i : Nat} {a : RequestAnswer}
    (h : InTurn wire s)
    (hfire : (userDbRequests wire).fire s (.run i a) = some s') :
    InTurn wire s' := by
  obtain ⟨f, rest, o, hi, ho, rfl⟩ := fire_run_cases hfire
  have hm := RequestFrame.moves_of_step ho
  have henters := h.guards.enters (mem_frames_of_getElem? hi (List.mem_cons_self ..))
    hm.may_enter
  refine ⟨h.guards.run hi henters (hm.leaves henters h.tracks.honest),
    hm.tracks henters h.tracks, fun k => ?_⟩
  obtain ⟨hissued, hcount⟩ := hm.sendsOnce (k := k)
  have htotal := total_fire_run_le (P := userDbRequests wire) (o := o)
    (RequestFrame.toSend k) hi
  have honce := h.once k
  simp only [hissued]
  omega

/-- What the server does to the connections leaves the exchange under way where it
stands. -/
theorem RequestFrame.Stands.of_owes
    {s s' : UserDbLine Op Response} {g : RequestFrame Op}
    (h : g.Stands wire s)
    (hconn : s'.conn = s.conn)
    (howes : ∀ c rs, s.links.Owes c rs → s'.links.Owes c rs) :
    g.Stands wire s' := by
  cases g with
  | lock id op => trivial
  | connect id op => exact hconn.trans h
  | send id op c buf =>
      obtain ⟨hc, hencode, hnil⟩ := h
      exact ⟨hconn.trans hc, hencode, howes _ _ hnil⟩
  | receive id op c =>
      obtain ⟨hc, buf, hencode, hone⟩ := h
      exact ⟨hconn.trans hc, buf, hencode, howes _ _ hone⟩

theorem InTurn.issue
    (h : InTurn wire s) (op : Op) :
    InTurn wire
      { shared := { s.shared with issued := s.shared.issued + 1 }
        threads := s.threads ++ [[.lock s.shared.issued op]] } := by
  refine ⟨?_, ⟨h.tracks.honest, h.tracks.paired⟩, fun k => ?_⟩
  · refine h.guards.world (r := (_, _)) ?_ rfl id fun g hg => hg.of_owes rfl fun _ _ => id
    intro g hg
    obtain rfl : g = .lock s.shared.issued op := by simpa using hg
    rfl
  · have honce := h.once k
    have hgot : UserDbLine.got { s.shared with issued := s.shared.issued + 1 } k =
        s.shared.got k := rfl
    rw [total_fire_world (r := (_, _)), hgot]
    by_cases hk : s.shared.issued = k
    · subst hk
      simp [RequestFrame.toSend] at honce ⊢
      omega
    · have hnext : k < s.shared.issued + 1 ↔ k < s.shared.issued := by omega
      simpa [RequestFrame.toSend, hk, hnext] using honce

theorem InTurn.world
    {ev : RequestEvent Op}
    (h : InTurn wire s)
    (hfire : (userDbRequests wire).fire s (.world ev) = some s') :
    InTurn wire s' := by
  obtain ⟨r, hr, rfl⟩ := fire_world_cases hfire
  cases ev with
  | issue op =>
      cases hr
      exact h.issue op
  | answer c m =>
      obtain ⟨⟨q, links'⟩, hanswer, rfl⟩ := Option.map_eq_some_iff.mp hr
      have howes {d : Nat} {rs : List SentRequest} (hd : s.shared.links.Owes d rs) :
          links'.Owes d rs := hd.answer hanswer
      refine ⟨?_, ⟨h.tracks.honest.answer hanswer, fun x hx => ?_⟩, fun k => ?_⟩
      · exact h.guards.world (by simp) rfl (fun howed d hd => howes (howed d hd))
          fun g hg => hg.of_owes rfl fun _ _ => howes
      · exact (h.tracks.paired x hx).mono (List.subset_append_left ..)
      · have honce := h.once k
        have hcount := Links.countP_pending_answer (SentRequest.isOf k) hanswer
        rw [total_fire_world]
        simp only [UserDbLine.got, List.countP_append, List.countP_singleton] at honce ⊢
        cases hq : q.isOf k <;> simp [hq] at hcount honce ⊢ <;> omega
  | control c m =>
      simp only [userDbRequests, RequestEvent.occur] at hr
      split at hr
      · cases hr
      · rename_i hbinary
        cases hr
        have hbinary : m.isBinary = false := by simpa using hbinary
        refine ⟨?_, ⟨h.tracks.honest.volunteer hbinary, h.tracks.paired⟩, fun k => ?_⟩
        · exact h.guards.world (by simp) rfl (fun howed d hd => (howed d hd).volunteer)
            fun g hg => hg.of_owes rfl fun _ _ hd => hd.volunteer
        · have honce := h.once k
          have hcount :
              (s.shared.links.volunteer c m).pending.countP (SentRequest.isOf k) ≤
                s.shared.links.pending.countP (SentRequest.isOf k) :=
            Links.countP_pending_volunteer _
          rw [total_fire_world]
          simp only [UserDbLine.got] at honce ⊢
          simp
          omega

theorem inTurn_newUserDbClient :
    InTurn wire (newUserDbClient : RequestPool Op Response) := by
  refine ⟨⟨?_, fun _ c hconn => (by cases hconn), ?_⟩,
    ⟨fun l hl => absurd hl List.not_mem_nil, fun x hx => absurd hx List.not_mem_nil⟩,
    fun k => ?_⟩
  · simp [newUserDbClient, Pool.total, Pool.frames]
  · simp [newUserDbClient, Pool.frames]
  · simp [newUserDbClient, Pool.total, Pool.frames, UserDbLine.got, Links.pending]

theorem InTurn.fire
    {l : Label RequestAnswer (RequestEvent Op)}
    (h : InTurn wire s)
    (hfire : (userDbRequests wire).fire s l = some s') :
    InTurn wire s' := by
  cases l with
  | run i a => exact h.run hfire
  | world ev => exact h.world hfire

/-- The server has not answered a request twice. -/
theorem InTurn.nodup_answers
    (h : InTurn wire s) :
    (s.shared.answers.map fun x => x.1.id).Nodup := by
  refine List.nodup_iff_count_le_one.mpr fun k => ?_
  have hcount : (s.shared.answers.map fun x => x.1.id).count k =
      s.shared.answers.countP (fun x => x.1.isOf k) := by
    rw [List.count, List.countP_map]
    exact List.countP_congr fun x _ => by simp [SentRequest.isOf]
  have honce := (h.once k).trans (Bool.toNat_le _)
  rw [hcount]
  unfold UserDbLine.got at honce
  omega

/-- Every run keeps requests and responses together: none reads a late answer to an
earlier one. -/
theorem requests_paired (wire : UserDbWire Op Response)
    (hs : Reachable (userDbRequests wire) (fun _ _ => True) newUserDbClient s) :
    PairsRequests wire s.shared := by
  have h : InTurn wire s :=
    hs.invariant inTurn_newUserDbClient fun hinv _ hfire => hinv.fire hfire
  exact ⟨h.tracks.paired, h.nodup_answers⟩

/-- Requests and responses of a few bytes. -/
def byteWire : UserDbWire UInt8 UInt8 where
  token := "t"
  encode _ op := .ok [op]
  decode
    | [response] => .ok response
    | _ => .error "failed to decode Protobuf message"

/-- The first request times out, and its answer comes before the second one is even
sent. -/
def lateAnswer : List (Label RequestAnswer (RequestEvent UInt8)) :=
  [.world (.issue 7), .world (.issue 8), .run 0 .locked, .run 0 .connected, .run 0 .sent,
    .run 0 .timedOut, .world (.answer 0 (.binary [70])), .run 1 .locked,
    .run 1 .connected, .run 1 .sent, .world (.answer 1 (.binary [80])), .run 1 .message]

theorem requests_paired_lateAnswer :
    ∃ s, (userDbRequests byteWire).exec newUserDbClient lateAnswer = some s ∧
      s.shared.returned.map (fun x => (x.id, x.result.toOption)) =
        [(0, none), (1, some 80)] ∧
      PairsRequests byteWire s.shared := by
  refine ⟨_, rfl, by decide, ?_⟩
  exact requests_paired byteWire
    (reachable_of_allSteps lateAnswer .start (by decide) rfl)

end Runs

end CockatielEngine
