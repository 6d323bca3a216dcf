import CockatielEngine.Channels.BoundedChannel
import CockatielEngine.Maps.Bindings
import CockatielEngine.Pipeline.Machine

/-!
# Pipeline: what a bounded send to a module reports

A send looks the module's channel up, checks that it is open, tries to queue the
container and, failing that, waits for room for one second.  A wait that ends in time
counts as sent, also when it ends because the channel was closed.

**Main result.**  The outcome says what became of the container exactly when a
channel that is found open does not close before it has room.
-/

namespace CockatielEngine

open BoundedChannel

/-- What happens to the channel from one look of the send at it to the next. -/
structure Meanwhile where
  beforeCheck : List (ChannelMove ContainerForModule) := []
  beforeTry : List (ChannelMove ContainerForModule) := []
  beforeWait : List (ChannelMove ContainerForModule) := []
  waiting : List (List (ChannelMove ContainerForModule)) := []
deriving DecidableEq, Repr

namespace Meanwhile

variable (m : Meanwhile) (sender : BoundedChannel ContainerForModule)

def atCheck : BoundedChannel ContainerForModule :=
  sender.moves m.beforeCheck

def atTry : BoundedChannel ContainerForModule :=
  (m.atCheck sender).moves m.beforeTry

/-- The channel whenever the waiting send is polled, up to the deadline. -/
def polls : List (BoundedChannel ContainerForModule) :=
  m.waiting.scanl moves ((m.atTry sender).moves m.beforeWait)

/-- The channel whenever the send would queue its container. -/
def looks : List (BoundedChannel ContainerForModule) :=
  m.atTry sender :: m.polls sender

/-- The waiting send is polled at least once. -/
theorem polls_eq_cons :
    ∃ rest, m.polls sender = (m.atTry sender).moves m.beforeWait :: rest := by
  cases hwaiting : m.waiting with
  | nil => exact ⟨[], by simp [polls, hwaiting]⟩
  | cons ms waiting => exact ⟨_, by rw [polls, hwaiting, List.scanl_cons]⟩

end Meanwhile

/-- The outcome, and the channel with the container in it if it was queued. -/
def sendToModule
    (senders : List (String × BoundedChannel ContainerForModule))
    (moduleName : String) (container : ContainerForModule) (m : Meanwhile) :
    SendOutcome × Option (BoundedChannel ContainerForModule) :=
  match Bindings.lookup senders moduleName with
  | none => (.notConnected, none)
  | some sender =>
      if (m.atCheck sender).closed then (.notConnected, none)
      else
        match (m.atTry sender).trySend container with
        | .ok queued => (.sent, some queued)
        | .error _ =>
            match timedSend container (m.polls sender) with
            -- the deadline was met, whatever the send itself returned
            | some sent => (.sent, sent.toOption)
            | none => (.dropped, none)

/-- The module that the frame sends a container to. -/
def sendsTo : Frame → Option String
  | .fanout (.send _ (moduleName :: _)) => some moduleName
  | .inProcess (.send _ _ moduleName _ _) => some moduleName
  | _ => none

/-- The module that the frame tracks an ack of. -/
def tracksAckOf : Frame → Option String
  | .fanout (.track _ moduleName _) => some moduleName
  | .inProcess (.track _ moduleName _) => some moduleName
  | _ => none

/-- The outcome says what became of the container, and no stage tracks an ack for a
container that was not queued. -/
structure OutcomeTrue
    (senders : List (String × BoundedChannel ContainerForModule))
    (moduleName : String) (container : ContainerForModule) (m : Meanwhile)
    (r : SendOutcome × Option (BoundedChannel ContainerForModule)) : Prop where
  sent : r.1 = .sent ↔ r.2.isSome = true
  queued : ∀ queued, r.2 = some queued →
    ∃ sender, Bindings.lookup senders moduleName = some sender ∧
      ∃ ch ∈ m.looks sender, ch.closed = false ∧ ch.full = false ∧
        queued = { ch with queue := ch.queue ++ [container] }
  notConnected : r.1 = .notConnected ↔
    Bindings.lookup senders moduleName = none ∨
      ∃ sender, Bindings.lookup senders moduleName = some sender ∧
        (sender.closed = true ∨ (m.atCheck sender).closed = true ∨
          ClosesFirst (m.looks sender))
  dropped : r.1 = .dropped ↔
    ∃ sender, Bindings.lookup senders moduleName = some sender ∧
      (m.atCheck sender).closed = false ∧ StaysFull (m.looks sender)
  tracked : ∀ (e : Engine) (a : Answer) (f g : Frame), sendsTo f = some moduleName →
    a.outcome = r.1 → g ∈ (f.step e a).new → tracksAckOf g = some moduleName →
    r.2.isSome = true

section Lemmas

variable {senders : List (String × BoundedChannel ContainerForModule)}
variable {moduleName : String} {container : ContainerForModule} {m : Meanwhile}
variable {sender : BoundedChannel ContainerForModule}
variable {e : Engine} {a : Answer} {f g : Frame}

/-- A stage that sends a container tracks an ack only when it was sent. -/
theorem outcome_of_tracksAckOf
    (hf : sendsTo f = some moduleName)
    (hg : g ∈ (f.step e a).new)
    (htracks : tracksAckOf g = some moduleName) :
    a.outcome = .sent := by
  by_contra hunsent
  cases f with
  | fanout f =>
      cases f with
      | send fo todo =>
          cases todo with
          | nil => cases hf
          | cons next todo =>
              simp only [Frame.step, FanoutFrame.step, hunsent, decide_false,
                Bool.and_false, Bool.false_eq_true, if_false, new_go,
                List.mem_singleton] at hg
              rw [hg] at htracks
              cases htracks
      | track fo next todo => cases hf
  | inProcess f =>
      cases f with
      | send uuid7 state next ackTimeoutMs len =>
          simp only [Frame.step, InProcessFrame.step, hunsent, decide_false,
            Bool.and_false, Bool.false_eq_true, if_false, new_go,
            List.mem_singleton] at hg
          rw [hg] at htracks
          cases htracks
      | _ => cases hf
  | _ => cases hf

theorem sendToModule_of_absent
    (h : Bindings.lookup senders moduleName = none) :
    sendToModule senders moduleName container m = (.notConnected, none) := by
  simp [sendToModule, h]

theorem sendToModule_of_closed
    (h : Bindings.lookup senders moduleName = some sender)
    (hclosed : (m.atCheck sender).closed = true) :
    sendToModule senders moduleName container m = (.notConnected, none) := by
  simp [sendToModule, h, hclosed]

/-- An attempt to queue and then a wait are one wait that begins at the attempt. -/
theorem sendToModule_of_open
    (h : Bindings.lookup senders moduleName = some sender)
    (hopen : (m.atCheck sender).closed = false) :
    sendToModule senders moduleName container m =
      match timedSend container (m.looks sender) with
      | some sent => (.sent, sent.toOption)
      | none => (.dropped, none) := by
  rw [sendToModule, h]
  simp only [hopen, Bool.false_eq_true, if_false, Meanwhile.looks, timedSend]
  cases hclosed : (m.atTry sender).closed with
  | true =>
      -- the channel is still closed when the wait begins
      obtain ⟨rest, hrest⟩ := m.polls_eq_cons sender
      have hwait : ((m.atTry sender).moves m.beforeWait).closed = true :=
        closed_moves hclosed
      simp only [trySend_of_closed hclosed, hrest, timedSend, trySend_of_closed hwait]
  | false =>
      cases hfull : (m.atTry sender).full with
      | true => simp only [trySend_of_full hclosed hfull]
      | false =>
          simp only [trySend_of_room hclosed hfull]
          rfl

/-- The ways that a send can go. -/
inductive SendRun
    (senders : List (String × BoundedChannel ContainerForModule))
    (moduleName : String) (container : ContainerForModule) (m : Meanwhile) :
    SendOutcome × Option (BoundedChannel ContainerForModule) → Prop
  | absent
      (hsender : Bindings.lookup senders moduleName = none) :
      SendRun senders moduleName container m (.notConnected, none)
  | closed
      {sender : BoundedChannel ContainerForModule}
      (hsender : Bindings.lookup senders moduleName = some sender)
      (hclosed : (m.atCheck sender).closed = true) :
      SendRun senders moduleName container m (.notConnected, none)
  | closes
      {sender : BoundedChannel ContainerForModule}
      (hsender : Bindings.lookup senders moduleName = some sender)
      (hopen : (m.atCheck sender).closed = false)
      (hcloses : ClosesFirst (m.looks sender)) :
      SendRun senders moduleName container m (.sent, none)
  | full
      {sender : BoundedChannel ContainerForModule}
      (hsender : Bindings.lookup senders moduleName = some sender)
      (hopen : (m.atCheck sender).closed = false)
      (hstays : StaysFull (m.looks sender)) :
      SendRun senders moduleName container m (.dropped, none)
  | room
      {sender ch : BoundedChannel ContainerForModule}
      (hsender : Bindings.lookup senders moduleName = some sender)
      (hopen : (m.atCheck sender).closed = false)
      (hnot : ¬ ClosesFirst (m.looks sender))
      (hstays : ¬ StaysFull (m.looks sender))
      (hch : ch ∈ m.looks sender)
      (hch_open : ch.closed = false)
      (hroom : ch.full = false) :
      SendRun senders moduleName container m
        (.sent, some { ch with queue := ch.queue ++ [container] })

/-- Every send goes one of these ways. -/
theorem sendToModule_run :
    SendRun senders moduleName container m
      (sendToModule senders moduleName container m) := by
  cases hsender : Bindings.lookup senders moduleName with
  | none =>
      rw [sendToModule_of_absent hsender]
      exact .absent hsender
  | some sender =>
      cases hcheck : (m.atCheck sender).closed with
      | true =>
          rw [sendToModule_of_closed hsender hcheck]
          exact .closed hsender hcheck
      | false =>
          rw [sendToModule_of_open hsender hcheck]
          cases htimed : timedSend container (m.looks sender) with
          | none => exact .full hsender hcheck (timedSend_eq_none_iff.mp htimed)
          | some sent =>
              cases sent with
              | error err =>
                  obtain rfl := error_of_timedSend htimed
                  exact .closes hsender hcheck (timedSend_eq_error_iff.mp htimed)
              | ok queued =>
                  obtain ⟨ch, hch, hch_open, hroom, rfl⟩ := exists_of_timedSend htimed
                  refine .room hsender hcheck ?_ ?_ hch hch_open hroom
                  · rw [← timedSend_eq_error_iff (x := container), htimed]
                    simp
                  · rw [← timedSend_eq_none_iff (x := container), htimed]
                    simp

/-- A channel that is open at the check was open before. -/
theorem open_of_atCheck
    (h : (m.atCheck sender).closed = false) :
    sender.closed = false := by
  by_contra hclosed
  rw [Bool.not_eq_false] at hclosed
  rw [Meanwhile.atCheck, closed_moves hclosed] at h
  cases h

end Lemmas

/-- **Main theorem.**  The outcome is true exactly when a channel that is open at the
check does not close before it has room. -/
theorem sendToModule_true_iff
    (senders : List (String × BoundedChannel ContainerForModule))
    (moduleName : String)
    (container : ContainerForModule)
    (m : Meanwhile) :
    OutcomeTrue senders moduleName container m
        (sendToModule senders moduleName container m) ↔
      ∀ sender, Bindings.lookup senders moduleName = some sender →
        (m.atCheck sender).closed = false → ¬ ClosesFirst (m.looks sender) := by
  have hrun : SendRun senders moduleName container m
      (sendToModule senders moduleName container m) := sendToModule_run
  generalize sendToModule senders moduleName container m = r at hrun
  constructor
  · intro h sender hsender hopen hcloses
    cases hrun with
    | absent hnone => simp [hnone] at hsender
    | closed hsome hclosed =>
        obtain rfl := Option.some.inj (hsome.symm.trans hsender)
        simp [hclosed] at hopen
    | closes _ _ _ => simpa using h.sent
    | full hsome _ hstays =>
        obtain rfl := Option.some.inj (hsome.symm.trans hsender)
        exact hstays.not_closesFirst hcloses
    | room hsome _ hnot _ _ _ _ =>
        obtain rfl := Option.some.inj (hsome.symm.trans hsender)
        exact hnot hcloses
  · intro h
    have hsent : r.1 = .sent ↔ r.2.isSome = true := by
      cases hrun with
      | closes hsome hopen hcloses => exact absurd hcloses (h _ hsome hopen)
      | _ => simp
    refine ⟨hsent, ?_, ?_, ?_, ?_⟩
    · intro queued hqueued
      cases hrun with
      | room hsome _ _ _ hch hch_open hroom =>
          exact ⟨_, hsome, _, hch, hch_open, hroom, (Option.some.inj hqueued).symm⟩
      | _ => cases hqueued
    · cases hrun with
      | absent hnone => simp [hnone]
      | closed hsome hclosed => simp [hsome, hclosed]
      | closes hsome hopen hcloses => exact absurd hcloses (h _ hsome hopen)
      | full hsome hopen hstays =>
          simp [hsome, hopen, open_of_atCheck hopen, hstays.not_closesFirst]
      | room hsome hopen hnot _ _ _ _ =>
          simp [hsome, hopen, open_of_atCheck hopen, hnot]
    · cases hrun with
      | absent hnone => simp [hnone]
      | closed hsome hclosed => simp [hsome, hclosed]
      | closes hsome hopen hcloses => exact absurd hcloses (h _ hsome hopen)
      | full hsome hopen hstays => simp [hsome, hopen, hstays]
      | room hsome hopen _ hstays _ _ _ => simp [hsome, hopen, hstays]
    · intro e a f g hf houtcome hg htracks
      exact hsent.mp (houtcome ▸ outcome_of_tracksAckOf hf hg htracks)

/-- A message without content. -/
def blankContainer : ContainerForModule where
  payload := .messagePreProcess "m"
    { platform := "", rawData := [], rawMessage := "", userUuid7 := "", command := none,
      channelId := "", userData := none } [] ""

/-- A wait for a full channel that ends when the module goes away counts as sent. -/
theorem closedWhileWaiting_sent :
    ¬ ∀ (senders : List (String × BoundedChannel ContainerForModule))
        (moduleName : String) (container : ContainerForModule) (m : Meanwhile),
      OutcomeTrue senders moduleName container m
        (sendToModule senders moduleName container m) := by
  intro h
  have hsent := (h [("a", { queue := [blankContainer], capacity := 1 })] "a"
    blankContainer { waiting := [[.close]] }).sent
  exact absurd hsent (by decide)

end CockatielEngine
