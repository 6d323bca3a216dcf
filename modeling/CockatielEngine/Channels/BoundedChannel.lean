import Mathlib.Data.List.Basic
import Mathlib.Tactic

/-!
# Channels: a bounded channel and a send under a deadline

A send that finds the channel full waits for room.  The wait ends with room, with the
end of the channel, or at the deadline; the first two both end the send in time.
-/

namespace CockatielEngine

universe u

/-- The channel between a sender and a receiver. -/
structure BoundedChannel (α : Type u) where
  queue : List α := []
  capacity : Nat
  closed : Bool := false
deriving DecidableEq, Repr

/-- What others do to a channel. -/
inductive ChannelMove (α : Type u) where
  | receive
  | queued (x : α)
  | close
deriving DecidableEq, Repr

/-- Why a channel does not take a container. -/
inductive ChannelError where
  | full
  | closed
deriving DecidableEq, Repr

namespace BoundedChannel

variable {α : Type u}

def full (ch : BoundedChannel α) : Bool :=
  decide (ch.capacity ≤ ch.queue.length)

def trySend (ch : BoundedChannel α) (x : α) :
    Except ChannelError (BoundedChannel α) :=
  if ch.closed then .error .closed
  else if ch.full then .error .full
  else .ok { ch with queue := ch.queue ++ [x] }

def move (ch : BoundedChannel α) : ChannelMove α → BoundedChannel α
  | .receive => { ch with queue := ch.queue.tail }
  | .queued x =>
      match ch.trySend x with
      | .ok ch' => ch'
      | .error _ => ch
  | .close => { ch with closed := true }

def moves (ch : BoundedChannel α) (ms : List (ChannelMove α)) : BoundedChannel α :=
  ms.foldl move ch

/-- A send that waits, polled at the states of the channel up to the deadline: `none`
when the deadline passes first, else the send's own result. -/
def timedSend (x : α) :
    List (BoundedChannel α) → Option (Except ChannelError (BoundedChannel α))
  | [] => none
  | ch :: polls =>
      match ch.trySend x with
      | .ok ch' => some (.ok ch')
      | .error .closed => some (.error .closed)
      | .error .full => timedSend x polls

/-- The channel is closed at one of the states, and has had no room before. -/
def ClosesFirst : List (BoundedChannel α) → Prop
  | [] => False
  | ch :: polls => ch.closed = true ∨ ch.full = true ∧ ClosesFirst polls

/-- The channel is open and full at all of the states. -/
def StaysFull (polls : List (BoundedChannel α)) : Prop :=
  ∀ ch ∈ polls, ch.closed = false ∧ ch.full = true

instance decidableClosesFirst :
    (polls : List (BoundedChannel α)) → Decidable (ClosesFirst polls)
  | [] => .isFalse id
  | ch :: polls =>
      have := decidableClosesFirst polls
      inferInstanceAs (Decidable (ch.closed = true ∨ ch.full = true ∧ _))

instance (polls : List (BoundedChannel α)) : Decidable (StaysFull polls) :=
  inferInstanceAs (Decidable (∀ _ ∈ _, _))

section Lemmas

variable {ch ch' : BoundedChannel α} {x : α} {polls : List (BoundedChannel α)}
variable {ms : List (ChannelMove α)}

theorem trySend_of_closed
    (h : ch.closed = true) :
    ch.trySend x = .error .closed := by
  simp [trySend, h]

theorem trySend_of_full
    (hopen : ch.closed = false)
    (hfull : ch.full = true) :
    ch.trySend x = .error .full := by
  simp [trySend, hopen, hfull]

theorem trySend_of_room
    (hopen : ch.closed = false)
    (hroom : ch.full = false) :
    ch.trySend x = .ok { ch with queue := ch.queue ++ [x] } := by
  simp [trySend, hopen, hroom]

/-- No move opens a closed channel again. -/
theorem closed_moves
    (h : ch.closed = true) :
    (ch.moves ms).closed = true := by
  induction ms generalizing ch with
  | nil => exact h
  | cons m ms ih =>
      refine ih ?_
      cases m with
      | receive => exact h
      | queued y => simpa [move, trySend_of_closed h] using h
      | close => rfl

/-- The wait ends in time, with an error, exactly when the channel closes first. -/
theorem timedSend_eq_error_iff :
    timedSend x polls = some (.error .closed) ↔ ClosesFirst polls := by
  induction polls with
  | nil => simp [timedSend, ClosesFirst]
  | cons ch polls ih =>
      cases hclosed : ch.closed with
      | true => simp [timedSend, ClosesFirst, trySend_of_closed, hclosed]
      | false =>
          cases hfull : ch.full with
          | true => simp [timedSend, ClosesFirst, trySend_of_full, hclosed, hfull, ih]
          | false => simp [timedSend, ClosesFirst, trySend_of_room, hclosed, hfull]

/-- The deadline passes exactly when the channel stays open and full. -/
theorem timedSend_eq_none_iff :
    timedSend x polls = none ↔ StaysFull polls := by
  induction polls with
  | nil => simp [timedSend, StaysFull]
  | cons ch polls ih =>
      rw [StaysFull, List.forall_mem_cons, ← StaysFull, ← ih]
      cases hclosed : ch.closed with
      | true => simp [timedSend, trySend_of_closed, hclosed]
      | false =>
          cases hfull : ch.full with
          | true => simp [timedSend, trySend_of_full, hclosed, hfull]
          | false => simp [timedSend, trySend_of_room, hclosed, hfull]

/-- A send fails in time only because the channel is closed. -/
theorem error_of_timedSend
    {e : ChannelError}
    (h : timedSend x polls = some (.error e)) :
    e = .closed := by
  induction polls with
  | nil => cases h
  | cons ch polls ih =>
      rw [timedSend] at h
      split at h
      · cases h
      · cases h
        rfl
      · exact ih h

/-- A send that succeeds has queued what it sends where there was room for it. -/
theorem exists_of_timedSend
    (h : timedSend x polls = some (.ok ch')) :
    ∃ ch ∈ polls, ch.closed = false ∧ ch.full = false ∧
      ch' = { ch with queue := ch.queue ++ [x] } := by
  induction polls with
  | nil => cases h
  | cons ch polls ih =>
      cases hclosed : ch.closed with
      | true => simp [timedSend, trySend_of_closed, hclosed] at h
      | false =>
          cases hfull : ch.full with
          | true =>
              simp only [timedSend, trySend_of_full hclosed hfull] at h
              obtain ⟨ch₁, hch₁, hroom⟩ := ih h
              exact ⟨ch₁, List.mem_cons_of_mem _ hch₁, hroom⟩
          | false =>
              simp only [timedSend, trySend_of_room hclosed hfull, Option.some.injEq,
                Except.ok.injEq] at h
              exact ⟨ch, List.mem_cons_self, hclosed, hfull, h.symm⟩

/-- A channel that stays open and full does not close. -/
theorem StaysFull.not_closesFirst
    (h : StaysFull polls) :
    ¬ ClosesFirst polls := by
  induction polls with
  | nil => exact id
  | cons ch polls ih =>
      obtain ⟨hch, hpolls⟩ := List.forall_mem_cons.mp h
      rintro (hclosed | ⟨-, hcloses⟩)
      · simp [hch.1] at hclosed
      · exact ih hpolls hcloses

end Lemmas

end BoundedChannel
end CockatielEngine
