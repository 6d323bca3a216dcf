import Mathlib.Data.List.Basic
import Mathlib.Tactic

/-!
# Channels: the slots that log lines leave free

Log lines share every module's outbound channel with the answers to its queries
and with what is routed to it.  The task that forwards the lines looks at the
free slots of a channel before it tries to send, and everybody else goes on in
between.

A slot is taken by a queued container, or by a send that has waited for room and
has been given it without having put its container there yet.

**Main result.**  However the forwarding interleaves with the other traffic, log
lines never hold a reserved slot: when a container other than a log line finds an
open channel full, others like it hold at least the reserve.
-/

namespace CockatielEngine

inductive Traffic where
  | log
  | other
deriving DecidableEq

/-- One module's outbound channel. -/
structure Outbound where
  queue : List Traffic := []
  /-- The waiting sends that have been given a slot. -/
  granted : Nat := 0
  closed : Bool := false

/-- What is held back from log lines in a channel of the capacity. -/
def logReserveFor (capacity : Nat) : Nat :=
  let capacity := max capacity 1
  min (capacity / 4) (capacity - 1)

namespace Outbound

/-- `Sender::capacity`, the free slots. -/
def freeSlots (ch : Outbound) (size : Nat) : Nat :=
  size - (ch.queue.length + ch.granted)

def trySend (ch : Outbound) (size : Nat) (x : Traffic) : Option Outbound :=
  if ch.closed = false ∧ 0 < ch.freeSlots size then
    some { ch with queue := ch.queue ++ [x] }
  else none

def logs (ch : Outbound) : Nat :=
  ch.queue.count .log

/-- The slots that are taken by something else than log lines. -/
def others (ch : Outbound) : Nat :=
  ch.queue.count .other + ch.granted

end Outbound

/-- What anybody but the forwarding task does to a channel. -/
inductive OutboundMove where
  | trySend
  | grant
  | land
  | giveUp
  | receive
  | close

/-- A move that cannot be made leaves the channel alone. -/
def Outbound.move (ch : Outbound) (size : Nat) : OutboundMove → Outbound
  | .trySend => (ch.trySend size .other).getD ch
  | .grant =>
      if 0 < ch.freeSlots size then { ch with granted := ch.granted + 1 } else ch
  | .land =>
      if 0 < ch.granted then
        { ch with granted := ch.granted - 1, queue := ch.queue ++ [.other] }
      else ch
  | .giveUp => { ch with granted := ch.granted - 1 }
  | .receive => { ch with queue := ch.queue.tail }
  | .close => { ch with closed := true }

/-- Where the forwarding task stands: it waits for a line, it has senders left to
forward it to, or it has found room in a channel and is about to send. -/
inductive LogTask where
  | waiting
  | forwarding (senders : List Nat)
  | sending (k : Nat) (senders : List Nat)

structure LogForwarding where
  channels : Nat → Outbound := fun _ => {}
  task : LogTask := .waiting

inductive LogLabel where
  /-- The next line is taken, together with the senders there are. -/
  | line (senders : List Nat)
  | advance
  | move (k : Nat) (m : OutboundMove)

namespace LogForwarding

variable (size : Nat)

/-- One step of the forwarding task, in channels of `size` slots. -/
def advance (s : LogForwarding) : LogForwarding :=
  match s.task with
  | .waiting => s
  | .forwarding [] => { s with task := .waiting }
  | .forwarding (k :: senders) =>
      if logReserveFor size < (s.channels k).freeSlots size then
        { s with task := .sending k senders }
      else { s with task := .forwarding senders }
  | .sending k senders =>
      { channels := Function.update s.channels k
          (((s.channels k).trySend size .log).getD (s.channels k))
        task := .forwarding senders }

def step (s : LogForwarding) : LogLabel → LogForwarding
  | .line senders =>
      match s.task with
      | .waiting => { s with task := .forwarding senders }
      | _ => s
  | .advance => s.advance size
  | .move k m =>
      { s with
        channels := Function.update s.channels k ((s.channels k).move size m) }

def run (s : LogForwarding) (labels : List LogLabel) : LogForwarding :=
  labels.foldl (step size) s

end LogForwarding

section Reserve

/-- The slots are not overdrawn, and log lines leave the reserve. -/
structure Outbound.Reserves (size : Nat) (ch : Outbound) : Prop where
  within : ch.logs + ch.others ≤ size
  reserve : ch.logs + logReserveFor size ≤ size

/-- The line that is about to be sent fits beside the reserve as well. -/
def LogTask.Fits (size : Nat) (channels : Nat → Outbound) : LogTask → Prop
  | .sending k _ => (channels k).logs + logReserveFor size < size
  | _ => True

structure LogForwarding.Sound (size : Nat) (s : LogForwarding) : Prop where
  reserves : ∀ k, (s.channels k).Reserves size
  fits : s.task.Fits size s.channels

end Reserve

section Lemmas

variable {size k : Nat} {ch ch' : Outbound} {x : Traffic} {m : OutboundMove}
variable {s : LogForwarding}

/-- Log lines can use some slot of every channel. -/
theorem logReserveFor_lt (hsize : 0 < size) : logReserveFor size < size := by
  simp only [logReserveFor]
  omega

namespace Outbound

theorem length_queue (ch : Outbound) :
    ch.queue.length = ch.logs + ch.queue.count .other := by
  unfold logs
  induction ch.queue with
  | nil => rfl
  | cons x queue ih =>
      cases x with
      | log =>
          rw [List.length_cons, List.count_cons_self, List.count_cons_of_ne (by decide)]
          omega
      | other =>
          rw [List.length_cons, List.count_cons_self, List.count_cons_of_ne (by decide)]
          omega

theorem freeSlots_eq (ch : Outbound) (size : Nat) :
    ch.freeSlots size = size - (ch.logs + ch.others) := by
  simp only [freeSlots, others, length_queue, Nat.add_assoc]

theorem logs_queued :
    ({ ch with queue := ch.queue ++ [x] } : Outbound).logs =
      ch.logs + [x].count .log :=
  List.count_append ..

theorem others_queued :
    ({ ch with queue := ch.queue ++ [x] } : Outbound).others =
      ch.others + [x].count .other := by
  simp only [others, List.count_append]
  omega

theorem Reserves.grow
    (h : ch.Reserves size)
    (hlogs : ch'.logs ≤ ch.logs)
    (hwithin : ch'.logs + ch'.others ≤ size) :
    ch'.Reserves size :=
  ⟨hwithin, by have := h.reserve; omega⟩

/-- No move of the others adds a log line. -/
theorem logs_move_le (ch : Outbound) (m : OutboundMove) :
    (ch.move size m).logs ≤ ch.logs := by
  cases m with
  | trySend =>
      simp only [move, trySend]
      split
      · exact (logs_queued (x := .other)).le
      · exact le_refl _
  | grant =>
      simp only [move]
      split <;> exact le_refl _
  | land =>
      simp only [move]
      split
      · exact (logs_queued (x := .other)).le
      · exact le_refl _
  | giveUp => exact le_refl _
  | receive => exact (List.tail_sublist _).count_le _
  | close => exact le_refl _

theorem Reserves.move
    (h : ch.Reserves size) (m : OutboundMove) :
    (ch.move size m).Reserves size := by
  have hwithin := h.within
  refine h.grow (logs_move_le ch m) ?_
  cases m with
  | trySend =>
      simp only [Outbound.move, trySend, freeSlots_eq]
      split
      · rename_i hroom
        have hroom' := hroom.2
        have hlog : [Traffic.other].count .log = 0 := rfl
        have hother : [Traffic.other].count .other = 1 := rfl
        rw [Option.getD_some, logs_queued, others_queued]
        omega
      · exact hwithin
  | grant =>
      simp only [Outbound.move, freeSlots_eq]
      split
      · simp only [logs, others] at hwithin ⊢
        rename_i hroom
        simp only [logs, others] at hroom
        omega
      · exact hwithin
  | land =>
      simp only [Outbound.move]
      split
      · rename_i hgranted
        have hlog : [Traffic.other].count .log = 0 := rfl
        have hother : [Traffic.other].count .other = 1 := rfl
        simp only [logs, others, List.count_append] at hwithin ⊢
        omega
      · exact hwithin
  | giveUp =>
      simp only [Outbound.move, logs, others] at hwithin ⊢
      omega
  | receive =>
      have hlog := (List.tail_sublist ch.queue).count_le Traffic.log
      have hother := (List.tail_sublist ch.queue).count_le Traffic.other
      simp only [Outbound.move, logs, others] at hwithin ⊢
      omega
  | close => exact hwithin

end Outbound

/-- A line is only sent into a channel with more room than the reserve. -/
theorem Outbound.Reserves.sendLine
    (h : ch.Reserves size)
    (hfits : ch.logs + logReserveFor size < size) :
    ((ch.trySend size .log).getD ch).Reserves size := by
  have hwithin := h.within
  simp only [trySend, freeSlots_eq]
  split
  · have hlog : [Traffic.log].count .log = 1 := rfl
    have hother : [Traffic.log].count .other = 0 := rfl
    refine ⟨?_, ?_⟩
    · rw [Option.getD_some, logs_queued, others_queued]
      omega
    · rw [Option.getD_some, logs_queued]
      omega
  · exact h

namespace LogForwarding

theorem Sound.advance (h : s.Sound size) : (s.advance size).Sound size := by
  unfold LogForwarding.advance
  cases htask : s.task with
  | waiting => exact h
  | forwarding senders =>
      cases senders with
      | nil => exact ⟨h.reserves, trivial⟩
      | cons k senders =>
          simp only
          split
          · rename_i hroom
            refine ⟨h.reserves, ?_⟩
            rw [Outbound.freeSlots_eq] at hroom
            simp only [LogTask.Fits]
            omega
          · exact ⟨h.reserves, trivial⟩
  | sending k senders =>
      have hfits := h.fits
      rw [htask] at hfits
      refine ⟨fun k' => ?_, trivial⟩
      by_cases hk : k' = k
      · subst hk
        simpa using (h.reserves k').sendLine hfits
      · simpa [hk] using h.reserves k'

/-- What the others do keeps the room that the task has found for its line. -/
theorem Sound.move
    (h : s.Sound size) (k : Nat) (m : OutboundMove) :
    (s.step size (.move k m)).Sound size := by
  refine ⟨fun k' => ?_, ?_⟩
  · by_cases hk : k' = k
    · subst hk
      simpa [step] using (h.reserves k').move m
    · simpa [step, hk] using h.reserves k'
  · have hfits := h.fits
    simp only [step]
    cases htask : s.task with
    | waiting => trivial
    | forwarding senders => trivial
    | sending k' senders =>
        rw [htask] at hfits
        simp only [LogTask.Fits] at hfits ⊢
        by_cases hk : k' = k
        · subst hk
          have hlogs : ((s.channels k').move size m).logs ≤ (s.channels k').logs :=
            Outbound.logs_move_le _ m
          rw [Function.update_self]
          omega
        · rw [Function.update_of_ne hk]
          exact hfits

theorem Sound.step
    (h : s.Sound size) (l : LogLabel) :
    (s.step size l).Sound size := by
  cases l with
  | line senders =>
      simp only [LogForwarding.step]
      split
      · exact ⟨h.reserves, trivial⟩
      · exact h
  | advance => exact h.advance
  | move k m => exact h.move k m

theorem Sound.run
    (h : s.Sound size) (labels : List LogLabel) :
    (s.run size labels).Sound size := by
  induction labels generalizing s with
  | nil => exact h
  | cons l labels ih => exact ih (h.step l)

theorem sound_start (hsize : 0 < size) : ({} : LogForwarding).Sound size where
  reserves k := ⟨Nat.zero_le _, by
    have := logReserveFor_lt hsize
    simp only [Outbound.logs, List.count_nil]
    omega⟩
  fits := trivial

end LogForwarding

/-- Log lines never take a reserved slot: they hold at most the others, and what
cannot be sent at once to an open channel finds the reserve taken by traffic like
itself. -/
theorem log_lines_leave_reserve
    (hsize : 0 < size)
    (labels : List LogLabel) (k : Nat) :
    let ch := (LogForwarding.run size {} labels).channels k
    ch.logs ≤ size - logReserveFor size ∧
      (ch.closed = false → ch.trySend size .other = none →
        logReserveFor size ≤ ch.others) := by
  have hch := ((LogForwarding.sound_start hsize).run labels).reserves k
  have hwithin := hch.within
  have hreserve := hch.reserve
  refine ⟨by omega, fun hopen hfull => ?_⟩
  have hnone : ¬ 0 < size - (((LogForwarding.run size {} labels).channels k).logs +
      ((LogForwarding.run size {} labels).channels k).others) := by
    rw [← Outbound.freeSlots_eq]
    intro hroom
    rw [Outbound.trySend, if_pos ⟨hopen, hroom⟩] at hfull
    cases hfull
  omega

/-- Lines for one module until its channel takes no more of them. -/
def logStorm : List LogLabel :=
  (List.replicate 8 [.line [0], .advance, .advance, .advance]).flatten

theorem log_lines_leave_reserve_logStorm :
    ((LogForwarding.run 8 {} logStorm).channels 0).logs = 6 ∧
      ((LogForwarding.run 8 {} logStorm).channels 0).logs ≤ 8 - logReserveFor 8 :=
  ⟨by decide, (log_lines_leave_reserve (by decide) logStorm 0).1⟩

end Lemmas

end CockatielEngine
