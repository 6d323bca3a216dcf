import Mathlib.Data.List.Basic
import Mathlib.Tactic

/-!
# Pipeline: the table of pending acks

`AckTracker` records, for every stage message the engine has sent, the module
that still owes an answer.  The engine keeps the entries of a message in one
vector of a hash map keyed by the message; here the whole table is one list and
`entries` is the vector of a message, in the order the entries were pushed.

Times are milliseconds of one monotone clock.
-/

namespace CockatielEngine

/-- The stage names that pending acks and stage messages carry. -/
inductive Stage where
  | preProcess
  | inProcess
  | postProcess
deriving DecidableEq, Repr

instance : Fintype Stage where
  elems := {.preProcess, .inProcess, .postProcess}
  complete stage := by cases stage <;> simp

/-- The stage name as it is spelled on the wire and in the table. -/
def Stage.asStr : Stage → String
  | .preProcess => "pre_process"
  | .inProcess => "in_process"
  | .postProcess => "post_process"

/-- One outstanding stage message. -/
structure PendingAck where
  uuid7 : String
  stage : Stage
  moduleName : String
  sentAt : Nat
  timeout : Nat
  receiptReceived : Bool
  resendCount : Nat
deriving DecidableEq, Repr

/-- The clock of the entry has run out at time `now`. -/
def PendingAck.expired (now : Nat) (e : PendingAck) : Bool :=
  decide (e.timeout < now - e.sentAt)

/-- The entry belongs to `moduleName`'s work on the message `uuid7`. -/
def PendingAck.isFor (uuid7 moduleName : String) (e : PendingAck) : Bool :=
  decide (e.uuid7 = uuid7 ∧ e.moduleName = moduleName)

structure AckTracker where
  pending : List PendingAck
deriving DecidableEq, Repr

namespace AckTracker

def new : AckTracker :=
  { pending := [] }

/-- The entries the table holds for `uuid7`. -/
def entries (t : AckTracker) (uuid7 : String) : List PendingAck :=
  t.pending.filter fun e => e.uuid7 = uuid7

def track (t : AckTracker) (now : Nat)
    (uuid7 : String) (stage : Stage) (moduleName : String)
    (timeoutMs : Nat) : AckTracker :=
  { pending := t.pending ++
      [{ uuid7, stage, moduleName
         sentAt := now
         timeout := timeoutMs
         receiptReceived := false
         resendCount := 0 }] }

/-- Mark the first entry that satisfies `p`. -/
def markFirst (p : PendingAck → Bool) : List PendingAck → List PendingAck
  | [] => []
  | e :: rest =>
      if p e then { e with receiptReceived := true } :: rest
      else e :: markFirst p rest

def markReceipt (t : AckTracker) (uuid7 moduleName : String) : AckTracker :=
  { pending := markFirst (PendingAck.isFor uuid7 moduleName) t.pending }

/-- The fresh entry a re-send leaves in place of the expired one. -/
def freshEntry (now : Nat) (e : PendingAck) : PendingAck :=
  { e with
    sentAt := now
    receiptReceived := false
    resendCount := e.resendCount + 1 }

def reTrack (t : AckTracker) (now : Nat) (e : PendingAck) : AckTracker :=
  { pending := t.pending ++ [freshEntry now e] }

/-- Remove every entry of the message. -/
def ack (t : AckTracker) (uuid7 : String) : AckTracker :=
  { pending := t.pending.filter fun e => e.uuid7 ≠ uuid7 }

def hasPending (t : AckTracker) (uuid7 : String) : Bool :=
  t.pending.any fun e => e.uuid7 = uuid7

/-- Remove the acking module's entries for the message.  The answer is the
stage of the first of them, the time since it was sent and whether the message
still has a pending entry; there is no answer when the module owes none. -/
def ackModule (t : AckTracker) (now : Nat) (uuid7 moduleName : String) :
    Option (Stage × Nat × Bool) × AckTracker :=
  match t.pending.find? (PendingAck.isFor uuid7 moduleName) with
  | none => (none, t)
  | some entry =>
      let rest : AckTracker :=
        { pending := t.pending.filter fun e => !e.isFor uuid7 moduleName }
      (some (entry.stage, now - entry.sentAt, rest.hasPending uuid7), rest)

/-- Drain every expired entry, each with whether its message still has a
pending entry after the drain. -/
def checkTimeouts (t : AckTracker) (now : Nat) :
    List (PendingAck × Bool) × AckTracker :=
  let rest : AckTracker :=
    { pending := t.pending.filter fun e => !e.expired now }
  ((t.pending.filter (PendingAck.expired now)).map
    fun e => (e, rest.hasPending e.uuid7), rest)

def isPendingFor (t : AckTracker)
    (uuid7 moduleName : String) (stage : Stage) : Bool :=
  t.pending.any fun e => e.isFor uuid7 moduleName && decide (e.stage = stage)

def restartClocks (t : AckTracker) (now : Nat) : AckTracker :=
  { pending := t.pending.map fun e => { e with sentAt := now } }

/-! ## Membership after each operation -/

@[simp] theorem mem_track_iff
    (t : AckTracker) (now : Nat) (uuid7 : String) (stage : Stage)
    (moduleName : String) (timeoutMs : Nat) (e : PendingAck) :
    e ∈ (t.track now uuid7 stage moduleName timeoutMs).pending ↔
      e ∈ t.pending ∨
        e = { uuid7, stage, moduleName
              sentAt := now
              timeout := timeoutMs
              receiptReceived := false
              resendCount := 0 } := by
  simp [track]

@[simp] theorem mem_reTrack_iff
    (t : AckTracker) (now : Nat) (x e : PendingAck) :
    e ∈ (t.reTrack now x).pending ↔
      e ∈ t.pending ∨ e = freshEntry now x := by
  simp [reTrack]

@[simp] theorem mem_ack_iff
    (t : AckTracker) (uuid7 : String) (e : PendingAck) :
    e ∈ (t.ack uuid7).pending ↔ e ∈ t.pending ∧ e.uuid7 ≠ uuid7 := by
  simp [ack]

theorem hasPending_iff
    (t : AckTracker) (uuid7 : String) :
    t.hasPending uuid7 = true ↔ ∃ e ∈ t.pending, e.uuid7 = uuid7 := by
  simp [hasPending]

theorem hasPending_eq_false_iff
    (t : AckTracker) (uuid7 : String) :
    t.hasPending uuid7 = false ↔ ∀ e ∈ t.pending, e.uuid7 ≠ uuid7 := by
  simp [hasPending]

theorem isPendingFor_iff
    (t : AckTracker) (uuid7 moduleName : String) (stage : Stage) :
    t.isPendingFor uuid7 moduleName stage = true ↔
      ∃ e ∈ t.pending,
        e.uuid7 = uuid7 ∧ e.moduleName = moduleName ∧ e.stage = stage := by
  simp [isPendingFor, PendingAck.isFor, and_assoc]

/-- Marking a receipt keeps every entry up to its receipt flag. -/
theorem mem_markFirst
    {p : PendingAck → Bool} {l : List PendingAck} {e : PendingAck}
    (he : e ∈ markFirst p l) :
    ∃ x ∈ l, e = x ∨ e = { x with receiptReceived := true } := by
  induction l with
  | nil =>
      simp [markFirst] at he
  | cons y rest ih =>
      simp only [markFirst] at he
      split at he
      · rcases List.mem_cons.mp he with rfl | he
        · exact ⟨y, by simp, Or.inr rfl⟩
        · exact ⟨e, by simp [he], Or.inl rfl⟩
      · rcases List.mem_cons.mp he with rfl | he
        · exact ⟨e, by simp, Or.inl rfl⟩
        · obtain ⟨x, hx, hxe⟩ := ih he
          exact ⟨x, List.mem_cons_of_mem _ hx, hxe⟩

/-- Marking a receipt drops no entry. -/
theorem exists_mem_markFirst
    {p : PendingAck → Bool} {l : List PendingAck} {x : PendingAck}
    (hx : x ∈ l) :
    ∃ e ∈ markFirst p l, e = x ∨ e = { x with receiptReceived := true } := by
  induction l with
  | nil =>
      simp at hx
  | cons y rest ih =>
      simp only [markFirst]
      split
      · rcases List.mem_cons.mp hx with rfl | hx
        · exact ⟨_, by simp, Or.inr rfl⟩
        · exact ⟨x, by simp [hx], Or.inl rfl⟩
      · rcases List.mem_cons.mp hx with rfl | hx
        · exact ⟨x, by simp, Or.inl rfl⟩
        · obtain ⟨e, he, hex⟩ := ih hx
          exact ⟨e, List.mem_cons_of_mem _ he, hex⟩

/-- Marking a receipt marks an entry of the module, if it has one. -/
theorem exists_marked_markFirst
    {p : PendingAck → Bool} {l : List PendingAck} {x : PendingAck}
    (hx : x ∈ l)
    (hp : p x = true) :
    ∃ e ∈ markFirst p l,
      (∃ y ∈ l, p y = true ∧ e = { y with receiptReceived := true }) := by
  induction l with
  | nil =>
      simp at hx
  | cons y rest ih =>
      simp only [markFirst]
      split
      · rename_i hy
        exact ⟨_, by simp, y, by simp, hy, rfl⟩
      · rename_i hy
        rcases List.mem_cons.mp hx with rfl | hx
        · exact absurd hp hy
        · obtain ⟨e, he, z, hz, hpz, rfl⟩ := ih hx
          exact ⟨_, List.mem_cons_of_mem _ he, z, List.mem_cons_of_mem _ hz, hpz,
            rfl⟩

/-- Everything an ack can answer: the module owed nothing, or all of its
entries for the message are gone. -/
theorem ackModule_cases
    (t : AckTracker) (now : Nat) (uuid7 moduleName : String) :
    (t.ackModule now uuid7 moduleName = (none, t) ∧
      ∀ e ∈ t.pending, e.isFor uuid7 moduleName = false) ∨
    ∃ entry ∈ t.pending, ∃ rest : AckTracker,
      entry.uuid7 = uuid7 ∧ entry.moduleName = moduleName ∧
      rest.pending = t.pending.filter (fun e => !e.isFor uuid7 moduleName) ∧
      t.ackModule now uuid7 moduleName =
        (some (entry.stage, now - entry.sentAt, rest.hasPending uuid7), rest) := by
  cases h : t.pending.find? (PendingAck.isFor uuid7 moduleName) with
  | none =>
      refine Or.inl ⟨by simp [ackModule, h], fun e he => ?_⟩
      simpa using List.find?_eq_none.mp h e he
  | some entry =>
      have hfor := List.find?_some h
      simp only [PendingAck.isFor, decide_eq_true_eq] at hfor
      exact Or.inr ⟨entry, List.mem_of_find?_eq_some h, _, hfor.1, hfor.2, rfl,
        by simp [ackModule, h]⟩

@[simp] theorem mem_checkTimeouts_rest_iff
    (t : AckTracker) (now : Nat) (e : PendingAck) :
    e ∈ (t.checkTimeouts now).2.pending ↔
      e ∈ t.pending ∧ e.expired now = false := by
  simp [checkTimeouts]

/-- What a sweep reports about an entry. -/
theorem mem_checkTimeouts_iff
    (t : AckTracker) (now : Nat) (e : PendingAck) (still : Bool) :
    (e, still) ∈ (t.checkTimeouts now).1 ↔
      e ∈ t.pending ∧ e.expired now = true ∧
        still = (t.checkTimeouts now).2.hasPending e.uuid7 := by
  simp only [checkTimeouts, List.mem_map, List.mem_filter, Prod.mk.injEq]
  constructor
  · rintro ⟨x, ⟨hx, hexp⟩, rfl, rfl⟩
    exact ⟨hx, hexp, rfl⟩
  · rintro ⟨hx, hexp, rfl⟩
    exact ⟨e, ⟨hx, hexp⟩, rfl, rfl⟩

theorem mem_restartClocks_iff
    (t : AckTracker) (now : Nat) (e : PendingAck) :
    e ∈ (t.restartClocks now).pending ↔
      ∃ x ∈ t.pending, e = { x with sentAt := now } := by
  simp [restartClocks, eq_comm]

end AckTracker
end CockatielEngine
