import Mathlib.Data.List.Basic
import Mathlib.Data.String.Basic
import Mathlib.Tactic

/-!
# Database: the timeline rows the pipeline writes

One row per message, keyed by the message's uuid.  A row is inserted `queued`
and keeps that status while the message is in flight; the terminal write, the
audit hold and its release are the statements that move it.

The definitions follow the SQL statements of the database manager, with a
`NULL` column as `none`.  The columns the pipeline neither reads nor writes are
left out.
-/

namespace CockatielEngine

abbrev Bytes := List UInt8

inductive PipelineStatus where
  | queued
  | processing
  | complete
  | failed
  | dropped
  | audit
deriving DecidableEq, Repr

/-- The terminal state a timeline row ends in. -/
inductive PipelineOutcome where
  | complete
  | failed (error : String)
  | dropped (reason : String)
  | audit (reason : String)
  | auditHeld
deriving DecidableEq, Repr

namespace PipelineOutcome

/-- The status the outcome lands the row on; a held row keeps its own. -/
def status : PipelineOutcome → Option PipelineStatus
  | .complete => some .complete
  | .failed _ => some .failed
  | .dropped _ => some .dropped
  | .audit _ => some .audit
  | .auditHeld => none

def error : PipelineOutcome → Option String
  | .failed e => some e
  | .dropped e => some e
  | .complete => none
  | .audit _ => none
  | .auditHeld => none

end PipelineOutcome

/-- Everything a message's run accumulated. -/
structure PipelineResult where
  processedMessage : Option String := none
  preProcessCompletedAt : Option Nat := none
  inProcessCompletedAt : Option Nat := none
  audio : Option (String × Bytes) := none
  audioTypeMarkers : List String := []
deriving DecidableEq, Repr

structure Row where
  eventType : Int
  platform : String
  rawMessage : String
  command : String
  flags : Option String
  dataBlob : Option Bytes := none
  userUuid7 : Option String := none
  processedMessage : Option String := none
  errorMessage : Option String := none
  preProcessCompletedAt : Option Nat := none
  inProcessCompletedAt : Option Nat := none
  postProcessCompletedAt : Option Nat := none
  persistedAt : Option Nat := none
  pipelineStatus : PipelineStatus := .queued
deriving DecidableEq, Repr

/-- `flags` with text appended to it, as the terminal write's `CASE` has it. -/
def appendFlags (flags : Option String) (joined : String) : String :=
  match flags with
  | none => joined
  | some f => if f = "" then joined else f ++ "," ++ joined

/-- The audio a result lands on the row: bytes and at least one marker. -/
def PipelineResult.storedAudio (result : PipelineResult) :
    Option (String × Bytes) :=
  result.audio.filter fun a => !a.2.isEmpty && !result.audioTypeMarkers.isEmpty

/-- The one statement that ends a message.  A `complete` never lands on a row
that is held for audit; every other outcome lands whatever the row's status. -/
def Row.writeTerminalOutcome (outcome : PipelineOutcome)
    (result : PipelineResult) (now : Nat) (row : Row) : Row :=
  if outcome = .complete ∧ row.pipelineStatus = .audit then row
  else
    { row with
      pipelineStatus := outcome.status.getD row.pipelineStatus
      errorMessage := outcome.error.or row.errorMessage
      processedMessage := result.processedMessage.or row.processedMessage
      preProcessCompletedAt :=
        result.preProcessCompletedAt.or row.preProcessCompletedAt
      inProcessCompletedAt :=
        result.inProcessCompletedAt.or row.inProcessCompletedAt
      postProcessCompletedAt :=
        if outcome = .complete then some now else row.postProcessCompletedAt
      persistedAt := if outcome = .complete then some now else row.persistedAt
      dataBlob := (result.storedAudio.map (·.2)).or row.dataBlob
      flags :=
        match result.storedAudio, outcome with
        | some _, _ =>
            some (appendFlags row.flags
              (String.intercalate "," result.audioTypeMarkers))
        | none, .audit reason => some reason
        | none, _ => row.flags }

def Row.setCommand (command : String) (row : Row) : Row :=
  { row with command := command }

def Row.setUserUuid (userUuid7 : String) (row : Row) : Row :=
  { row with userUuid7 := row.userUuid7.or (some userUuid7) }

/-- Release a held row as `complete` or `failed`. -/
def Row.releaseAudit (approve : Bool) (now : Nat) (row : Row) : Row :=
  if row.pipelineStatus = .audit then
    if approve then
      { row with pipelineStatus := .complete, persistedAt := some now }
    else { row with pipelineStatus := .failed }
  else row

/-- What recovery reads back from a stranded row. -/
structure QueuedMessage where
  eventType : Int
  platform : String
  rawMessage : String
  command : String
  flags : String
  userUuid7 : String
deriving DecidableEq, Repr

/-- The table `timeline_events`, its rows under their primary key. -/
structure Timeline where
  rows : List (String × Row) := []
deriving DecidableEq, Repr

namespace Timeline

def row? (t : Timeline) (uuid7 : String) : Option Row :=
  (t.rows.find? fun r => r.1 = uuid7).map (·.2)

/-- `UPDATE timeline_events SET … WHERE uuid7 = ?`. -/
def update (t : Timeline) (uuid7 : String) (f : Row → Row) : Timeline :=
  { rows := t.rows.map fun r => if r.1 = uuid7 then (r.1, f r.2) else r }

/-- The ingest insert; a key that is already there violates the primary key. -/
def insertEvent (t : Timeline) (uuid7 : String) (row : Row) :
    Option Timeline :=
  if (t.row? uuid7).isSome then none
  else some { rows := t.rows ++ [(uuid7, row)] }

def setCommand (t : Timeline) (uuid7 command : String) : Timeline :=
  t.update uuid7 (Row.setCommand command)

def setUserUuid (t : Timeline) (uuid7 userUuid7 : String) : Timeline :=
  t.update uuid7 (Row.setUserUuid userUuid7)

def writeTerminalOutcome (t : Timeline) (uuid7 : String)
    (outcome : PipelineOutcome) (result : PipelineResult) (now : Nat) :
    Timeline :=
  t.update uuid7 (Row.writeTerminalOutcome outcome result now)

/-- Hold a message for human review. -/
def markAudit (t : Timeline) (uuid7 reason : String) (now : Nat) : Timeline :=
  t.writeTerminalOutcome uuid7 (.audit reason) {} now

def isAudited (t : Timeline) (uuid7 : String) : Bool :=
  (t.row? uuid7).any fun r => r.pipelineStatus = .audit

def releaseAudit (t : Timeline) (uuid7 : String) (approve : Bool) (now : Nat) :
    Timeline :=
  t.update uuid7 (Row.releaseAudit approve now)

def loadQueuedMessage (t : Timeline) (uuid7 : String) : Option QueuedMessage :=
  (t.row? uuid7).bind fun r =>
    if r.pipelineStatus = .queued then
      some { eventType := r.eventType
             platform := r.platform
             rawMessage := r.rawMessage
             command := r.command
             flags := r.flags.getD ""
             userUuid7 := r.userUuid7.getD "" }
    else none

/-- The keys of the rows still `queued`, in ascending order. -/
def getQueuedUuids (t : Timeline) : List String :=
  ((t.rows.filter fun r => r.2.pipelineStatus = .queued).map (·.1)).insertionSort
    (· ≤ ·)

/-! ## Lookup after each statement -/

theorem row?_map_update
    (rows : List (String × Row)) (uuid7 v : String) (f : Row → Row) :
    row? (update ⟨rows⟩ uuid7 f) v =
      if v = uuid7 then (row? ⟨rows⟩ v).map f else row? ⟨rows⟩ v := by
  simp only [row?, update]
  induction rows with
  | nil =>
      simp
  | cons r rest ih =>
      by_cases hr : r.1 = v
      · subst hr
        by_cases hu : r.1 = uuid7 <;> simp [hu]
      · have hkey :
            (if r.1 = uuid7 then (r.1, f r.2) else r).1 = r.1 := by
          split <;> rfl
        simpa [List.find?_cons, hkey, hr] using ih

@[simp] theorem row?_update
    (t : Timeline) (uuid7 v : String) (f : Row → Row) :
    (t.update uuid7 f).row? v =
      if v = uuid7 then (t.row? v).map f else t.row? v :=
  row?_map_update t.rows uuid7 v f

theorem row?_insertEvent
    {t t' : Timeline} {uuid7 : String} {row : Row}
    (h : t.insertEvent uuid7 row = some t') (v : String) :
    t'.row? v = if v = uuid7 then some row else t.row? v := by
  unfold insertEvent at h
  split at h
  · cases h
  · rename_i hnone
    obtain rfl := Option.some.inj h
    have hfresh : t.rows.find? (fun r => r.1 = uuid7) = none :=
      Option.map_eq_none_iff.mp (Option.not_isSome_iff_eq_none.mp hnone)
    by_cases hv : v = uuid7
    · subst hv
      simp [row?, List.find?_append, hfresh]
    · simp [row?, List.find?_append, hv, Ne.symm hv]

theorem isAudited_iff
    (t : Timeline) (uuid7 : String) :
    t.isAudited uuid7 = true ↔
      ∃ r, t.row? uuid7 = some r ∧ r.pipelineStatus = .audit := by
  cases h : t.row? uuid7 <;> simp [isAudited, h]

end Timeline
end CockatielEngine
