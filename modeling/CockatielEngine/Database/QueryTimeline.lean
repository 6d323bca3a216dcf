import CockatielEngine.Database.KeyStorage
import CockatielEngine.Text.Like
import CockatielEngine.Text.UuidText

/-!
# Database: `query_timeline` and the filters of a `TimelineQuery`

A module's query is translated twice: the wire message to optional arguments,
and the arguments to the clauses of a `SELECT`.  Reading and writing a uuid as
text belongs to a library and is a parameter here, as is the folding of letters
that `LIKE` works with.
-/

namespace CockatielEngine

section Wire

structure TimelineQuery where
  timelineIdUuid7 : String := ""
  eventType : Int := 0
  platform : String := ""
  userUuid7 : String := ""
  kind : String := ""
  rawPrefix : String := ""
  sinceMs : Int := 0
  pipelineStatus : String := ""
  limit : Int := 0
  offset : Int := 0
  requestId : String := ""
deriving DecidableEq, Repr

structure TimelineEvent where
  timelineIdUuid7 : String
  eventType : Int
  commandFlag : String
  dataBlob : Bytes := []
  errorMessage : String
  rawFlags : String
  messageOrigin : String := ""
  streamOrigin : String
  rawMessage : String
  processedMessage : String
  userUuid7 : String
  version : Nat := 0
  pipelineStatus : String
deriving DecidableEq, Repr

structure TimelineQueryResult where
  events : List TimelineEvent
  truncated : Bool := false
  requestId : String
deriving DecidableEq, Repr

/-- What the engine does with a query: the reply it sends, or what it logs. -/
inductive TimelineAnswer where
  | reply (result : TimelineQueryResult)
  | log (text : String)
deriving DecidableEq, Repr

end Wire

section Table

/-- The columns of `timeline_events` that a query reads. -/
structure TimelineRow where
  uuid7 : SqlValue
  eventType : Int := 1
  platform : Option String := none
  rawMessage : String
  command : Option String := none
  flags : Option String := none
  dataBlob : Option Bytes := none
  userUuid7 : Option String := none
  processedMessage : Option String := none
  errorMessage : Option String := none
  persistedAt : Option Int := none
  pipelineStatus : String := "queued"
deriving DecidableEq, Repr

/-- The rows, with the primary key kept. -/
structure TimelineTable where
  rows : List TimelineRow
  unique : ((rows.map (·.uuid7)).filter (· ≠ .null)).Nodup

/-- The arguments of `query_timeline`; `none` means any. -/
structure TimelineFilter where
  timelineIdUuid7 : Option Bytes
  eventType : Option Int
  platform : Option String
  userUuid7 : Option String
  kind : Option String
  rawPrefix : Option String
  sinceMs : Option Int
  pipelineStatus : Option String
  limit : Int
  offset : Int
deriving DecidableEq, Repr

/-- A row as `query_timeline` writes it out. -/
structure TimelineJson where
  timelineIdUuid7 : String
  eventType : Int
  platform : Option String
  rawMessage : String
  command : Option String
  flags : Option String
  dataBlob : Option Bytes
  userUuid7 : Option String
  processedMessage : Option String
  errorMessage : Option String
  persistedAt : Option Int
  pipelineStatus : Option String
deriving DecidableEq, Repr

/-- A filter that was not supplied, or a check of the one that was. -/
def meets {α : Type} (filter : Option α) (check : α → Bool) : Bool :=
  filter.all check

/-- The patterns of `LIKE`, with the folding of the database. -/
def sqlLike (fold : Char → Char) : LikeRules Char Char where
  many := '%'
  single := '_'
  fold := fold

variable (fold : Char → Char)

/-- `column LIKE pattern`; a `NULL` is like nothing. -/
def likeColumn (pattern : List Char) (column : Option String) : Bool :=
  column.any fun s => (sqlLike fold).like pattern s.toList

/-- The clauses of the statement. -/
def TimelineFilter.admits (f : TimelineFilter) (row : TimelineRow) : Bool :=
  meets f.timelineIdUuid7 (fun id => row.uuid7 = .blob id) &&
  meets f.eventType (fun et => row.eventType = et) &&
  meets f.platform (fun p => row.platform = some p) &&
  meets f.userUuid7 (fun u => row.userUuid7 = some u) &&
  meets f.kind (fun k => likeColumn fold ('%' :: (k.toList ++ ['%'])) row.flags) &&
  meets f.rawPrefix (fun p =>
    likeColumn fold (p.toList ++ ['%']) (some row.rawMessage)) &&
  meets f.sinceMs (fun ts => row.persistedAt.any fun persisted => ts ≤ persisted) &&
  meets f.pipelineStatus (fun ps => row.pipelineStatus = ps)

/-- `LIMIT`: a fetch of one event ignores the pagination. -/
def TimelineFilter.limitRows (f : TimelineFilter) : Nat :=
  if f.timelineIdUuid7.isSome then 1
  else if f.limit ≤ 0 then 100
  else (min f.limit 500).toNat

/-- `OFFSET`. -/
def TimelineFilter.offsetRows (f : TimelineFilter) : Nat :=
  if f.timelineIdUuid7.isSome then 0 else (max f.offset 0).toNat

/-- `ORDER BY persisted_at DESC`, with `NULL` last. -/
def newestFirst (r r' : TimelineRow) : Prop :=
  match r.persistedAt, r'.persistedAt with
  | _, none => True
  | none, some _ => False
  | some t, some t' => t' ≤ t

instance (r r' : TimelineRow) : Decidable (newestFirst r r') := by
  unfold newestFirst
  split <;> infer_instance

/-- The rows the statement selects; rows of one time stay as they are stored. -/
def selectRows (t : TimelineTable) (f : TimelineFilter) : List TimelineRow :=
  (((t.rows.filter (f.admits fold)).insertionSort newestFirst).drop
    f.offsetRows).take f.limitRows

variable (uuid : UuidText)

/-- The id reported for a row. -/
def idHex (row : TimelineRow) : String :=
  match row.uuid7 with
  | .blob b => ((Uuid.fromSlice b).map uuid.toStr).getD ""
  | _ => ""

def TimelineRow.json (row : TimelineRow) : TimelineJson where
  timelineIdUuid7 := idHex uuid row
  eventType := row.eventType
  platform := row.platform
  rawMessage := row.rawMessage
  command := row.command
  flags := row.flags
  dataBlob := row.dataBlob
  userUuid7 := row.userUuid7
  processedMessage := row.processedMessage
  errorMessage := row.errorMessage
  persistedAt := row.persistedAt
  pipelineStatus := some row.pipelineStatus

def queryTimeline (conn : Option TimelineTable) (f : TimelineFilter) :
    Except String (List TimelineJson) :=
  match conn with
  | none => .error "Local database not initialized"
  | some t => .ok ((selectRows fold t f).map (TimelineRow.json uuid))

/-- The event that is sent for a row. -/
def TimelineJson.event (row : TimelineJson) : TimelineEvent where
  timelineIdUuid7 := row.timelineIdUuid7
  eventType := row.eventType
  commandFlag := row.command.getD ""
  errorMessage := row.errorMessage.getD ""
  rawFlags := row.flags.getD ""
  streamOrigin := row.platform.getD ""
  rawMessage := row.rawMessage
  processedMessage := row.processedMessage.getD ""
  userUuid7 := row.userUuid7.getD ""
  pipelineStatus := row.pipelineStatus.getD ""

/-- A text that may be empty, as an argument. -/
def nonEmpty (s : String) : Option String :=
  if s = "" then none else some s

/-- A number that may be zero, as an argument. -/
def nonZero (n : Int) : Option Int :=
  if n = 0 then none else some n

/-- The arguments a query is translated to. -/
def TimelineQuery.filter (q : TimelineQuery) : TimelineFilter where
  timelineIdUuid7 :=
    if q.timelineIdUuid7 = "" then none
    else (uuid.parseStr q.timelineIdUuid7).map (·.1)
  eventType := nonZero q.eventType
  platform := nonEmpty q.platform
  userUuid7 := nonEmpty q.userUuid7
  kind := nonEmpty q.kind
  rawPrefix := nonEmpty q.rawPrefix
  sinceMs := nonZero q.sinceMs
  pipelineStatus := nonEmpty q.pipelineStatus
  limit := q.limit
  offset := q.offset

/-- The engine's answer to a `TimelineQuery`. -/
def timelineQueryArm (conn : Option TimelineTable) (q : TimelineQuery) :
    TimelineAnswer :=
  match queryTimeline fold uuid conn (q.filter uuid) with
  | .ok rows =>
      .reply { events := rows.map TimelineJson.event, requestId := q.requestId }
  | .error e => .log ("TimelineQuery failed: " ++ e)

/-- The rows a reply is made of. -/
def repliedRows (t : TimelineTable) (q : TimelineQuery) : List TimelineRow :=
  selectRows fold t (q.filter uuid)

/-- A reply has one event for each of its rows. -/
theorem timelineQueryArm_some
    (t : TimelineTable) (q : TimelineQuery) :
    timelineQueryArm fold uuid (some t) q =
      .reply {
        events := (repliedRows fold uuid t q).map fun row => (row.json uuid).event
        requestId := q.requestId } := by
  simp [timelineQueryArm, queryTimeline, repliedRows]

end Table

end CockatielEngine
