import CockatielEngine.Queries.UserdbFamily
import CockatielEngine.Maps.Bindings

/-!
# Queries: the stream control and its statuses

The operator writes what a stream should look like; every write is a new revision
and drops what the adapters have reported about the one before.  An adapter
reports, under its platform, the revision that it has applied.  The report is
stored as it comes, also when it is about another revision.
-/

namespace CockatielEngine

namespace Json

def asU64 (j : Json) : Option Nat :=
  (j.asInt.filter fun n => decide (0 ≤ n ∧ n < 2 ^ 64)).map Int.toNat

end Json

structure StreamControl where
  title : String := ""
  scheduledStartMs : Int := 0
  thumbnailPath : String := ""
  revision : Nat := 0
  updatedAtMs : Int := 0
deriving DecidableEq, Repr

structure StreamControlStatus where
  platform : String
  revision : Nat
  ok : Bool
  message : String
  appliedAtMs : Int
deriving DecidableEq, Repr

/-- The control, the last status of every platform, and where the control is
persisted. -/
structure StreamSchedule where
  control : StreamControl := {}
  statuses : List (String × StreamControlStatus) := []
  persistPath : Option String := none

namespace StreamSchedule

/-- The schedule at startup: the control that the file holds, if it can be
read. -/
def load (path : String) (stored : Option StreamControl) : StreamSchedule :=
  { control := stored.getD {}, persistPath := some path }

/-- What the operator reads and the adapters poll. -/
def toJson (st : StreamSchedule) : Json :=
  .obj [("title", .str st.control.title),
    ("scheduled_start_ms", .num (some st.control.scheduledStartMs)),
    ("thumbnail_path", .str st.control.thumbnailPath),
    ("revision", .num (some st.control.revision)),
    ("updated_at_ms", .num (some st.control.updatedAtMs)),
    ("statuses", .arr (st.statuses.map fun s =>
      .obj [("platform", .str s.2.platform), ("revision", .num (some s.2.revision)),
        ("ok", .bool s.2.ok), ("message", .str s.2.message),
        ("applied_at_ms", .num (some s.2.appliedAtMs))]))]

/-- The file that a save writes, and its content. -/
def save (st : StreamSchedule) : Option (String × Json) :=
  st.persistPath.map fun path =>
    (path, .obj [("title", .str st.control.title),
      ("scheduled_start_ms", .num (some st.control.scheduledStartMs)),
      ("thumbnail_path", .str st.control.thumbnailPath),
      ("revision", .num (some st.control.revision)),
      ("updated_at_ms", .num (some st.control.updatedAtMs))])

end StreamSchedule

/-- What a call answers, the schedule that it leaves, and the file that it
writes. -/
structure StreamControlEnd where
  outcome : Except QueryError Json
  schedule : StreamSchedule
  saved : Option (String × Json) := none

/-- The control with the values that a payload brings, as the next revision. -/
def StreamControl.merge (c : StreamControl) (payload : Json) (now : Int) :
    StreamControl where
  title := ((payload.get "title").bind Json.asStr).getD c.title
  scheduledStartMs :=
    ((payload.get "scheduled_start_ms").bind Json.asI64).getD c.scheduledStartMs
  thumbnailPath := ((payload.get "thumbnail_path").bind Json.asStr).getD c.thumbnailPath
  revision := (c.revision + 1) % 2 ^ 64
  updatedAtMs := now

/-- `stream_control`. -/
def streamControlWrite (parse : ParseJson) (now : Int) (st : StreamSchedule)
    (sql : String) : StreamControlEnd :=
  match parse sql with
  | .error e =>
      { outcome := .error ("stream_control: invalid JSON: " ++ e), schedule := st }
  | .ok payload =>
      let st := { st with control := st.control.merge payload now, statuses := [] }
      { outcome := .ok st.toJson, schedule := st, saved := st.save }

/-- `stream_schedule`. -/
def streamScheduleRead (st : StreamSchedule) : StreamControlEnd :=
  { outcome := .ok st.toJson, schedule := st }

/-- The revision that a report is about; without one it is taken for 0. -/
def reportedRevision (payload : Json) : Nat :=
  ((payload.get "revision").bind Json.asU64).getD 0

/-- `stream_control_status`. -/
def streamControlStatusWrite (parse : ParseJson) (now : Int) (st : StreamSchedule)
    (sql : String) : StreamControlEnd :=
  match parse sql with
  | .error e =>
      { outcome := .error ("stream_control_status: invalid JSON: " ++ e)
        schedule := st }
  | .ok payload =>
      let platform := payload.text "platform"
      if platform = "" then
        { outcome := .error "stream_control_status: missing 'platform'"
          schedule := st }
      else
        let status : StreamControlStatus :=
          { platform := platform
            revision := reportedRevision payload
            ok := payload.flag "ok"
            message := payload.text "message"
            appliedAtMs := now }
        { outcome := .ok (.obj [("success", .bool true)])
          schedule :=
            { st with statuses := Bindings.insert st.statuses platform status } }

/-- A call of the operator or of an adapter, and when it is made. -/
inductive StreamControlCall where
  | write (now : Int) (sql : String)
  | status (now : Int) (sql : String)
  | read
deriving DecidableEq, Repr

namespace StreamSchedule

def step (parse : ParseJson) (st : StreamSchedule) : StreamControlCall → StreamSchedule
  | .write now sql => (streamControlWrite parse now st sql).schedule
  | .status now sql => (streamControlStatusWrite parse now st sql).schedule
  | .read => (streamScheduleRead st).schedule

/-- The schedule after calls in this order. -/
def after (parse : ParseJson) (st : StreamSchedule) (calls : List StreamControlCall) :
    StreamSchedule :=
  calls.foldl (step parse) st

/-- Every stored status is about the current revision. -/
def StatusesCurrent (st : StreamSchedule) : Prop :=
  ∀ s ∈ st.statuses, s.2.revision = st.control.revision

end StreamSchedule

/-- A report that names a platform is about the current revision. -/
def ReportsCurrent (parse : ParseJson) (st : StreamSchedule) :
    StreamControlCall → Prop
  | .status _ sql =>
      ∀ payload, parse sql = .ok payload → payload.text "platform" ≠ "" →
        reportedRevision payload = st.control.revision
  | _ => True

section Schedules

variable {parse : ParseJson} {st : StreamSchedule} {now : Int} {sql : String}
variable {call : StreamControlCall} {calls : List StreamControlCall}

/-- A write leaves no status, or the schedule as it was. -/
theorem statusesCurrent_write
    (h : st.StatusesCurrent) :
    (streamControlWrite parse now st sql).schedule.StatusesCurrent := by
  unfold streamControlWrite
  split
  · exact h
  · exact fun s hs => absurd hs List.not_mem_nil

/-- A report keeps the statuses current when it is about the current revision
itself, and only then. -/
theorem statusesCurrent_status_iff
    (h : st.StatusesCurrent) :
    (streamControlStatusWrite parse now st sql).schedule.StatusesCurrent ↔
      ReportsCurrent parse st (.status now sql) := by
  unfold streamControlStatusWrite ReportsCurrent
  cases hparse : parse sql with
  | error e => exact iff_of_true h fun payload hpayload => by simp [hparse] at hpayload
  | ok payload =>
      by_cases hplatform : payload.text "platform" = ""
      · simp only [hplatform, if_true, hparse, Except.ok.injEq, forall_eq']
        exact iff_of_true h fun hne => absurd rfl hne
      · simp only [hplatform, if_false, hparse, StreamSchedule.StatusesCurrent,
          Bindings.mem_insert_iff, Except.ok.injEq, forall_eq', ne_eq,
          not_false_eq_true, forall_true_left]
        constructor
        · intro hall
          exact hall _ (Or.inl rfl)
        · rintro hreport s (rfl | ⟨hs, -⟩)
          · exact hreport
          · exact h s hs

/-- A call keeps the statuses current unless it reports another revision. -/
theorem statusesCurrent_step_iff
    (h : st.StatusesCurrent) :
    (st.step parse call).StatusesCurrent ↔ ReportsCurrent parse st call := by
  cases call with
  | write now sql => exact iff_of_true (statusesCurrent_write h) trivial
  | status now sql => exact statusesCurrent_status_iff h
  | read => exact iff_of_true h trivial

theorem StreamSchedule.after_concat :
    st.after parse (calls ++ [call]) = (st.after parse calls).step parse call := by
  simp [StreamSchedule.after]

theorem statusesCurrent_load
    (path : String)
    (stored : Option StreamControl) :
    (StreamSchedule.load path stored).StatusesCurrent :=
  fun _ hs => absurd hs List.not_mem_nil

end Schedules

/-- From any startup on, every stored status is about the current revision at all
times exactly if every report that is taken is about the revision that is current
when it is taken. -/
theorem statusesCurrent_iff_reportsCurrent
    (parse : ParseJson)
    (path : String)
    (stored : Option StreamControl)
    (calls : List StreamControlCall) :
    (∀ before, before <+: calls →
      ((StreamSchedule.load path stored).after parse before).StatusesCurrent) ↔
      ∀ before call, before ++ [call] <+: calls →
        ReportsCurrent parse ((StreamSchedule.load path stored).after parse before)
          call := by
  constructor
  · intro hcurrent before call hcall
    have hbefore := (List.prefix_append before [call]).trans hcall
    rw [← statusesCurrent_step_iff (hcurrent before hbefore),
      ← StreamSchedule.after_concat]
    exact hcurrent _ hcall
  · intro hreports before
    induction before using List.reverseRecOn with
    | nil => exact fun _ => statusesCurrent_load path stored
    | append_singleton before call ih =>
        intro hcall
        have hbefore := (List.prefix_append before [call]).trans hcall
        rw [StreamSchedule.after_concat, statusesCurrent_step_iff (ih hbefore)]
        exact hreports before call hcall

section LateReport

/-- A parser for the texts of a late report. -/
def lateReportTexts : ParseJson
  | "\x7b\"title\":\"a\"\x7d" => .ok (.obj [("title", .str "a")])
  | "\x7b\"platform\":\"youtube\",\"revision\":1,\"ok\":true\x7d" =>
      .ok (.obj [("platform", .str "youtube"), ("revision", .num (some 1)),
        ("ok", .bool true)])
  | _ => .error "not one of them"

/-- The adapter reports the first revision after the second was written. -/
def lateReport : List StreamControlCall :=
  [.write 0 "\x7b\"title\":\"a\"\x7d", .write 1 "\x7b\"title\":\"a\"\x7d",
    .status 2 "\x7b\"platform\":\"youtube\",\"revision\":1,\"ok\":true\x7d"]

/-- The report is stored beside a control that it is not about. -/
theorem not_statusesCurrent_lateReport :
    ((StreamSchedule.load "stream_schedule.json" none).after lateReportTexts
        lateReport).control.revision = 2 ∧
      ((StreamSchedule.load "stream_schedule.json" none).after lateReportTexts
        lateReport).statuses = [("youtube", ⟨"youtube", 1, true, "", 2⟩)] ∧
      ¬ ((StreamSchedule.load "stream_schedule.json" none).after lateReportTexts
        lateReport).StatusesCurrent := by
  have hstatuses : ((StreamSchedule.load "stream_schedule.json" none).after
      lateReportTexts lateReport).statuses =
        [("youtube", ⟨"youtube", 1, true, "", 2⟩)] := by decide
  refine ⟨by decide, hstatuses, fun h => ?_⟩
  have hrevision := h ("youtube", ⟨"youtube", 1, true, "", 2⟩)
    (by rw [hstatuses]; exact List.mem_singleton_self _)
  exact absurd hrevision (by decide)

end LateReport

end CockatielEngine
