import CockatielEngine.Concurrency.AnyRun
import CockatielEngine.Orders.Throttle

/-!
# Channels: the report of dropped query responses

A response that does not fit into its module's channel is dropped and counted.  A
line with the count since the last line is logged when thirty seconds have passed
since that was last due, and the count starts again.  The count, the time of the
last report and the line are three separate steps, and any number of connections
drop responses at once.

The drops and the times at which a report was due are ghosts.

**Main result.**  In every run no drop is lost or reported twice, there is one
line for each time a report was due, and those times are thirty seconds apart.
-/

namespace CockatielEngine

open TaskPool

/-- A line about drops, with the module that dropped last and the room in its
channel. -/
structure DropLine where
  total : Nat
  latest : String
  slotsFree : Nat
deriving DecidableEq

structure DropState where
  droppedQueryResponses : Nat := 0
  lastDropReport : Option Int := none
  lines : List DropLine := []
  drops : Nat := 0
  due : List Int := []

/-- Where `report_dropped_query_response` stands, for a module. -/
inductive DropFrame where
  | count (moduleName : String)
  | checkDue (moduleName : String)
  | takeCount (moduleName : String)
  | log (moduleName : String) (total : Nat)

/-- The clock as it is read, and again when the report is stamped, and the room in
the channel. -/
structure DropAnswer where
  now : Int := 0
  stamp : Int := now
  stamped : now ≤ stamp := by omega
  slotsFree : Nat := 0

/-- `DROP_REPORT_INTERVAL`, in milliseconds. -/
def dropReportInterval : Int := 30000

/-- The report of one drop. -/
def DropFrame.step (e : DropState) (a : DropAnswer) :
    DropFrame → Outcome DropState DropFrame
  | .count moduleName =>
      .thenRun
        { e with
          droppedQueryResponses := e.droppedQueryResponses + 1
          drops := e.drops + 1 }
        [.checkDue moduleName]
  | .checkDue moduleName =>
      if isDue dropReportInterval e.lastDropReport a.now then
        .thenRun { e with lastDropReport := some a.stamp, due := e.due ++ [a.stamp] }
          [.takeCount moduleName]
      else .thenRun e []
  | .takeCount moduleName =>
      .thenRun { e with droppedQueryResponses := 0 }
        [.log moduleName e.droppedQueryResponses]
  | .log moduleName total =>
      .thenRun { e with lines := e.lines ++ [⟨total, moduleName, a.slotsFree⟩] } []

/-- The connections that drop responses; each event is one drop. -/
def dropReports : Program DropState DropFrame DropAnswer String where
  step e f a := some (f.step e a)
  catches _ := false
  event e moduleName := some (e, [[.count moduleName]])

abbrev DropPool := Pool DropState DropFrame

/-- What a task has taken from the count and has still to log. -/
def DropFrame.taken : DropFrame → Nat
  | .log _ total => total
  | _ => 0

/-- A task that owes a line. -/
def DropFrame.owed : DropFrame → Nat
  | .takeCount _ => 1
  | .log _ _ => 1
  | _ => 0

structure DropsAccounted (s : DropPool) : Prop where
  drops : s.shared.drops = s.shared.droppedQueryResponses +
    (s.shared.lines.map (·.total)).sum + s.total DropFrame.taken
  lines : s.shared.due.length = s.shared.lines.length + s.total DropFrame.owed
  apart : Spaced dropReportInterval s.shared.due

section Steps

variable {e : DropState} {a : DropAnswer} {f : DropFrame}

/-- The report that is due next is measured from the last one. -/
structure DropState.Timed (e : DropState) : Prop where
  apart : Spaced dropReportInterval e.due
  last : e.lastDropReport = e.due.getLast?

/-- A drop is counted, taken from the count, or logged. -/
theorem drops_step :
    (f.step e a).shared.drops + e.droppedQueryResponses +
        (e.lines.map (·.total)).sum + f.taken =
      e.drops + (f.step e a).shared.droppedQueryResponses +
        ((f.step e a).shared.lines.map (·.total)).sum +
        ((f.step e a).new.map DropFrame.taken).sum := by
  cases f with
  | count moduleName =>
      simp [DropFrame.step, DropFrame.taken]
      omega
  | checkDue moduleName =>
      simp only [DropFrame.step]
      split <;> simp [DropFrame.taken]
  | takeCount moduleName =>
      simp [DropFrame.step, DropFrame.taken]
      omega
  | log moduleName total =>
      simp [DropFrame.step, DropFrame.taken]
      omega

/-- A line is owed from when it is due until it is logged. -/
theorem lines_step :
    (f.step e a).shared.due.length + e.lines.length + f.owed =
      e.due.length + (f.step e a).shared.lines.length +
        ((f.step e a).new.map DropFrame.owed).sum := by
  cases f with
  | count moduleName => simp [DropFrame.step, DropFrame.owed]
  | checkDue moduleName =>
      simp only [DropFrame.step]
      split
      · simp [DropFrame.owed]
        omega
      · simp [DropFrame.owed]
  | takeCount moduleName => simp [DropFrame.step, DropFrame.owed]
  | log moduleName total =>
      simp [DropFrame.step, DropFrame.owed]
      omega

theorem DropState.Timed.step (h : e.Timed) : (f.step e a).shared.Timed := by
  cases f with
  | count moduleName => exact ⟨h.apart, h.last⟩
  | checkDue moduleName =>
      simp only [DropFrame.step]
      split
      · rename_i hdue
        rw [h.last] at hdue
        exact ⟨h.apart.concat (by decide) hdue a.stamped, List.getLast?_concat.symm⟩
      · exact h
  | takeCount moduleName => exact ⟨h.apart, h.last⟩
  | log moduleName total => exact ⟨h.apart, h.last⟩

end Steps

section Runs

variable {s s' : DropPool} {l : Label DropAnswer String}

structure DropInvariant (s : DropPool) : Prop extends DropsAccounted s where
  timed : s.shared.Timed

theorem DropInvariant.fire
    (h : DropInvariant s)
    (hfire : dropReports.fire s l = some s') :
    DropInvariant s' := by
  cases l with
  | run i a =>
      obtain ⟨f, rest, o, hi, ho, rfl⟩ := fire_run_cases hfire
      obtain rfl : f.step s.shared a = o := Option.some.inj ho
      obtain ⟨fs, hfs⟩ : ∃ fs, (f.step s.shared a).next = some fs := by
        cases f with
        | checkDue moduleName =>
            simp only [DropFrame.step]
            split <;> exact ⟨_, rfl⟩
        | _ => exact ⟨_, rfl⟩
      have htaken := total_fire_run_of_next (P := dropReports) DropFrame.taken hi hfs
      have howed := total_fire_run_of_next (P := dropReports) DropFrame.owed hi hfs
      have hdrops := drops_step (e := s.shared) (a := a) (f := f)
      have hlines := lines_step (e := s.shared) (a := a) (f := f)
      have hdrops' := h.drops
      have hlines' := h.lines
      have htimed : (f.step s.shared a).shared.Timed := h.timed.step
      refine ⟨⟨?_, ?_, htimed.apart⟩, htimed⟩
      · simp only
        omega
      · simp only
        omega
  | world moduleName =>
      obtain ⟨r, hr, rfl⟩ := fire_world_cases hfire
      obtain rfl := Option.some.inj hr
      have hnew : (s.shared, [[DropFrame.count moduleName]]).2.flatten =
          [DropFrame.count moduleName] := rfl
      have htaken := total_fire_world DropFrame.taken (s := s)
        (r := (s.shared, [[DropFrame.count moduleName]]))
      have howed := total_fire_world DropFrame.owed (s := s)
        (r := (s.shared, [[DropFrame.count moduleName]]))
      rw [hnew] at htaken howed
      exact ⟨⟨h.drops.trans (by rw [htaken]; rfl), h.lines.trans (by rw [howed]; rfl),
        h.apart⟩, h.timed⟩

/-- No drop is lost or reported twice, every report that was due becomes one line,
and they were due thirty seconds apart. -/
theorem drops_accounted
    (labels : List (Label DropAnswer String))
    (hrun : dropReports.exec { shared := {}, threads := [] } labels = some s) :
    DropsAccounted s := by
  have hstart : DropInvariant { shared := {}, threads := [] } :=
    ⟨⟨rfl, rfl, Spaced.nil⟩, ⟨Spaced.nil, rfl⟩⟩
  exact (exec_invariant DropInvariant.fire labels hstart hrun).toDropsAccounted

/-- Two drops before the report of the first one. -/
def twoDrops : List (Label DropAnswer String) :=
  [.world "tui", .world "tui", .run 0 {}, .run 1 {}, .run 0 {}, .run 1 {}, .run 0 {},
   .run 0 {}]

theorem drops_accounted_twoDrops :
    ∃ s : DropPool, s.shared.lines = [⟨2, "tui", 0⟩] ∧ DropsAccounted s := by
  obtain ⟨s, hrun, hlines⟩ :
      ∃ s, dropReports.exec { shared := {}, threads := [] } twoDrops = some s ∧
        s.shared.lines = [⟨2, "tui", 0⟩] :=
    ⟨_, rfl, rfl⟩
  exact ⟨s, hlines, drops_accounted twoDrops hrun⟩

end Runs

end CockatielEngine
