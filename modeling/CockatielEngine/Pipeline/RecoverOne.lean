import CockatielEngine.Concurrency.Call
import CockatielEngine.Pipeline.NoStranded
import CockatielEngine.Pipeline.RecoveryClaim

/-!
# Pipeline: one call of `recover_one`

`recover_one` looks the message up, installs its state and drives it as far as
its fanout, or as far as the end of the chain when nobody is connected.  Here it
is a call that runs alone.

**Main result.**  A call that finds a queued row nobody owns brings its message
to the entry gate once, and leaves it in memory or terminal unless its terminal
write fails; any other call changes nothing.
-/

namespace CockatielEngine

open TaskPool

section Defs

/-- One call of `recover_one`: what it ran, and whether it returned `Ok`. -/
structure Recovery where
  uuid7 : String
  trace : List (Frame × Answer)
  ok : Bool
deriving DecidableEq, Repr

/-- The frame installs the state of a recovered message. -/
def InstallsRecovered : Frame → Bool
  | .recovery (.insertState _ _) => true
  | _ => false

/-- What the call returned: whether it claimed the message, or an error. -/
def Recovery.returned (r : Recovery) : Option Bool :=
  if r.ok then some (r.trace.any fun x => InstallsRecovered x.1) else none

/-- The call starts at `e` and leaves `e'`. -/
def Recovery.Runs (r : Recovery) (e e' : Engine) : Prop :=
  Call engine e [.recovery (.check r.uuid7)] r.trace r.ok e'

/-- `recover_one`, run on the world's answers. -/
def recoverOne (e : Engine) (uuid7 : String) (answers : List Answer) :
    Option (Recovery × Engine × List Answer) :=
  (engine.call e [.recovery (.check uuid7)] answers).map fun r =>
    ({ uuid7, trace := r.1, ok := r.2.1 }, r.2.2.1, r.2.2.2)

/-- The pipeline owns the message, or its row is terminal. -/
def OwnedOrEnded (e : Engine) (uuid7 : String) : Prop :=
  e.pipelineStates uuid7 ≠ none ∨
    ∃ r, e.timeline.row? uuid7 = some r ∧ r.Ended

variable (uuid7 : String)

/-- The frame brings the message to the entry gate. -/
def Enters : Frame → Bool
  | .broadcast (.enter v) => v = uuid7
  | _ => false

/-- How often the calls bring the message to the entry gate. -/
def Recovery.entries (r : Recovery) : Nat :=
  r.trace.countP fun x => Enters uuid7 x.1

/-- How often the call runs the fanout of the message. -/
def Recovery.fanouts (r : Recovery) : Nat :=
  r.trace.countP fun x => RunsFanout uuid7 x.1

/-- The call reads the row of the message. -/
def Recovery.Reads (r : Recovery) : Prop :=
  ∃ a, (Frame.recovery (.load uuid7), a) ∈ r.trace ∧ a.dbOk = true

/-- The terminal write of the message succeeds. -/
def WritesOutcome (f : Frame) (a : Answer) : Prop :=
  match f with
  | .terminal (.write v _ _) => v = uuid7 → a.dbOk = true
  | _ => True

instance (f : Frame) (a : Answer) : Decidable (WritesOutcome uuid7 f a) :=
  match f with
  | .terminal (.write _ _ _) => inferInstanceAs (Decidable (_ → _))
  | .ingest _ | .recovery _ | .broadcast _ | .fanout _ | .inProcess _
  | .postProcess _ | .terminal (.check _ _) | .terminal (.snapshot _)
  | .terminal (.writeHeld _ _) | .terminal (.take _ _) | .terminal (.ack _)
  | .reply _ | .advance _ | .sweep _ | .gate _ | .resume _ | .audit _ =>
      instDecidableTrue

end Defs

section Frames

/-- What the shared state holds of one message. -/
structure View where
  state : Option PipelineState
  row : Option Row
  gated : Bool
  atEntry : Bool

/-- The shared state seen from one message. -/
def Engine.view (e : Engine) (uuid7 : String) : View where
  state := e.pipelineStates uuid7
  row := e.timeline.row? uuid7
  gated := e.pauseState.isGated
  atEntry := decide ((uuid7, HoldPoint.entry) ∈ e.pauseState.held)

/-- The families of frames that drive a message behind the entry gate. -/
def Frame.behindEntry : Frame → Bool
  | .fanout _ => true
  | .inProcess _ => true
  | .postProcess _ => true
  | .terminal _ => true
  | _ => false

/-- The frames that drive a recovered message. -/
def Frame.drivesRecovered : Frame → Bool
  | .recovery (.insertState _ _) => true
  | .broadcast _ => true
  | f => f.behindEntry

variable {uuid7 : String} {e : Engine} {a : Answer} {f g : Frame}

theorem Frame.drivesRecovered_of_behindEntry
    (h : f.behindEntry = true) :
    f.drivesRecovered = true := by
  cases f <;> simp_all [Frame.drivesRecovered, Frame.behindEntry]

/-- The drive of a message behind the gate stays behind it, and works on the
message only. -/
theorem Frame.behindEntry_step
    (hbehind : f.behindEntry = true)
    (hworks : WorksOn uuid7 f)
    (hg : g ∈ (f.step e a).new) :
    g.behindEntry = true ∧ WorksOn uuid7 g := by
  cases Frame.leads hg with
  | @fanout_nobody fo _ =>
      cases hstage : fo.stage <;> exact ⟨rfl, hworks⟩
  | _ => first | exact ⟨rfl, hworks⟩ | simp [Frame.behindEntry] at hbehind

theorem Frame.drivesRecovered_step
    (hdrives : f.drivesRecovered = true)
    (hworks : WorksOn uuid7 f)
    (hg : g ∈ (f.step e a).new) :
    g.drivesRecovered = true ∧ WorksOn uuid7 g := by
  cases hbehind : f.behindEntry with
  | true =>
      obtain ⟨hg, hworks⟩ := Frame.behindEntry_step hbehind hworks hg
      exact ⟨Frame.drivesRecovered_of_behindEntry hg, hworks⟩
  | false =>
      cases f with
      | recovery f =>
          cases f with
          | insertState v msg =>
              cases Frame.leads hg
              exact ⟨rfl, hworks⟩
          | _ => simp [Frame.drivesRecovered, Frame.behindEntry] at hdrives
      | broadcast f => cases Frame.leads hg <;> exact ⟨rfl, hworks⟩
      | _ =>
          simp [Frame.drivesRecovered, hbehind] at hdrives

/-- A frame that drives a message asks the gate about it, or leaves the gate
alone. -/
theorem Frame.gate_step
    (hdrives : f.drivesRecovered = true)
    (hworks : WorksOn uuid7 f) :
    (f.step e a).shared.pauseState = e.pauseState ∨
      ∃ point, (f.step e a).shared.pauseState =
        (e.pauseState.holdIfGated uuid7 point).2 := by
  cases htouch : f.touchesGate with
  | false => exact Or.inl (Frame.step_pauseState e a htouch)
  | true =>
      rcases Frame.touchesGate_cases htouch with ⟨w, point, hhold⟩ | ⟨t, rfl⟩
      · obtain rfl : w = uuid7 := by
          cases f with
          | broadcast f => cases f <;> simp_all [Frame.hold, WorksOn]
          | inProcess f => cases f <;> simp_all [Frame.hold, WorksOn]
          | postProcess f => cases f <;> simp_all [Frame.hold, WorksOn]
          | _ => simp [Frame.hold] at hhold
        exact Or.inr ⟨point, Frame.step_pauseState_hold e a hhold⟩
      · simp [Frame.drivesRecovered, Frame.behindEntry] at hdrives

theorem Frame.isGated_step
    (hdrives : f.drivesRecovered = true)
    (hworks : WorksOn uuid7 f) :
    (f.step e a).shared.pauseState.isGated = e.pauseState.isGated := by
  rcases Frame.gate_step (e := e) (a := a) hdrives hworks with h | ⟨point, h⟩
  · rw [h]
  · rw [h, PauseState.isGated_holdIfGated]

/-- A frame that drives a message leaves what concerns the others alone. -/
theorem Frame.view_step_of_ne
    (hdrives : f.drivesRecovered = true)
    (hworks : WorksOn uuid7 f)
    {v : String} (hv : v ≠ uuid7) :
    (f.step e a).shared.view v = e.view v := by
  have hstate : (f.step e a).shared.pipelineStates v = e.pipelineStates v := by
    refine Frame.step_pipelineStates e a fun hsub => hv ?_
    cases f with
    | recovery f => cases f <;> simp_all [Frame.stateSubject, WorksOn]
    | inProcess f => cases f <;> simp_all [Frame.stateSubject, WorksOn]
    | postProcess f => cases f <;> simp_all [Frame.stateSubject, WorksOn]
    | terminal f => cases f <;> simp_all [Frame.stateSubject, WorksOn]
    | _ => simp_all [Frame.stateSubject, Frame.drivesRecovered, Frame.behindEntry]
  have hrow : (f.step e a).shared.timeline.row? v = e.timeline.row? v := by
    rcases Frame.step_row e a f v with h | ⟨msg, rfl, -⟩ | ⟨-, g, hupd, -⟩
    · exact h
    · simp [Frame.drivesRecovered, Frame.behindEntry] at hdrives
    · refine absurd ?_ hv
      cases f with
      | terminal f => cases f <;> simp_all [Frame.rowUpdate, WorksOn]
      | recovery f => simp [Frame.rowUpdate] at hupd
      | _ => simp_all [Frame.rowUpdate, Frame.drivesRecovered, Frame.behindEntry]
  have hgate := Frame.gate_step (e := e) (a := a) hdrives hworks
  rcases hgate with hgate | ⟨point, hgate⟩
  · simp [Engine.view, hstate, hrow, hgate]
  · have hheld : (v, HoldPoint.entry) ∈
        (e.pauseState.holdIfGated uuid7 point).2.held ↔
          (v, HoldPoint.entry) ∈ e.pauseState.held := by
      unfold PauseState.holdIfGated
      split
      · simp [PauseState.mem_insertHeld_iff, hv]
      · rfl
    simp [Engine.view, hstate, hrow, hgate, hheld]

end Frames

section Drive

variable {uuid7 : String} {e : Engine} {a : Answer} {f : Frame}
variable {fs rest : List Frame}

/-- The row is still queued. -/
def RowQueued (e : Engine) (uuid7 : String) : Prop :=
  ∃ r, e.timeline.row? uuid7 = some r ∧ r.pipelineStatus = .queued

/-- The frame drives the message behind the entry gate, and has not taken its
state. -/
def Onward (uuid7 : String) : Frame → Prop
  | .terminal (.check v ending) => v = uuid7 ∧ ending = .complete
  | .terminal (.take v ending) => v = uuid7 ∧ ending = .complete
  | .terminal _ => False
  | f => f.behindEntry = true ∧ WorksOn uuid7 f

/-- How a drive behind the entry gate stands: the message is in memory until its
completion takes it, and from then on its row is written. -/
inductive Drive (uuid7 : String) : Engine → List Frame → Prop
  | onward {e : Engine} {f : Frame} :
      Onward uuid7 f →
      e.pipelineStates uuid7 ≠ none →
      RowQueued e uuid7 →
      Drive uuid7 e [f]
  | writing {e : Engine} {result : PipelineResult} :
      RowQueued e uuid7 →
      Drive uuid7 e [.terminal (.write uuid7 .complete result)]
  | written {e : Engine} :
      (∃ r, e.timeline.row? uuid7 = some r ∧ r.Ended) →
      Drive uuid7 e [.terminal (.ack uuid7)]
  | ended {e : Engine} :
      OwnedOrEnded e uuid7 →
      Drive uuid7 e []

theorem Onward.behindEntry
    (h : Onward uuid7 f) :
    f.behindEntry = true ∧ WorksOn uuid7 f := by
  cases f with
  | terminal f =>
      cases f with
      | check v ending => exact ⟨rfl, h.1⟩
      | take v ending => exact ⟨rfl, h.1⟩
      | _ => exact h.elim
  | _ => exact h

/-- A drive never waits for another frame of its own. -/
theorem next_of_drivesRecovered
    (hdrives : f.drivesRecovered = true)
    (hworks : WorksOn uuid7 f)
    (hnext : (f.step e a).next = some fs) :
    fs = [] ∨ ∃ g ∈ (f.step e a).new, fs = [g] := by
  refine next_of_no_loop (fun g hg hloop => ?_) hnext
  have hg := (Frame.drivesRecovered_step hdrives hworks hg).1
  cases g with
  | recovery g =>
      cases g <;> simp_all [Frame.IsLoop, Frame.drivesRecovered, Frame.behindEntry]
  | _ => simp_all [Frame.IsLoop, Frame.drivesRecovered, Frame.behindEntry]

theorem RowQueued.not_audited
    (h : RowQueued e uuid7) :
    e.timeline.isAudited uuid7 = false := by
  obtain ⟨r, hr, hqueued⟩ := h
  simp [Timeline.isAudited, hr, hqueued]

/-- Nothing but its own write changes the row of a driven message. -/
theorem row?_step_of_onward
    (h : Onward uuid7 f) :
    (f.step e a).shared.timeline = e.timeline := by
  refine Frame.step_timeline e a ?_
  cases f with
  | terminal f => cases f <;> first | rfl | exact h.elim
  | _ => first | rfl | simp [Onward, Frame.behindEntry] at h

/-- One step of a drive that does not fail. -/
theorem Drive.next
    (h : Drive uuid7 e (f :: rest))
    (hnext : (f.step e a).next = some fs) :
    Drive uuid7 (f.step e a).shared (fs ++ rest) := by
  cases h with
  | onward hon hstate hrow =>
      obtain ⟨hbehind, hworks⟩ := hon.behindEntry
      have hrow' : RowQueued (f.step e a).shared uuid7 := by
        rwa [RowQueued, row?_step_of_onward hon]
      rw [List.append_nil]
      by_cases htake : ∃ ending, f = .terminal (.take uuid7 ending)
      · -- the completion takes the state and goes on to write the outcome
        obtain ⟨ending, rfl⟩ := htake
        obtain rfl : ending = .complete := hon.2
        obtain ⟨state, hstate⟩ := Option.ne_none_iff_exists'.mp hstate
        have hfs : [Frame.terminal (.write uuid7 .complete state.result)] = fs := by
          simpa [Frame.step, TerminalFrame.step, hstate, go] using hnext
        rw [← hfs]
        exact .writing hrow'
      · have hstate' : (f.step e a).shared.pipelineStates uuid7 ≠ none :=
          state_step_some hstate (by simpa using htake)
        have hdrives := Frame.drivesRecovered_of_behindEntry hbehind
        rcases next_of_drivesRecovered hdrives hworks hnext with
          rfl | ⟨g, hg, rfl⟩
        · exact .ended (Or.inl hstate')
        · refine .onward ?_ hstate' hrow'
          cases Frame.leads hg with
          | @fanout_nobody fo _ =>
              cases hstage : fo.stage with
              | postProcess => exact ⟨hworks, rfl⟩
              | _ => exact ⟨rfl, hworks⟩
          | terminal_take => exact hon
          | terminal_held haudited =>
              obtain rfl := hon.1
              simp [hrow.not_audited] at haudited
          | terminal_write =>
              obtain rfl := hon.1
              exact absurd ⟨_, rfl⟩ htake
          | _ =>
              first
                | exact ⟨rfl, hworks⟩
                | simp [Onward, Frame.behindEntry] at hon
  | @writing result hrow =>
      obtain ⟨r, hr, hqueued⟩ := hrow
      cases hdb : a.dbOk with
      | false =>
          simp [Frame.step, TerminalFrame.step, hdb, fail] at hnext
      | true =>
          obtain rfl : [Frame.terminal (.ack uuid7)] = fs := by
            simpa [Frame.step, TerminalFrame.step, hdb, go] using hnext
          have hwritten : ((Frame.terminal (.write uuid7 .complete result)).step
              e a).shared.timeline.row? uuid7 =
                some (r.writeTerminalOutcome .complete result e.now) := by
            simp [Frame.step, TerminalFrame.step, hdb,
              Timeline.writeTerminalOutcome, hr, Ending.outcome]
          refine .written ⟨_, hwritten, Or.inl ?_⟩
          simp [Row.writeTerminalOutcome, hqueued, PipelineOutcome.status]
  | written hrow =>
      obtain rfl : [] = fs := by
        simpa [Frame.step, TerminalFrame.step, go] using hnext
      exact .ended (Or.inr hrow)

/-- A drive that fails leaves the message settled unless its outcome could not
be written. -/
theorem Drive.fail
    (h : Drive uuid7 e (f :: rest))
    (hwrites : WritesOutcome uuid7 f a)
    (hnext : (f.step e a).next = none) :
    OwnedOrEnded (f.step e a).shared uuid7 := by
  cases h with
  | onward hon hstate hrow =>
      refine Or.inl (state_step_some hstate ?_)
      rintro ending rfl
      obtain ⟨state, hstate⟩ := Option.ne_none_iff_exists'.mp hstate
      simp [Frame.step, TerminalFrame.step, hstate, go] at hnext
  | writing hrow =>
      have hdb : a.dbOk = true := hwrites rfl
      simp [Frame.step, TerminalFrame.step, hdb, go] at hnext
  | written hrow => simp [Frame.step, TerminalFrame.step, go] at hnext

end Drive

section Calls

variable {uuid7 v : String} {e e' : Engine} {f : Frame}
variable {fs rest : List Frame} {tr : List (Frame × Answer)} {ok : Bool}

theorem settled_iff (e : Engine) (uuid7 : String) :
    Drive uuid7 e [] ↔ OwnedOrEnded e uuid7 := by
  constructor
  · rintro ⟨⟩
    assumption
  · exact .ended

/-- A drive that returns leaves the message settled, and so does one that fails
elsewhere than at its terminal write. -/
theorem Drive.settled
    (h : Call engine e fs tr ok e')
    (hdrive : Drive uuid7 e fs)
    (hwrites : ok = true ∨ ∀ x ∈ tr, WritesOutcome uuid7 x.1 x.2) :
    OwnedOrEnded e' uuid7 := by
  have hnext {s : Engine} {f : Frame} {a : Answer} {o : Outcome Engine Frame}
      {fs rest : List Frame} (hs : Drive uuid7 s (f :: rest))
      (hstep : engine.step s f a = some o) (ho : o.next = some fs) :
      Drive uuid7 o.shared (fs ++ rest) := by
    obtain rfl := engine_step_eq hstep
    exact hs.next ho
  rcases hwrites with rfl | hwrites
  · have hend := Call.invariant (fun _ _ => True) (Drive uuid7)
      (fun _ => True) (fun hs _ => hnext hs) (fun _ _ _ _ => trivial) h
      (fun _ _ => trivial) hdrive
    exact (settled_iff ..).mp hend
  · have hend := Call.invariant (WritesOutcome uuid7) (Drive uuid7)
      (fun e => OwnedOrEnded e uuid7) (fun hs _ => hnext hs)
      (fun hs hok hstep ho => by
        obtain rfl := engine_step_eq hstep
        exact hs.fail hok ho) h hwrites hdrive
    cases ok with
    | true => exact (settled_iff ..).mp hend
    | false => exact hend

/-- A driven message leaves what concerns the others alone, and the gate as it
is. -/
theorem view_of_call
    (uuid7 : String)
    (h : Call engine e fs tr ok e')
    (hfs : ∀ g ∈ fs, g.drivesRecovered = true ∧ WorksOn uuid7 g) :
    e'.pauseState.isGated = e.pauseState.isGated ∧
      ∀ v ≠ uuid7, e'.view v = e.view v := by
  have hstep {s : Engine} {f : Frame} {a : Answer} {o : Outcome Engine Frame}
      (hf : f.drivesRecovered = true ∧ WorksOn uuid7 f)
      (hs : s.pauseState.isGated = e.pauseState.isGated ∧
        ∀ v ≠ uuid7, s.view v = e.view v)
      (hrun : engine.step s f a = some o) :
      o.shared.pauseState.isGated = e.pauseState.isGated ∧
        ∀ v ≠ uuid7, o.shared.view v = e.view v := by
    obtain rfl := engine_step_eq hrun
    exact ⟨(Frame.isGated_step hf.1 hf.2).trans hs.1, fun v hv =>
      (Frame.view_step_of_ne hf.1 hf.2 hv).trans (hs.2 v hv)⟩
  have hend := Call.invariant (fun _ _ => True)
    (fun s fs => (s.pauseState.isGated = e.pauseState.isGated ∧
        ∀ v ≠ uuid7, s.view v = e.view v) ∧
      ∀ g ∈ fs, g.drivesRecovered = true ∧ WorksOn uuid7 g)
    (fun s => s.pauseState.isGated = e.pauseState.isGated ∧
      ∀ v ≠ uuid7, s.view v = e.view v)
    (fun {s f a o fs rest} hs _ hrun hnext => by
      have hf := hs.2 f (List.mem_cons_self ..)
      refine ⟨hstep hf hs.1 hrun, fun g hg => ?_⟩
      obtain rfl := engine_step_eq hrun
      rcases List.mem_append.mp hg with hg | hg
      · exact Frame.drivesRecovered_step hf.1 hf.2
          (show g ∈ (f.step s a).new by simp [Outcome.new, hnext, hg])
      · exact hs.2 g (List.mem_cons_of_mem _ hg))
    (fun hs _ hrun _ => hstep (hs.2 _ (List.mem_cons_self ..)) hs.1 hrun)
    h (fun _ _ => trivial) ⟨⟨rfl, fun _ _ => rfl⟩, hfs⟩
  cases ok with
  | true => exact hend.1
  | false => exact hend

/-- A property of frames that every step hands on holds of all a call runs. -/
theorem mem_trace_of_new
    (Q : Frame → Prop)
    (hstep : ∀ {e : Engine} {a : Answer} {f g : Frame},
      Q f → g ∈ (f.step e a).new → Q g)
    (h : Call engine e fs tr ok e')
    (hfs : ∀ g ∈ fs, Q g) :
    ∀ x ∈ tr, Q x.1 := by
  refine Call.mem_trace Q (fun {s f a o fs} hf hrun hnext g hg => ?_) h hfs
  obtain rfl := engine_step_eq hrun
  refine hstep hf (?_ : g ∈ (f.step s a).new)
  simp [Outcome.new, hnext, hg]

/-- The first step of a call, when the world has no say in it. -/
theorem call_of_go
    (e₁ : Engine) (fs : List Frame)
    (hstep : ∀ a, f.step e a = go e₁ fs)
    (h : Call engine e (f :: rest) tr ok e') :
    ∃ a tr', tr = (f, a) :: tr' ∧ Call engine e₁ (fs ++ rest) tr' ok e' := by
  obtain ⟨a, o, tr', hrun, rfl, hnext⟩ := h.uncons
  obtain rfl := engine_step_eq hrun
  rw [hstep] at hnext
  rcases hnext with ⟨fs', hfs, hcall⟩ | ⟨hnone, -⟩
  · obtain rfl : fs = fs' := by simpa [go] using hfs
    exact ⟨a, tr', rfl, hcall⟩
  · simp [go] at hnone

end Calls

section OneRecovery

variable {uuid7 : String} {e e' : Engine} {r : Recovery}

def View.Settled (v : View) : Prop :=
  v.state ≠ none ∨ ∃ row, v.row = some row ∧ row.Ended

/-- The call does nothing for the message. -/
structure Quiet (uuid7 : String) (r : Recovery) : Prop where
  entries : r.entries uuid7 = 0
  fanouts : r.fanouts uuid7 = 0

/-- What one call of `recover_one` does for its message. -/
inductive Recovered (uuid7 : String) (v : View) (r : Recovery) : View → Prop
  | owned :
      v.state ≠ none →
      r.returned = some false →
      Quiet uuid7 r →
      ¬ r.Reads uuid7 →
      Recovered uuid7 v r v
  | unread :
      v.state = none →
      r.returned = none →
      Quiet uuid7 r →
      ¬ r.Reads uuid7 →
      Recovered uuid7 v r v
  | gone :
      v.state = none →
      (∀ row, v.row = some row → row.pipelineStatus ≠ .queued) →
      r.returned = some false →
      Quiet uuid7 r →
      Recovered uuid7 v r v
  | driven {v' : View} :
      v.state = none →
      r.Reads uuid7 →
      r.entries uuid7 = 1 →
      r.fanouts uuid7 = (if v.gated then 0 else 1) →
      v'.gated = v.gated →
      (v.gated = true → v'.atEntry = true) →
      r.returned ≠ some false →
      (r.returned = some true ∨
        (∀ x ∈ r.trace, WritesOutcome uuid7 x.1 x.2) → v'.Settled) →
      Recovered uuid7 v r v'

/-- The ways one call of `recover_one` can go. -/
theorem Recovery.Runs.cases (h : r.Runs e e') :
    (e.pipelineStates r.uuid7 ≠ none ∧ e' = e ∧ r.ok = true ∧
      ∃ a, r.trace = [(.recovery (.check r.uuid7), a)]) ∨
    (e.pipelineStates r.uuid7 = none ∧ e' = e ∧
      ∃ a b, r.trace =
          [(.recovery (.check r.uuid7), a), (.recovery (.load r.uuid7), b)] ∧
        (b.dbOk = false ∧ r.ok = false ∨
          b.dbOk = true ∧ e.timeline.loadQueuedMessage r.uuid7 = none ∧
            r.ok = true)) ∨
    (e.pipelineStates r.uuid7 = none ∧
      ∃ a b msg tr, r.trace =
          (.recovery (.check r.uuid7), a) :: (.recovery (.load r.uuid7), b) ::
            tr ∧
        b.dbOk = true ∧
        e.timeline.loadQueuedMessage r.uuid7 = some msg ∧
        Call engine e [.recovery (.insertState r.uuid7 msg)] tr r.ok e') := by
  by_cases hstate : e.pipelineStates r.uuid7 = none
  · right
    obtain ⟨a, tr, htr, hcall⟩ := call_of_go e
      [.recovery (.load r.uuid7)]
      (fun a => by simp [Frame.step, RecoveryFrame.step, hstate]) h
    obtain ⟨b, o, tr', hrun, rfl, hnext⟩ := hcall.uncons
    obtain rfl := engine_step_eq hrun
    cases hdb : b.dbOk with
    | false =>
        have hstep : (Frame.recovery (.load r.uuid7)).step e b = fail e := by
          simp [Frame.step, RecoveryFrame.step, hdb]
        rw [hstep] at hnext
        rcases hnext with ⟨fs, hfs, -⟩ | ⟨-, rfl, hok, rfl⟩
        · simp [fail] at hfs
        · exact Or.inl ⟨hstate, rfl, a, b, htr, Or.inl ⟨hdb, hok⟩⟩
    | true =>
        cases hload : e.timeline.loadQueuedMessage r.uuid7 with
        | none =>
            have hstep : (Frame.recovery (.load r.uuid7)).step e b = go e [] := by
              simp [Frame.step, RecoveryFrame.step, hdb, hload]
            rw [hstep] at hnext
            rcases hnext with ⟨fs, hfs, hrest⟩ | ⟨hnone, -⟩
            · obtain rfl : [] = fs := by simpa [go] using hfs
              obtain ⟨rfl, hok, rfl⟩ := Call.nil_iff.mp hrest
              exact Or.inl ⟨hstate, rfl, a, b, htr, Or.inr ⟨hdb, rfl, hok⟩⟩
            · simp [go] at hnone
        | some msg =>
            have hstep : (Frame.recovery (.load r.uuid7)).step e b =
                go e [.recovery (.insertState r.uuid7 msg)] := by
              simp [Frame.step, RecoveryFrame.step, hdb, hload]
            rw [hstep] at hnext
            rcases hnext with ⟨fs, hfs, hrest⟩ | ⟨hnone, -⟩
            · obtain rfl : [Frame.recovery (.insertState r.uuid7 msg)] = fs := by
                simpa [go] using hfs
              exact Or.inr ⟨hstate, a, b, msg, tr', htr, hdb, rfl, hrest⟩
            · simp [go] at hnone
  · obtain ⟨a, tr, htr, hcall⟩ := call_of_go e []
      (fun a => by
        simp [Frame.step, RecoveryFrame.step, Option.isSome_iff_ne_none, hstate]) h
    obtain ⟨rfl, hok, rfl⟩ := Call.nil_iff.mp hcall
    exact Or.inl ⟨hstate, rfl, hok, a, htr⟩

/-- The engine once the state of a recovered message is installed. -/
abbrev recoveredInto (e : Engine) (uuid7 : String) (msg : QueuedMessage) :
    Engine :=
  e.putState uuid7 (some (.ofQueued uuid7 msg))

/-- From its row on, a recovered message is held at the entry or fanned out. -/
theorem driven_cases
    {msg : QueuedMessage} {tr : List (Frame × Answer)} {ok : Bool}
    (h : Call engine e [.recovery (.insertState uuid7 msg)] tr ok e') :
    ∃ a b tr', tr = (.recovery (.insertState uuid7 msg), a) ::
        (.broadcast (.enter uuid7), b) :: tr' ∧
      ((e.pauseState.isGated = true ∧ tr' = [] ∧ ok = true ∧
          e' = { recoveredInto e uuid7 msg with
                 pauseState := (e.pauseState.holdIfGated uuid7 .entry).2 }) ∨
        (e.pauseState.isGated = false ∧ ∃ c d state fo todo tr'',
          tr' = (.broadcast (.load uuid7), c) ::
            (.broadcast (.config uuid7 state), d) :: tr'' ∧
          fo.uuid7 = uuid7 ∧
          Call engine (recoveredInto e uuid7 msg) [.fanout (.send fo todo)] tr''
            ok e')) := by
  obtain ⟨a, tr₁, rfl, h₁⟩ := call_of_go
    (recoveredInto e uuid7 msg) [.broadcast (.enter uuid7)]
    (fun _ => rfl) h
  cases hgate : e.pauseState.isGated with
  | true =>
      obtain ⟨b, tr₂, rfl, h₂⟩ := call_of_go
        { recoveredInto e uuid7 msg with
          pauseState := (e.pauseState.holdIfGated uuid7 .entry).2 }
        []
        (fun _ => by
          simp [Frame.step, BroadcastFrame.step, Engine.putState,
            PauseState.holdIfGated, hgate]) h₁
      obtain ⟨rfl, rfl, rfl⟩ := Call.nil_iff.mp h₂
      exact ⟨a, b, [], rfl, Or.inl ⟨rfl, rfl, rfl, rfl⟩⟩
  | false =>
      have hstate : (recoveredInto e uuid7 msg).pipelineStates uuid7 =
          some (.ofQueued uuid7 msg) := by
        simp [Engine.putState]
      obtain ⟨b, tr₂, rfl, h₂⟩ := call_of_go
        (recoveredInto e uuid7 msg) [.broadcast (.load uuid7)]
        (fun _ => by
          simp [Frame.step, BroadcastFrame.step, Engine.putState,
            PauseState.holdIfGated, hgate]) h₁
      obtain ⟨c, tr₃, rfl, h₃⟩ := call_of_go
        (recoveredInto e uuid7 msg)
        [.broadcast (.config uuid7 (.ofQueued uuid7 msg))]
        (fun _ => by simp [Frame.step, BroadcastFrame.step, hstate]) h₂
      obtain ⟨d, tr₄, rfl, h₄⟩ := call_of_go _ _ (fun _ => rfl) h₃
      exact ⟨a, b, _, rfl, Or.inr ⟨rfl, c, d, _, _, _, tr₄, rfl, rfl, h₄⟩⟩

/-- A drive behind the entry gate brings nothing to it. -/
theorem quiet_of_behindEntry
    (uuid7 : String)
    {tr : List (Frame × Answer)}
    (h : ∀ x ∈ tr, x.1.behindEntry = true) :
    (tr.countP fun x => Enters uuid7 x.1) = 0 ∧
      (tr.countP fun x => RunsFanout uuid7 x.1) = 0 := by
  have hquiet {f : Frame} (hf : f.behindEntry = true) :
      Enters uuid7 f = false ∧ ¬ RunsFanout uuid7 f := by
    cases f <;> first | exact ⟨rfl, id⟩ | simp [Frame.behindEntry] at hf
  constructor
  · exact List.countP_eq_zero.mpr fun x hx => by simp [(hquiet (h x hx)).1]
  · exact List.countP_eq_zero.mpr fun x hx => by simp [(hquiet (h x hx)).2]

/-- The message of a call that drives it. -/
theorem recovered_driven
    {msg : QueuedMessage} {a b : Answer} {tr : List (Frame × Answer)}
    (hstate : e.pipelineStates r.uuid7 = none)
    (htr : r.trace =
      (.recovery (.check r.uuid7), a) :: (.recovery (.load r.uuid7), b) :: tr)
    (hdb : b.dbOk = true)
    (hload : e.timeline.loadQueuedMessage r.uuid7 = some msg)
    (hcall : Call engine e [.recovery (.insertState r.uuid7 msg)] tr r.ok e') :
    Recovered r.uuid7 (e.view r.uuid7) r (e'.view r.uuid7) := by
  have hreads : r.Reads r.uuid7 := ⟨b, by simp [htr], hdb⟩
  have hgate : e'.pauseState.isGated = e.pauseState.isGated :=
    (view_of_call r.uuid7 hcall (by simp [Frame.drivesRecovered, WorksOn])).1
  have hqueued : RowQueued e r.uuid7 := by
    obtain ⟨row, hrow, hmsg⟩ := Option.bind_eq_some_iff.mp hload
    refine ⟨row, hrow, ?_⟩
    by_contra hne
    simp [hne] at hmsg
  obtain ⟨c, d, tr', rfl, hend⟩ := driven_cases hcall
  have hclaims : r.trace.any (fun x => InstallsRecovered x.1) = true := by
    simp [htr, InstallsRecovered]
  have hreturned : r.returned ≠ some false := by
    simp [Recovery.returned, hclaims]
  rcases hend with ⟨hgated, rfl, hok, rfl⟩ | ⟨hgated, c', d', state, fo, todo,
    tr'', rfl, hfo, hdrive⟩
  · refine .driven hstate hreads ?_ ?_ hgate (fun _ => ?_) hreturned
      (fun _ => Or.inl ?_)
    · simp [Recovery.entries, htr, Enters]
    · rw [Recovery.fanouts, htr]
      simp only [List.countP_cons, decide_eq_true_eq]
      simp [RunsFanout, Engine.view, hgated]
    · simp [Engine.view, PauseState.holdIfGated, hgated,
        PauseState.mem_insertHeld_iff]
    · simp [Engine.view, Engine.putState]
  · obtain ⟨hentries, hfanouts⟩ := quiet_of_behindEntry r.uuid7
      (fun x hx => (mem_trace_of_new
        (fun f => f.behindEntry = true ∧ WorksOn r.uuid7 f)
        (fun hf hg => Frame.behindEntry_step hf.1 hf.2 hg) hdrive
        (by simp [Frame.behindEntry, WorksOn, hfo]) x hx).1)
    refine .driven hstate hreads ?_ ?_ hgate ?_ hreturned (fun hwrites => ?_)
    · rw [Recovery.entries, htr]
      simp only [List.countP_cons, hentries]
      simp [Enters]
    · rw [Recovery.fanouts, htr]
      simp only [List.countP_cons, decide_eq_true_eq, hfanouts]
      simp [RunsFanout, Engine.view, hgated]
    · simp [Engine.view, hgated]
    · refine Drive.settled hdrive (.onward ⟨rfl, hfo⟩ ?_ hqueued) ?_
      · simp [Engine.putState]
      · rcases hwrites with hclaimed | hwrites
        · left
          by_contra hne
          simp [Recovery.returned, hne] at hclaimed
        · right
          intro x hx
          exact hwrites x (by simp [htr, hx])

/-- What one call of `recover_one` does for its message. -/
theorem Recovery.Runs.recovered (h : r.Runs e e') :
    Recovered r.uuid7 (e.view r.uuid7) r (e'.view r.uuid7) := by
  rcases h.cases with ⟨hstate, rfl, hok, a, htr⟩ |
    ⟨hstate, rfl, a, b, htr, hend⟩ | ⟨hstate, a, b, msg, tr, htr, hdb, hload, hcall⟩
  · refine .owned hstate ?_ ⟨?_, ?_⟩ ?_
    · simp [Recovery.returned, hok, htr, InstallsRecovered]
    · simp [Recovery.entries, htr, Enters]
    · rw [Recovery.fanouts, htr]
      simp only [List.countP_cons, decide_eq_true_eq]
      simp [RunsFanout]
    · simp [Recovery.Reads, htr]
  · have hquiet : Quiet r.uuid7 r := by
      constructor
      · simp [Recovery.entries, htr, Enters]
      · rw [Recovery.fanouts, htr]
        simp only [List.countP_cons, decide_eq_true_eq]
        simp [RunsFanout]
    rcases hend with ⟨hdb, hok⟩ | ⟨hdb, hload, hok⟩
    · refine .unread hstate ?_ hquiet ?_
      · simp [Recovery.returned, hok]
      · rintro ⟨c, hmem, hread⟩
        obtain rfl : c = b := by simpa [htr] using hmem
        simp [hdb] at hread
    · refine .gone hstate (fun row hrow hqueued => ?_) ?_ hquiet
      · have hrow : e'.timeline.row? r.uuid7 = some row := hrow
        simp [Timeline.loadQueuedMessage, hrow, hqueued] at hload
      · simp [Recovery.returned, hok, htr, InstallsRecovered]
  · exact recovered_driven hstate htr hdb hload hcall

/-- One call of `recover_one` does nothing for another message. -/
theorem Recovery.Runs.other
    (h : r.Runs e e')
    {v : String} (hv : v ≠ r.uuid7) :
    e'.view v = e.view v ∧ Quiet v r ∧ ¬ r.Reads v := by
  -- the frames of a call: the two that look the message up, and its drive
  have hframes : ∀ x ∈ r.trace,
      x.1 = .recovery (.check r.uuid7) ∨ x.1 = .recovery (.load r.uuid7) ∨
        (x.1.drivesRecovered = true ∧ WorksOn r.uuid7 x.1) := by
    rcases h.cases with ⟨-, -, -, a, htr⟩ | ⟨-, -, a, b, htr, -⟩ |
      ⟨-, a, b, msg, tr, htr, -, -, hcall⟩
    · simp [htr]
    · simp [htr]
    · have hdrive := mem_trace_of_new
        (fun f => f.drivesRecovered = true ∧ WorksOn r.uuid7 f)
        (fun hf hg => Frame.drivesRecovered_step hf.1 hf.2 hg) hcall
        (by simp [Frame.drivesRecovered, WorksOn])
      intro x hx
      rw [htr, List.mem_cons, List.mem_cons] at hx
      rcases hx with rfl | rfl | hx
      · exact Or.inl rfl
      · exact Or.inr (Or.inl rfl)
      · exact Or.inr (Or.inr (hdrive x hx))
  have hnothing : ∀ x ∈ r.trace, Enters v x.1 = false ∧
      ¬ RunsFanout v x.1 ∧ x.1 ≠ .recovery (.load v) := by
    rintro ⟨f, a⟩ hx
    rcases hframes _ hx with rfl | rfl | ⟨hdrives, hworks⟩
    · exact ⟨rfl, id, by simp⟩
    · exact ⟨rfl, id, by simpa using hv.symm⟩
    · cases f with
      | recovery f =>
          cases f with
          | insertState w msg => exact ⟨rfl, id, by simp⟩
          | _ => simp [Frame.drivesRecovered, Frame.behindEntry] at hdrives
      | broadcast f =>
          cases f with
          | enter w =>
              obtain rfl : w = r.uuid7 := hworks
              exact ⟨by simpa [Enters] using hv.symm, id, by simp⟩
          | load w => exact ⟨rfl, id, by simp⟩
          | config w state =>
              obtain rfl : w = r.uuid7 := hworks
              exact ⟨rfl, hv.symm, by simp⟩
      | _ => exact ⟨rfl, id, by simp⟩
  refine ⟨?_, ⟨?_, ?_⟩, ?_⟩
  · rcases h.cases with ⟨-, rfl, -⟩ | ⟨-, rfl, -⟩ |
      ⟨-, a, b, msg, tr, -, -, -, hcall⟩
    · rfl
    · rfl
    · exact (view_of_call r.uuid7 hcall (by simp [Frame.drivesRecovered, WorksOn])).2 v hv
  · exact List.countP_eq_zero.mpr fun x hx => by simp [(hnothing x hx).1]
  · exact List.countP_eq_zero.mpr fun x hx => by simp [(hnothing x hx).2.1]
  · rintro ⟨a, hmem, -⟩
    exact (hnothing _ hmem).2.2 rfl

end OneRecovery

end CockatielEngine
