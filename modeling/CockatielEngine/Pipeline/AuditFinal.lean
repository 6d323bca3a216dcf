import CockatielEngine.Pipeline.Forgotten
import CockatielEngine.Pipeline.HeldNotShown

/-!
# Pipeline: an audit decision is final

`release_audit` writes the row and nothing else.  Whatever the engine still
keeps in memory about the message (its state, its pending acks, a hold, a task
at work on it) goes on driving it after the decision.

**Main result.**  When a decision finds in memory only what brings the message to
the end that the decision gives it (for an approval the last answers of its
post-process modules, for a rejection nothing), and no error or critical timeout gets
in the way of that, no later step but an audit step dispatches the message or changes
its status, and nothing of it is in memory once the outstanding answers have been
handled.
-/

namespace CockatielEngine

open TaskPool

/-- The entry waits for the last answer of its module: its stage is the last one, and
the stage message is not sent again. -/
def PendingAck.IsLast (entry : PendingAck) : Prop :=
  entry.stage = .postProcess ∧ SweepFrame.wantsResend entry = false

/-- What the sweep has drained of the message are last answers, and none is that of a
critical module. -/
def SweepConcludes (uuid7 : String) (approve : Bool) (sw : Sweep) : Prop :=
  ∀ x ∈ sw.todo, x.1.uuid7 = uuid7 →
    approve = true ∧ x.1.IsLast ∧
      sw.config.criticalModules.contains x.1.moduleName = false ∧
      sw.criticalUuids.contains uuid7 = false

/-- If the frame works on the message, it can only bring it to the end that the
decision gives it. -/
def Concludes (uuid7 : String) (approve : Bool) (e : Engine) : Frame → Prop
  | .terminal (.check v ending) => v = uuid7 → approve = true ∧ ending = .complete
  | .terminal (.take v ending) => v = uuid7 → approve = true ∧ ending = .complete
  | .terminal (.write v ending _) =>
      v = uuid7 → approve = true ∧ ending = .complete ∧ e.pipelineStates uuid7 = none
  | .terminal (.ack v) => v = uuid7 → e.pipelineStates uuid7 = none
  | .terminal (.snapshot _) => True
  | .terminal (.writeHeld _ _) => True
  | .reply (.record r) => r.uuid7 = uuid7 → r.stage = .postProcess
  | .reply (.audio r) => r.uuid7 = uuid7 → r.stage = .postProcess
  | .reply (.ackConfig _ _) => True
  | .reply (.ackModule _ _ _) => True
  | .sweep (.next sw) => SweepConcludes uuid7 approve sw
  | .sweep (.resendLoad sw entry _) =>
      entry.uuid7 ≠ uuid7 ∧ SweepConcludes uuid7 approve sw
  | .sweep (.resendSend sw entry _ _) =>
      entry.uuid7 ≠ uuid7 ∧ SweepConcludes uuid7 approve sw
  | .sweep (.resendTrack sw entry) =>
      entry.uuid7 ≠ uuid7 ∧ SweepConcludes uuid7 approve sw
  | f => ¬ WorksOn uuid7 f

/-- The sweep is going to take the message out of its last stage. -/
def SweepSeesOut (uuid7 : String) (sw : Sweep) : Prop :=
  sw.resent.contains uuid7 = false ∧ sw.advanced.contains uuid7 = false ∧
    ∃ x ∈ sw.todo, x.1.uuid7 = uuid7 ∧ x.2 = false

/-- The frame leads to the step that takes the message's state out of memory. -/
def SeesOut (uuid7 : String) : Frame → Prop
  | .terminal (.check v _) => v = uuid7
  | .terminal (.take v _) => v = uuid7
  | .sweep (.next sw) => SweepSeesOut uuid7 sw
  | .sweep (.resendLoad sw _ _) => SweepSeesOut uuid7 sw
  | .sweep (.resendSend sw _ _ _) => SweepSeesOut uuid7 sw
  | .sweep (.resendTrack sw _) => SweepSeesOut uuid7 sw
  | _ => False

/-- What memory keeps of the message can only bring it to the end that the decision
gives it: no hold, last answers of an approved message only, no task that does
anything else, and no state that nobody is going to take. -/
structure Concluding (uuid7 : String) (approve : Bool) (s : EnginePool) : Prop where
  held : ∀ point, (uuid7, point) ∉ s.shared.pauseState.held
  pending : ∀ entry ∈ s.shared.ackTracker.pending, entry.uuid7 = uuid7 →
    approve = true ∧ entry.IsLast
  tasks : ∀ f ∈ s.frames, Concludes uuid7 approve s.shared f
  state : s.shared.pipelineStates uuid7 ≠ none →
    (∃ entry ∈ s.shared.ackTracker.pending, entry.uuid7 = uuid7) ∨
      ∃ f ∈ s.frames, SeesOut uuid7 f

/-- The message has been decided. -/
def Decided (uuid7 : String) (e : Engine) : Prop :=
  ∃ approve, .released uuid7 approve ∈ e.log

/-- A decision that commits finds in memory only what brings the message to its end,
and a flag after it nothing; no sweep after it finds an expired entry of the message
for a critical module. -/
def DecidesLast (uuid7 : String) (s : EnginePool) (a : Answer) : Frame → Prop
  | .audit (.release v approve) =>
      v = uuid7 → a.dbOk = true → s.shared.timeline.isAudited uuid7 = true →
        Concluding uuid7 approve s
  | .audit (.mark v _) =>
      v = uuid7 → a.dbOk = true → Decided uuid7 s.shared → Forgotten uuid7 s
  | .sweep (.drain cfg) =>
      Decided uuid7 s.shared → ∀ entry ∈ s.shared.ackTracker.pending,
        entry.uuid7 = uuid7 → entry.expired s.shared.now = true →
        cfg.criticalModules.contains entry.moduleName = false
  | _ => True

/-- After the decision no error ends a task that is going to take the message's
state. -/
def FailsElsewhere (uuid7 : String) (s : EnginePool) : EngineLabel → Prop
  | .run i a =>
      Decided uuid7 s.shared → ∀ t ∈ s.threads[i]?, ∀ f ∈ t.head?,
        (f.step s.shared a).next = none → ∀ g ∈ t, ¬ SeesOut uuid7 g
  | .world _ => True

/-- The side condition of a run. -/
def LeavesDecided (uuid7 : String) (s : EnginePool) (l : EngineLabel) : Prop :=
  OnRun (DecidesLast uuid7) s l ∧ FailsElsewhere uuid7 s l

/-- The step flags or releases the message. -/
def Audits (uuid7 : String) (s : EnginePool) (l : EngineLabel) : Prop :=
  ∃ i a f rest, l = .run i a ∧ s.threads[i]? = some (.audit f :: rest) ∧
    ∃ g, (Frame.audit f).rowUpdate s.shared.now = some (uuid7, g)

instance (uuid7 : String) (e : Engine) : Decidable (Decided uuid7 e) :=
  decidable_of_iff (.released uuid7 true ∈ e.log ∨ .released uuid7 false ∈ e.log)
    ⟨fun h => h.elim (fun h => ⟨true, h⟩) fun h => ⟨false, h⟩,
      fun ⟨approve, h⟩ => by cases approve <;> simp [h]⟩

instance (entry : PendingAck) : Decidable entry.IsLast :=
  inferInstanceAs (Decidable (_ ∧ _))

instance (uuid7 : String) (approve : Bool) (sw : Sweep) :
    Decidable (SweepConcludes uuid7 approve sw) :=
  inferInstanceAs (Decidable (∀ x ∈ sw.todo, _ → _ ∧ PendingAck.IsLast x.1 ∧ _ ∧ _))

instance (uuid7 : String) (approve : Bool) (e : Engine) :
    DecidablePred (Concludes uuid7 approve e) := fun f =>
  match f with
  | .terminal (.check _ _) | .terminal (.take _ _) =>
      inferInstanceAs (Decidable (_ → _ ∧ _))
  | .terminal (.write _ _ _) => inferInstanceAs (Decidable (_ → _ ∧ _ ∧ _))
  | .terminal (.ack _) | .reply (.record _) | .reply (.audio _) =>
      inferInstanceAs (Decidable (_ → _ = _))
  | .terminal (.snapshot _) | .terminal (.writeHeld _ _) | .reply (.ackConfig _ _)
  | .reply (.ackModule _ _ _) => instDecidableTrue
  | .sweep (.next sw) => inferInstanceAs (Decidable (SweepConcludes uuid7 approve sw))
  | .sweep (.resendLoad sw _ _) | .sweep (.resendSend sw _ _ _)
  | .sweep (.resendTrack sw _) =>
      inferInstanceAs (Decidable (_ ≠ _ ∧ SweepConcludes uuid7 approve sw))
  | .reply (.check r) =>
      inferInstanceAs (Decidable (¬ WorksOn uuid7 (.reply (.check r))))
  | .reply (.receipt v m) =>
      inferInstanceAs (Decidable (¬ WorksOn uuid7 (.reply (.receipt v m))))
  | .sweep .start => inferInstanceAs (Decidable (¬ WorksOn uuid7 (.sweep .start)))
  | .sweep .config => inferInstanceAs (Decidable (¬ WorksOn uuid7 (.sweep .config)))
  | .sweep (.drain cfg) =>
      inferInstanceAs (Decidable (¬ WorksOn uuid7 (.sweep (.drain cfg))))
  | .ingest f => inferInstanceAs (Decidable (¬ WorksOn uuid7 (.ingest f)))
  | .recovery f => inferInstanceAs (Decidable (¬ WorksOn uuid7 (.recovery f)))
  | .broadcast f => inferInstanceAs (Decidable (¬ WorksOn uuid7 (.broadcast f)))
  | .fanout f => inferInstanceAs (Decidable (¬ WorksOn uuid7 (.fanout f)))
  | .inProcess f => inferInstanceAs (Decidable (¬ WorksOn uuid7 (.inProcess f)))
  | .postProcess f => inferInstanceAs (Decidable (¬ WorksOn uuid7 (.postProcess f)))
  | .advance f => inferInstanceAs (Decidable (¬ WorksOn uuid7 (.advance f)))
  | .gate t => inferInstanceAs (Decidable (¬ WorksOn uuid7 (.gate t)))
  | .resume f => inferInstanceAs (Decidable (¬ WorksOn uuid7 (.resume f)))
  | .audit f => inferInstanceAs (Decidable (¬ WorksOn uuid7 (.audit f)))

instance (uuid7 : String) (sw : Sweep) : Decidable (SweepSeesOut uuid7 sw) :=
  inferInstanceAs (Decidable (_ ∧ _ ∧ ∃ x ∈ sw.todo, _ ∧ _))

instance (uuid7 : String) : DecidablePred (SeesOut uuid7) := fun f =>
  match f with
  | .terminal (.check _ _) | .terminal (.take _ _) =>
      inferInstanceAs (Decidable (_ = uuid7))
  | .sweep (.next sw) | .sweep (.resendLoad sw _ _) | .sweep (.resendSend sw _ _ _)
  | .sweep (.resendTrack sw _) => inferInstanceAs (Decidable (SweepSeesOut uuid7 sw))
  | .terminal (.write _ _ _) | .terminal (.ack _) | .terminal (.snapshot _)
  | .terminal (.writeHeld _ _) | .sweep .start | .sweep .config | .sweep (.drain _)
  | .ingest _ | .recovery _ | .broadcast _ | .fanout _ | .inProcess _ | .postProcess _
  | .reply _ | .advance _ | .gate _ | .resume _ | .audit _ => instDecidableFalse

instance (uuid7 : String) (approve : Bool) (s : EnginePool) :
    Decidable (Concluding uuid7 approve s) :=
  decidable_of_iff
    ((¬ ∃ point, (uuid7, point) ∈ s.shared.pauseState.held) ∧
      (∀ entry ∈ s.shared.ackTracker.pending, entry.uuid7 = uuid7 →
        approve = true ∧ entry.IsLast) ∧
      (∀ f ∈ s.frames, Concludes uuid7 approve s.shared f) ∧
      (s.shared.pipelineStates uuid7 ≠ none →
        (∃ entry ∈ s.shared.ackTracker.pending, entry.uuid7 = uuid7) ∨
          ∃ f ∈ s.frames, SeesOut uuid7 f))
    ⟨fun ⟨hheld, hpending, htasks, hstate⟩ =>
        ⟨fun point hmem => hheld ⟨point, hmem⟩, hpending, htasks, hstate⟩,
      fun h => ⟨fun ⟨point, hmem⟩ => h.held point hmem, h.pending, h.tasks, h.state⟩⟩

instance (uuid7 : String) (s : EnginePool) (a : Answer) (f : Frame) :
    Decidable (DecidesLast uuid7 s a f) :=
  match f with
  | .audit (.release _ approve) =>
      inferInstanceAs (Decidable (_ → _ → _ → Concluding uuid7 approve s))
  | .audit (.mark _ _) =>
      inferInstanceAs (Decidable (_ → _ → Decided uuid7 s.shared → Forgotten uuid7 s))
  | .sweep (.drain _) =>
      inferInstanceAs (Decidable (Decided uuid7 s.shared →
        ∀ entry ∈ s.shared.ackTracker.pending, _ → _ → _))
  | .audit (.flag _ _) | .ingest _ | .recovery _ | .broadcast _ | .fanout _
  | .inProcess _ | .postProcess _ | .terminal _ | .reply _ | .advance _ | .sweep .start
  | .sweep .config | .sweep (.next _) | .sweep (.resendLoad _ _ _)
  | .sweep (.resendSend _ _ _ _) | .sweep (.resendTrack _ _) | .gate _
  | .resume _ => instDecidableTrue

instance (uuid7 : String) (s : EnginePool) (l : EngineLabel) :
    Decidable (FailsElsewhere uuid7 s l) :=
  match l with
  | .run i a =>
      inferInstanceAs (Decidable (Decided uuid7 s.shared → ∀ t ∈ s.threads[i]?,
        ∀ f ∈ t.head?, (f.step s.shared a).next = none → ∀ g ∈ t, ¬ SeesOut uuid7 g))
  | .world _ => instDecidableTrue

instance (uuid7 : String) (s : EnginePool) (l : EngineLabel) :
    Decidable (LeavesDecided uuid7 s l) :=
  inferInstanceAs (Decidable (OnRun (DecidesLast uuid7) s l ∧ FailsElsewhere uuid7 s l))

section Steps

variable {uuid7 : String} {approve : Bool} {e e' : Engine} {a : Answer} {f g : Frame}

theorem not_maySend_of_not_worksOn
    {f : Frame} (h : ¬ WorksOn uuid7 f) :
    ¬ MaySend uuid7 f := by
  have hdrained {sw : Sweep} (howes : OwesResend uuid7 sw) :
      HasDrained uuid7 sw := by
    obtain ⟨x, hx, hu, -⟩ := howes
    exact ⟨x, hx, hu⟩
  intro hsend
  cases f with
  | fanout f => cases f <;> exact h hsend.1
  | sweep f =>
      cases f with
      | next => exact h (hdrained hsend)
      | resendLoad => exact h (hsend.imp id hdrained)
      | resendSend => exact h (hsend.imp id hdrained)
      | resendTrack => exact h (Or.inr (hdrained hsend))
      | _ => exact hsend
  | resume f =>
      cases f with
      | restartClocks => exact hsend
      | _ => exact h ⟨_, hsend⟩
  | ingest f => cases f <;> exact h hsend
  | recovery f => cases f <;> exact h hsend
  | broadcast f => cases f <;> exact h hsend
  | inProcess f => cases f <;> first | exact h hsend | exact hsend
  | postProcess f => cases f <;> first | exact h hsend | exact hsend
  | _ => exact hsend

theorem concludes_of_not_worksOn
    (h : ¬ WorksOn uuid7 f) :
    Concludes uuid7 approve e f := by
  have hsweep {sw : Sweep} (hnone : ¬ HasDrained uuid7 sw) :
      SweepConcludes uuid7 approve sw :=
    fun x hx hu => absurd ⟨x, hx, hu⟩ hnone
  cases f with
  | terminal f => cases f <;> first | trivial | exact fun hv => absurd hv h
  | reply f => cases f <;> first | trivial | exact h | exact fun hv => absurd hv h
  | sweep f =>
      cases f with
      | next sw => exact hsweep h
      | resendLoad => exact ⟨fun hu => h (Or.inl hu), hsweep fun hd => h (Or.inr hd)⟩
      | resendSend => exact ⟨fun hu => h (Or.inl hu), hsweep fun hd => h (Or.inr hd)⟩
      | resendTrack => exact ⟨fun hu => h (Or.inl hu), hsweep fun hd => h (Or.inr hd)⟩
      | _ => exact h
  | _ => exact h

theorem Forgotten.concluding
    {s : EnginePool}
    (h : Forgotten uuid7 s) :
    Concluding uuid7 approve s where
  held := h.held
  pending entry hentry hu := absurd hu (h.pending entry hentry)
  tasks f hf := concludes_of_not_worksOn (h.tasks f hf)
  state hstate := absurd h.state hstate

theorem Concludes.mono
    (h : Concludes uuid7 approve e f)
    (hstate : e.pipelineStates uuid7 = none → e'.pipelineStates uuid7 = none) :
    Concludes uuid7 approve e' f := by
  cases f with
  | terminal f =>
      cases f with
      | write v ending result =>
          exact fun hv => ⟨(h hv).1, (h hv).2.1, hstate (h hv).2.2⟩
      | ack v => exact fun hv => hstate (h hv)
      | _ => exact h
  | reply f => cases f <;> exact h
  | sweep f => cases f <;> exact h
  | _ => exact h

theorem Concludes.not_maySend
    (h : Concludes uuid7 approve e f) :
    ¬ MaySend uuid7 f := by
  have hsweep {sw : Sweep} (hsw : SweepConcludes uuid7 approve sw) :
      ¬ OwesResend uuid7 sw := by
    rintro ⟨x, hx, hu, hwants⟩
    have hlast := (hsw x hx hu).2.1.2
    rw [hwants] at hlast
    cases hlast
  cases f with
  | terminal f => exact id
  | reply f => exact id
  | sweep f =>
      cases f with
      | next sw => exact hsweep h
      | resendLoad => exact fun hs => hs.elim h.1 (hsweep h.2)
      | resendSend => exact fun hs => hs.elim h.1 (hsweep h.2)
      | resendTrack => exact hsweep h.2
      | _ => exact id
  | _ => exact not_maySend_of_not_worksOn h

theorem Concludes.tracks_ne
    {entry : PendingAck} {now : Nat}
    (h : Concludes uuid7 approve e f)
    (htracks : f.tracks now = some entry) :
    entry.uuid7 ≠ uuid7 := by
  cases f with
  | sweep f =>
      cases f with
      | resendTrack sw x =>
          obtain rfl := Option.some.inj htracks
          exact h.1
      | _ => simp [Frame.tracks] at htracks
  | fanout f => exact CockatielEngine.tracks_ne h htracks
  | inProcess f => exact CockatielEngine.tracks_ne h htracks
  | _ => simp [Frame.tracks] at htracks

theorem Concludes.hold_ne
    {point : HoldPoint}
    (h : Concludes uuid7 approve e f) :
    f.hold ≠ some (uuid7, point) := by
  cases f with
  | broadcast f => exact CockatielEngine.hold_ne h
  | inProcess f => exact CockatielEngine.hold_ne h
  | postProcess f => exact CockatielEngine.hold_ne h
  | _ => simp [Frame.hold]

theorem Concludes.installs_ne
    (h : Concludes uuid7 approve e f) :
    f.installs ≠ some uuid7 := by
  cases f with
  | ingest f => cases f <;> simp_all [Frame.installs, Concludes, WorksOn]
  | recovery f => cases f <;> simp_all [Frame.installs, Concludes, WorksOn]
  | _ => simp [Frame.installs]

theorem SweepConcludes.tail
    {sw : Sweep} {x : PendingAck × Bool} {todo : List (PendingAck × Bool)}
    (htodo : sw.todo = x :: todo)
    (h : SweepConcludes uuid7 approve sw) :
    SweepConcludes uuid7 approve { sw with todo := todo } :=
  fun y hy => h y (by rw [htodo]; exact List.mem_cons_of_mem _ hy)

theorem Expires.concludes
    {sw : Sweep} {entry : PendingAck} {still : Bool}
    (hexp : Expires sw entry still g)
    (hsw : SweepConcludes uuid7 approve sw)
    (hentry : entry.uuid7 = uuid7 → approve = true ∧ entry.stage = .postProcess ∧
      sw.config.criticalModules.contains entry.moduleName = false) :
    Concludes uuid7 approve e g := by
  cases hexp with
  | fail hcrit _ =>
      intro hu
      rw [(hentry hu).2.2] at hcrit
      cases hcrit
  | advance _ _ =>
      by_cases hu : entry.uuid7 = uuid7
      · obtain ⟨happrove, hstage, -⟩ := hentry hu
        rw [hstage]
        exact fun _ => ⟨happrove, rfl⟩
      · cases entry.stage with
        | postProcess => exact fun hv => absurd hv hu
        | _ => exact hu
  | _ => exact hsw

/-- Only the last entries of an approved message are still acked. -/
theorem last_of_ackModule
    {v m : String} {stage : Stage} {elapsed : Nat} {still : Bool}
    {tracker : AckTracker}
    (hpending : ∀ entry ∈ e.ackTracker.pending, entry.uuid7 = uuid7 →
      approve = true ∧ entry.IsLast)
    (hack : e.ackTracker.ackModule e.now v m = (some (stage, elapsed, still), tracker))
    (hv : v = uuid7) :
    approve = true ∧ stage = .postProcess := by
  rcases e.ackTracker.ackModule_cases e.now v m with
    ⟨hnone, -⟩ | ⟨entry, hmem, _, hu, -, -, hsome⟩
  · rw [hnone] at hack
    cases hack
  · obtain ⟨happrove, hlast, -⟩ := hpending entry hmem (hu.trans hv)
    rw [hsome] at hack
    obtain rfl : entry.stage = stage := by
      simpa using congrArg (fun p => p.1.map (·.1)) hack
    exact ⟨happrove, hlast⟩

/-- What a drain takes out of the message's entries ends in its completion. -/
theorem sweepConcludes_drained
    {cfg : PipelineConfig}
    (hpending : ∀ entry ∈ e.ackTracker.pending, entry.uuid7 = uuid7 →
      approve = true ∧ entry.IsLast)
    (hdrain : ∀ entry ∈ e.ackTracker.pending, entry.uuid7 = uuid7 →
      entry.expired e.now = true →
      cfg.criticalModules.contains entry.moduleName = false) :
    SweepConcludes uuid7 approve
      { config := cfg
        criticalUuids := SweepFrame.criticalUuids cfg
          (SweepFrame.drained a (e.ackTracker.checkTimeouts e.now).1)
        todo := SweepFrame.drained a (e.ackTracker.checkTimeouts e.now).1 } := by
  have hentry (x : PendingAck × Bool)
      (hx : x ∈ SweepFrame.drained a (e.ackTracker.checkTimeouts e.now).1)
      (hu : x.1.uuid7 = uuid7) :
      (approve = true ∧ x.1.IsLast) ∧
        cfg.criticalModules.contains x.1.moduleName = false := by
    obtain ⟨hmem, hexp, -⟩ :=
      (AckTracker.mem_checkTimeouts_iff ..).mp (SweepFrame.mem_drained_iff.mp hx)
    exact ⟨hpending x.1 hmem hu, hdrain x.1 hmem hu hexp⟩
  intro x hx hu
  obtain ⟨⟨happrove, hlast⟩, hcritical⟩ := hentry x hx hu
  refine ⟨happrove, hlast, hcritical, ?_⟩
  rw [Bool.eq_false_iff]
  intro hin
  obtain ⟨y, hy, hyu⟩ := List.mem_map.mp (List.contains_iff_mem.mp hin)
  obtain ⟨hy, hycritical⟩ := List.mem_filter.mp hy
  rw [(hentry y hy hyu).2] at hycritical
  cases hycritical

/-- Where the row is no longer queued and no hold is left, a step of a task that
concludes leads only to others that do. -/
theorem concludes_new
    {r : Row}
    (hr : e.timeline.row? uuid7 = some r)
    (hqueued : r.pipelineStatus ≠ .queued)
    (hheld : ∀ point, (uuid7, point) ∉ e.pauseState.held)
    (hpending : ∀ entry ∈ e.ackTracker.pending, entry.uuid7 = uuid7 →
      approve = true ∧ entry.IsLast)
    (hdrain : ∀ cfg, f = .sweep (.drain cfg) → ∀ entry ∈ e.ackTracker.pending,
      entry.uuid7 = uuid7 → entry.expired e.now = true →
      cfg.criticalModules.contains entry.moduleName = false)
    (hf : Concludes uuid7 approve e f)
    (hg : g ∈ (f.step e a).new) :
    Concludes uuid7 approve (f.step e a).shared g := by
  have hrow {v : String} (hnone : e.timeline.row? v = none) : v ≠ uuid7 := by
    rintro rfl
    rw [hr] at hnone
    cases hnone
  have hexpired {sw : Sweep} {entry : PendingAck} {still : Bool}
      (hexp : Expires sw entry still g)
      (hsw : entry.uuid7 ≠ uuid7 ∧ SweepConcludes uuid7 approve sw) :
      Concludes uuid7 approve (f.step e a).shared g :=
    hexp.concludes hsw.2 fun hu => absurd hu hsw.1
  cases Frame.leads hg with
  | insertEvent_setCommand hnone => exact hrow hnone
  | insertEvent_setUserUuid hnone => exact hrow hnone
  | insertEvent_insertState hnone => exact hrow hnone
  | recover_insertState hload =>
      rintro rfl
      simp [Timeline.loadQueuedMessage, hr, hqueued] at hload
  | terminal_held => trivial
  | terminal_writeHeld => trivial
  | terminal_write =>
      intro hv
      obtain ⟨happrove, hcomplete⟩ := hf hv
      subst hv
      refine ⟨happrove, hcomplete, ?_⟩
      simp only [Frame.step, TerminalFrame.step]
      split <;> simp_all [Engine.putState]
  | terminal_ack =>
      intro hv
      rw [Frame.step_pipelineStates e a (by simp [Frame.stateSubject])]
      exact (hf hv).2.2
  | reply_record howns =>
      intro hu
      obtain ⟨entry, hmem, heu, -, hstage⟩ := (AckTracker.isPendingFor_iff ..).mp howns
      exact hstage ▸ (hpending entry hmem (heu.trans hu)).2.1
  | reply_abandon hstage _ =>
      intro hu
      have hpost := hf hu
      rw [hstage] at hpost
      cases hpost
  | reply_ackConfig => trivial
  | reply_ackModule => trivial
  | ack_pre hack => exact fun hv => by cases (last_of_ackModule hpending hack hv).2
  | ack_in hack => exact fun hv => by cases (last_of_ackModule hpending hack hv).2
  | ack_post hack => exact fun hv => ⟨(last_of_ackModule hpending hack hv).1, rfl⟩
  | @fanout_nobody fo _ =>
      cases fo.stage with
      | postProcess => exact fun hv => absurd hv hf
      | _ => exact hf
  | @sweep_first cfg todo htodo =>
      subst htodo
      exact sweepConcludes_drained hpending (hdrain cfg rfl)
  | @sweep_resendLoad sw entry still todo htodo hwants =>
      refine ⟨fun hu => ?_, SweepConcludes.tail htodo hf⟩
      have hlast :=
        (hf (entry, still) (by rw [htodo]; exact List.mem_cons_self ..) hu).2.1.2
      rw [hwants] at hlast
      cases hlast
  | @sweep_expire sw entry still todo _ htodo _ hexp =>
      refine hexp.concludes (SweepConcludes.tail htodo hf) fun hu => ?_
      obtain ⟨happrove, hlast, hcritical, -⟩ :=
        hf (entry, still) (by rw [htodo]; exact List.mem_cons_self ..) hu
      exact ⟨happrove, hlast.1, hcritical⟩
  | sweep_gone _ hexp => exact hexpired hexp hf
  | sweep_unsent _ hexp => exact hexpired hexp hf
  | sweep_resent => exact hf.2
  | resume_spawnReplay =>
      rintro ⟨point, hmem⟩
      exact hheld point hmem
  | @replay_hold v point held =>
      have hv : v ≠ uuid7 := by
        rintro rfl
        exact hf ⟨point, List.mem_cons_self ..⟩
      cases point <;> exact hv
  | replay_next =>
      rintro ⟨point, hmem⟩
      exact hf ⟨point, List.mem_cons_of_mem _ hmem⟩
  | _ => exact hf

/-- Of the steps of a task that concludes, only an audit step changes the status of
the row. -/
theorem status_of_concludes
    {r : Row}
    (hr : e.timeline.row? uuid7 = some r)
    (happroved : approve = true → r.pipelineStatus = .complete)
    (hf : Concludes uuid7 approve e f) :
    (∃ r', (f.step e a).shared.timeline.row? uuid7 = some r' ∧
      r'.pipelineStatus = r.pipelineStatus) ∨
    ∃ f' h, f = .audit f' ∧ f.rowUpdate e.now = some (uuid7, h) ∧ a.dbOk = true ∧
      (f.step e a).shared.timeline.row? uuid7 = some (h r) := by
  rcases f.step_row e a uuid7 with hrow | ⟨_, _, _, hnone, _⟩ | ⟨hdb, h, hh, hrow⟩
  · exact Or.inl ⟨r, hrow.trans hr, rfl⟩
  · simp [hr] at hnone
  · rw [hr] at hrow
    cases f with
    | ingest f =>
        obtain ⟨f', hf'⟩ := rowUpdate_of_not_worksOn hf hh
        cases hf'
    | terminal f =>
        cases f <;> simp only [Frame.rowUpdate, Option.some.injEq, Prod.mk.injEq,
          reduceCtorEq] at hh
        · obtain ⟨rfl, rfl⟩ := hh
          refine Or.inl ⟨_, hrow, ?_⟩
          simp [Row.writeTerminalOutcome, PipelineOutcome.status]
        · obtain ⟨rfl, rfl⟩ := hh
          obtain ⟨happrove, hcomplete, -⟩ := hf rfl
          subst hcomplete
          refine Or.inl ⟨_, hrow, ?_⟩
          simp [Row.writeTerminalOutcome, Ending.outcome, PipelineOutcome.status,
            happroved happrove]
    | audit f => exact Or.inr ⟨f, h, rfl, hh, hdb, hrow⟩
    | _ => simp [Frame.rowUpdate] at hh

/-- The timeout path of another message's entry goes on with the sweep. -/
theorem seesOut_expire_other
    {sw : Sweep} {entry : PendingAck} {still : Bool}
    (hentry : entry.uuid7 ≠ uuid7)
    (h : SweepSeesOut uuid7 sw) :
    ∃ g ∈ (SweepFrame.expire e sw entry still).new, SeesOut uuid7 g := by
  unfold SweepFrame.expire
  split
  · split
    · exact ⟨_, List.mem_singleton_self _, h⟩
    · exact ⟨.sweep (.next { sw with failed := entry.uuid7 :: sw.failed }), by simp, h⟩
  · split
    · refine ⟨.sweep (.next { sw with advanced := entry.uuid7 :: sw.advanced }),
        by simp, h.1, ?_, h.2.2⟩
      simpa [hentry.symm] using h.2.1
    · exact ⟨_, List.mem_singleton_self _, h⟩

/-- The timeout path of an entry of the message takes it out of its last stage, or
leaves that to a later entry. -/
theorem seesOut_expire_own
    {sw : Sweep} {entry : PendingAck} {still : Bool} {todo : List (PendingAck × Bool)}
    (htodo : sw.todo = (entry, still) :: todo)
    (hu : entry.uuid7 = uuid7)
    (hconcludes : SweepConcludes uuid7 approve sw)
    (h : SweepSeesOut uuid7 sw) :
    ∃ g ∈ (SweepFrame.expire e { sw with todo := todo } entry still).new,
      SeesOut uuid7 g := by
  obtain ⟨hresent, hadvanced, x, hx, hxu, hxstill⟩ := h
  obtain ⟨-, ⟨hstage, -⟩, hcritical, huuids⟩ :=
    hconcludes (entry, still) (by rw [htodo]; exact List.mem_cons_self ..) hu
  subst hu
  unfold SweepFrame.expire
  rw [if_neg (by simpa using hcritical)]
  cases still with
  | false =>
      have hadvances :
          SweepFrame.advances { sw with todo := todo } entry false = true := by
        simp only [SweepFrame.advances, hresent, huuids, hadvanced]
        rfl
      rw [if_pos hadvances, hstage]
      exact ⟨.terminal (.check entry.uuid7 .complete),
        by simp [SweepFrame.advanceFrame], rfl⟩
  | true =>
      have hstays : ¬ SweepFrame.advances { sw with todo := todo } entry true = true := by
        simp [SweepFrame.advances]
      rw [if_neg hstays]
      refine ⟨_, List.mem_singleton_self _, hresent, hadvanced, x, ?_, hxu, hxstill⟩
      rw [htodo] at hx
      refine (List.mem_cons.mp hx).resolve_left ?_
      rintro rfl
      cases hxstill

/-- What is going to take the state hands that on, as long as it does not fail and the
state is there. -/
theorem seesOut_new
    (haudit : e.timeline.isAudited uuid7 = false)
    (hf : Concludes uuid7 approve e f)
    (hfinishes : SeesOut uuid7 f)
    (hnext : (f.step e a).next ≠ none)
    (hstate : (f.step e a).shared.pipelineStates uuid7 ≠ none) :
    ∃ g ∈ (f.step e a).new, SeesOut uuid7 g := by
  cases f with
  | terminal f =>
      cases f with
      | check v ending =>
          obtain rfl : v = uuid7 := hfinishes
          cases hdb : a.dbOk with
          | true =>
              refine ⟨.terminal (.take v ending), ?_, rfl⟩
              simp [Frame.step, TerminalFrame.step, hdb, haudit]
          | false => simp [Frame.step, TerminalFrame.step, hdb, fail] at hnext
      | take v ending =>
          obtain rfl : v = uuid7 := hfinishes
          refine absurd ?_ hstate
          simp only [Frame.step, TerminalFrame.step]
          split <;> simp_all [Engine.putState]
      | _ => exact hfinishes.elim
  | sweep f =>
      cases f with
      | next sw =>
          obtain ⟨hresent, hadvanced, x, hx, hxu, hxstill⟩ := id hfinishes
          cases htodo : sw.todo with
          | nil => simp [htodo] at hx
          | cons y todo =>
              obtain ⟨entry, still⟩ := y
              have htail (hne : entry.uuid7 ≠ uuid7) :
                  SweepSeesOut uuid7 { sw with todo := todo } := by
                refine ⟨hresent, hadvanced, x, ?_, hxu, hxstill⟩
                rw [htodo] at hx
                refine (List.mem_cons.mp hx).resolve_left ?_
                rintro rfl
                exact hne hxu
              simp only [Frame.step, SweepFrame.step, htodo]
              by_cases hu : entry.uuid7 = uuid7
              · have hlast := (hf (entry, still)
                  (by rw [htodo]; exact List.mem_cons_self ..) hu).2.1.2
                rw [hlast, if_neg (by simp)]
                exact seesOut_expire_own htodo hu hf hfinishes
              · split
                · exact ⟨_, List.mem_singleton_self _, htail hu⟩
                · exact seesOut_expire_other hu (htail hu)
      | resendLoad sw entry still =>
          simp only [Frame.step, SweepFrame.step]
          split
          · exact seesOut_expire_other hf.1 hfinishes
          · exact ⟨_, List.mem_singleton_self _, hfinishes⟩
      | resendSend sw entry still container =>
          simp only [Frame.step, SweepFrame.step]
          split
          · exact ⟨_, List.mem_singleton_self _, hfinishes⟩
          · exact seesOut_expire_other hf.1 hfinishes
      | resendTrack sw entry =>
          refine ⟨.sweep (.next { sw with resent := entry.uuid7 :: sw.resent }),
            List.mem_singleton_self _, ?_, hfinishes.2⟩
          simpa [hf.1.symm] using hfinishes.1
      | _ => exact hfinishes.elim
  | _ => exact hfinishes.elim

end Steps

section Runs

variable {uuid7 : String} {approve : Bool} {s : EnginePool} {i : Nat} {a : Answer}
variable {f : Frame} {rest : List Frame}

/-- An entry of the message that goes leaves another one, or the step that takes the
state. -/
theorem Concluding.entry_run
    {entry : PendingAck}
    (h : Concluding uuid7 approve s)
    (hi : s.threads[i]? = some (f :: rest))
    (hmem : entry ∈ s.shared.ackTracker.pending)
    (hu : entry.uuid7 = uuid7)
    (hstate : s.shared.pipelineStates uuid7 ≠ none) :
    (∃ y ∈ (f.step s.shared a).shared.ackTracker.pending, y.uuid7 = uuid7) ∨
      ∃ g ∈ (f.step s.shared a).new, SeesOut uuid7 g := by
  subst hu
  rcases Frame.mem_pending_of_mem s.shared a (f := f) hmem with
    ⟨y, hy, hyx⟩ | ⟨len, rfl⟩ | rfl | ⟨cfg, rfl, hexp⟩
  · refine Or.inl ⟨y, hy, ?_⟩
    rcases hyx with rfl | rfl | rfl <;> rfl
  · rcases s.shared.ackTracker.ackModule_cases s.shared.now entry.uuid7
      entry.moduleName with ⟨-, hnone⟩ | ⟨x, hx, tracker, hxu, -, -, hack⟩
    · exact absurd (hnone entry hmem) (by simp [PendingAck.isFor])
    · have hstage : x.stage = .postProcess := (h.pending x hx hxu).2.1
      cases hstill : tracker.hasPending entry.uuid7 with
      | true =>
          obtain ⟨y, hy, hyu⟩ := (AckTracker.hasPending_iff ..).mp hstill
          refine Or.inl ⟨y, ?_, hyu⟩
          simpa [Frame.step, ReplyFrame.step, hack, hstage, hstill] using hy
      | false =>
          refine Or.inr ⟨.terminal (.check entry.uuid7 .complete), ?_, rfl⟩
          simp [Frame.step, ReplyFrame.step, hack, hstage, hstill]
  · have hnone : s.shared.pipelineStates entry.uuid7 = none :=
      h.tasks _ (mem_frames_of_getElem? hi (List.mem_cons_self ..)) rfl
    exact absurd hnone hstate
  · cases hstill : (s.shared.ackTracker.checkTimeouts s.shared.now).2.hasPending
        entry.uuid7 with
    | true =>
        obtain ⟨y, hy, hyu⟩ := (AckTracker.hasPending_iff ..).mp hstill
        exact Or.inl ⟨y, hy, hyu⟩
    | false =>
        refine Or.inr ⟨_, List.mem_singleton_self _, rfl, rfl, (entry, false), ?_, rfl,
          rfl⟩
        exact SweepFrame.mem_drained_iff.mpr
          ((AckTracker.mem_checkTimeouts_iff ..).mpr ⟨hmem, hexp, hstill.symm⟩)

/-- While the state is there, an entry or a task is left that leads to taking it. -/
theorem Concluding.state_run
    (h : Concluding uuid7 approve s)
    (haudit : s.shared.timeline.isAudited uuid7 = false)
    (hi : s.threads[i]? = some (f :: rest))
    (hfails : (f.step s.shared a).next = none →
      ∀ g ∈ f :: rest, ¬ SeesOut uuid7 g)
    (hstate : (f.step s.shared a).shared.pipelineStates uuid7 ≠ none) :
    (∃ entry ∈ (f.step s.shared a).shared.ackTracker.pending, entry.uuid7 = uuid7) ∨
      ∃ g ∈ (afterRun s i a f rest).frames, SeesOut uuid7 g := by
  have hf := h.tasks f (mem_frames_of_getElem? hi (List.mem_cons_self ..))
  have hbefore : s.shared.pipelineStates uuid7 ≠ none := fun hnone =>
    hstate (Frame.step_pipelineStates_none s.shared a hnone hf.installs_ne)
  have hnew (hg : ∃ g ∈ (f.step s.shared a).new, SeesOut uuid7 g) :
      ∃ g ∈ (afterRun s i a f rest).frames, SeesOut uuid7 g := by
    obtain ⟨g, hg, hfin⟩ := hg
    exact ⟨g, mem_frames_of_new hi hg, hfin⟩
  rcases h.state hbefore with ⟨entry, hmem, hu⟩ | ⟨g, hg, hfin⟩
  · exact (h.entry_run hi hmem hu hbefore).imp id hnew
  · refine Or.inr ?_
    by_cases hnext : (f.step s.shared a).next = none
    · exact ⟨g, mem_frames_of_not_mem hi hg fun hin => hfails hnext g hin hfin, hfin⟩
    · by_cases hgf : g = f
      · subst hgf
        exact hnew (seesOut_new haudit hf hfin hnext hstate)
      · exact ⟨g, mem_frames_of_ne hi hnext hg hgf, hfin⟩

theorem Concluding.run
    {r : Row}
    (h : Concluding uuid7 approve s)
    (hr : s.shared.timeline.row? uuid7 = some r)
    (hqueued : r.pipelineStatus ≠ .queued)
    (haudit : r.pipelineStatus ≠ .audit)
    (hi : s.threads[i]? = some (f :: rest))
    (hdrain : ∀ cfg, f = .sweep (.drain cfg) →
      ∀ entry ∈ s.shared.ackTracker.pending,
        entry.uuid7 = uuid7 → entry.expired s.shared.now = true →
        cfg.criticalModules.contains entry.moduleName = false)
    (hfails : (f.step s.shared a).next = none →
      ∀ g ∈ f :: rest, ¬ SeesOut uuid7 g) :
    Concluding uuid7 approve (afterRun s i a f rest) := by
  have hf := h.tasks f (mem_frames_of_getElem? hi (List.mem_cons_self ..))
  have hfree : s.shared.timeline.isAudited uuid7 = false := by
    simp [Timeline.isAudited, hr, haudit]
  refine ⟨fun point hmem => ?_, fun entry hentry hu => ?_, fun g hg => ?_,
    h.state_run hfree hi hfails⟩
  · rcases Frame.mem_held_step s.shared a hmem with hmem | hhold
    · exact h.held point hmem
    · exact hf.hold_ne hhold
  · rcases Frame.mem_pending_step s.shared a hentry with ⟨x, hx, hxe⟩ | htracks
    · rcases hxe with rfl | rfl | ⟨-, rfl⟩
      · exact h.pending _ hx hu
      · obtain ⟨happrove, hstage, -⟩ := h.pending x hx hu
        exact ⟨happrove, hstage, by simp [SweepFrame.wantsResend]⟩
      · exact h.pending x hx hu
    · exact absurd hu (hf.tracks_ne htracks)
  · rcases mem_frames_after_run hi hg with hg | hg
    · exact concludes_new hr hqueued h.held h.pending hdrain hf hg
    · exact (h.tasks g hg).mono fun hnone =>
        Frame.step_pipelineStates_none s.shared a hnone hf.installs_ne

theorem Concluding.world
    {ev : WorldEvent}
    (h : Concluding uuid7 approve s) :
    Concluding uuid7 approve
      { shared := ev.effect s.shared, threads := s.threads ++ ev.starts } := by
  have hstates : (ev.effect s.shared).pipelineStates = s.shared.pipelineStates := by
    cases ev <;> rfl
  refine ⟨by cases ev <;> exact h.held, by cases ev <;> exact h.pending,
    fun g hg => ?_, fun hstate => ?_⟩
  · rcases mem_frames_after_world (r := (ev.effect s.shared, ev.starts)) hg with
      hg | hg
    · exact (h.tasks g hg).mono fun hnone => by rw [hstates]; exact hnone
    · cases opens_of_mem hg <;> exact id
  · simp only [hstates] at hstate
    rcases h.state hstate with hentry | ⟨g, hg, hfin⟩
    · exact Or.inl (by cases ev <;> exact hentry)
    · refine Or.inr ⟨g, ?_, hfin⟩
      simp only [Pool.frames, List.flatten_append, List.mem_append]
      exact Or.inl hg

/-- What a decision leaves behind: a row that recovery will not pick up, and in memory
nothing, or only what brings the message to its end. -/
def DecisionKept (uuid7 : String) (s : EnginePool) : Prop :=
  ∃ r, s.shared.timeline.row? uuid7 = some r ∧ r.pipelineStatus ≠ .queued ∧
    (Forgotten uuid7 s ∨ r.pipelineStatus ≠ .audit ∧
      Concluding uuid7 (decide (r.pipelineStatus = .complete)) s)

/-- A forgotten message whose row has left the queue stays forgotten. -/
theorem Forgotten.decisionKept_run
    {r : Row}
    (h : Forgotten uuid7 s)
    (hr : s.shared.timeline.row? uuid7 = some r)
    (hqueued : r.pipelineStatus ≠ .queued)
    (hi : s.threads[i]? = some (f :: rest)) :
    DecisionKept uuid7 (afterRun s i a f rest) := by
  have hf := h.tasks f (mem_frames_of_getElem? hi (List.mem_cons_self ..))
  have hforgot : Forgotten uuid7 (afterRun s i a f rest) :=
    h.run hi fun g hg => not_worksOn_new hr hqueued hf h.pending h.held hg
  rcases f.step_row s.shared a uuid7 with hrow | ⟨_, _, _, hnone, _⟩ | ⟨_, g, hg, hrow⟩
  · exact ⟨r, hrow.trans hr, hqueued, Or.inl hforgot⟩
  · simp [hr] at hnone
  · obtain ⟨f', rfl⟩ := rowUpdate_of_not_worksOn hf hg
    exact ⟨g r, by rw [hrow, hr]; rfl, status_audit_ne_queued hg hqueued,
      Or.inl hforgot⟩

theorem DecisionKept.run
    (h : DecisionKept uuid7 s)
    (hdecided : Decided uuid7 s.shared)
    (hok : DecidesLast uuid7 s a f)
    (hfails : (f.step s.shared a).next = none →
      ∀ g ∈ f :: rest, ¬ SeesOut uuid7 g)
    (hi : s.threads[i]? = some (f :: rest)) :
    DecisionKept uuid7 (afterRun s i a f rest) := by
  obtain ⟨r, hr, hqueued, hforgot | ⟨haudit, hconcluding⟩⟩ := h
  · exact hforgot.decisionKept_run hr hqueued hi
  · have hf := hconcluding.tasks f (mem_frames_of_getElem? hi (List.mem_cons_self ..))
    have hafter := hconcluding.run (a := a) hr hqueued haudit hi
      (by
        rintro cfg rfl
        exact hok hdecided) hfails
    rcases status_of_concludes (a := a) hr of_decide_eq_true hf with
      ⟨r', hr', hstatus⟩ | ⟨f', g, rfl, hg, hdb, hrow⟩
    · exact ⟨r', hr', hstatus ▸ hqueued, Or.inr ⟨hstatus ▸ haudit, hstatus ▸ hafter⟩⟩
    · cases f' with
      | flag v reason => simp [Frame.rowUpdate] at hg
      | mark v reason =>
          obtain ⟨rfl, -⟩ := by simpa [Frame.rowUpdate] using hg
          exact (hok rfl hdb hdecided).decisionKept_run hr hqueued hi
      | release v again =>
          obtain ⟨rfl, rfl⟩ := by simpa [Frame.rowUpdate] using hg
          have hsame : r.releaseAudit again s.shared.now = r := by
            simp [Row.releaseAudit, haudit]
          rw [hsame] at hrow
          exact ⟨r, hrow, hqueued, Or.inr ⟨haudit, hafter⟩⟩

/-- A decision that commits is kept. -/
theorem decisionKept_of_release
    (h : Concluding uuid7 approve s)
    (hi : s.threads[i]? = some (.audit (.release uuid7 approve) :: rest))
    (hdb : a.dbOk = true)
    (haudit : s.shared.timeline.isAudited uuid7 = true) :
    DecisionKept uuid7 (afterRun s i a (.audit (.release uuid7 approve)) rest) := by
  obtain ⟨r, hr, hstatus⟩ := (Timeline.isAudited_iff _ _).mp haudit
  have hshared : ((Frame.audit (.release uuid7 approve)).step s.shared a).shared =
      { s.shared with
        timeline := s.shared.timeline.releaseAudit uuid7 approve s.shared.now }.logged
        (.released uuid7 approve) := by
    simp [Frame.step, AuditFrame.step, hdb, haudit]
  have hnext :
      ((Frame.audit (.release uuid7 approve)).step s.shared a).next = some [] := by
    simp [Frame.step, AuditFrame.step, hdb, haudit, go]
  have hafter : Concluding uuid7 approve
      (afterRun s i a (.audit (.release uuid7 approve)) rest) := by
    refine ⟨fun point hmem => h.held point (by simpa [hshared, Engine.logged] using hmem),
      fun entry hentry =>
        h.pending entry (by simpa [hshared, Engine.logged] using hentry),
      fun g hg => ?_, fun hstate => ?_⟩
    · rcases mem_frames_after_run hi hg with hg | hg
      · simp [Frame.step, AuditFrame.step, hdb, haudit] at hg
      · exact (h.tasks g hg).mono fun hnone => by
          simpa [hshared, Engine.logged] using hnone
    · rcases h.state (by simpa [hshared, Engine.logged] using hstate) with
        hentry | ⟨g, hg, hfin⟩
      · exact Or.inl (by simpa [hshared, Engine.logged] using hentry)
      · refine Or.inr ⟨g, mem_frames_of_ne hi (by simp [hnext]) hg ?_, hfin⟩
        rintro rfl
        exact hfin
  refine ⟨r.releaseAudit approve s.shared.now, ?_, ?_, Or.inr ⟨?_, ?_⟩⟩
  · simp [hshared, Engine.logged, Timeline.releaseAudit, hr]
  · cases approve <;> simp [Row.releaseAudit, hstatus]
  · cases approve <;> simp [Row.releaseAudit, hstatus]
  · have hend : decide ((r.releaseAudit approve s.shared.now).pipelineStatus =
        .complete) = approve := by
      cases approve <;> simp [Row.releaseAudit, hstatus]
    rwa [hend]

/-- Once made, a decision is kept. -/
def KeptOnceDecided (uuid7 : String) (s : EnginePool) : Prop :=
  Decided uuid7 s.shared → DecisionKept uuid7 s

theorem KeptOnceDecided.fire
    {s' : EnginePool} {l : EngineLabel}
    (h : KeptOnceDecided uuid7 s)
    (hok : LeavesDecided uuid7 s l)
    (hfire : engine.fire s l = some s') :
    KeptOnceDecided uuid7 s' := by
  rintro ⟨approve, hlog⟩
  cases l with
  | world ev =>
      obtain ⟨q, hq, rfl⟩ := fire_world_cases hfire
      obtain rfl := engine_event_eq hq
      have hdecided : Decided uuid7 s.shared := ⟨approve, by cases ev <;> exact hlog⟩
      obtain ⟨r, hr, hqueued, hrest⟩ := h hdecided
      exact ⟨r, by cases ev <;> exact hr, hqueued,
        hrest.imp Forgotten.world (And.imp_right Concluding.world)⟩
  | run i a =>
      obtain ⟨f, rest, o, hi, ho, rfl⟩ := fire_run_cases hfire
      obtain rfl := engine_step_eq ho
      have hokf := hok.1.top hi
      by_cases hdecided : Decided uuid7 s.shared
      · exact (h hdecided).run hdecided hokf
          (hok.2 hdecided (f :: rest) hi f rfl) hi
      · obtain ⟨evs, hevs, hrecords⟩ := f.records s.shared a
        simp only [hevs, List.mem_append] at hlog
        rcases hlog with hlog | hlog
        · -- the decision has just been put on record
          cases hrecords _ hlog with
          | released hdb haudit =>
              exact decisionKept_of_release (hokf rfl hdb haudit) hi hdb haudit
        · exact absurd ⟨approve, hlog⟩ hdecided

end Runs

/-- Nothing of the message is outstanding: no answer, and no task at work on it. -/
def NothingOutstanding (uuid7 : String) (s : EnginePool) : Prop :=
  (∀ entry ∈ s.shared.ackTracker.pending, entry.uuid7 ≠ uuid7) ∧
    ∀ f ∈ s.frames, ¬ WorksOn uuid7 f

instance (uuid7 : String) (s : EnginePool) : Decidable (NothingOutstanding uuid7 s) :=
  inferInstanceAs (Decidable ((∀ entry ∈ s.shared.ackTracker.pending, _ ≠ _) ∧
    ∀ f ∈ s.frames, ¬ WorksOn uuid7 f))

theorem worksOn_of_seesOut
    {uuid7 : String} {f : Frame}
    (h : SeesOut uuid7 f) :
    WorksOn uuid7 f := by
  have hsweep {sw : Sweep} (hsw : SweepSeesOut uuid7 sw) : HasDrained uuid7 sw := by
    obtain ⟨-, -, x, hx, hxu, -⟩ := hsw
    exact ⟨x, hx, hxu⟩
  cases f with
  | terminal f => cases f <;> first | exact h | exact h.elim
  | sweep f =>
      cases f with
      | next => exact hsweep h
      | resendLoad => exact Or.inr (hsweep h)
      | resendSend => exact Or.inr (hsweep h)
      | resendTrack => exact Or.inr (hsweep h)
      | _ => exact h.elim
  | _ => exact h.elim

/-- **Main theorem.**  In a run that leaves decided messages to their end, once the
message is decided no step sends it to a module, none but an audit step changes its
status, and when no answer is outstanding any more nothing of it is in memory. -/
theorem audit_decision_final
    (uuid7 : String)
    (e : Engine)
    (hboot : e.log = [])
    {s s' : EnginePool} {l : EngineLabel}
    (hs : Reachable engine (LeavesDecided uuid7) (boot e) s)
    (hdecided : Decided uuid7 s.shared)
    (hfire : engine.fire s l = some s') :
    shown uuid7 s'.shared = shown uuid7 s.shared ∧
      (¬ Audits uuid7 s l →
        (s'.shared.timeline.row? uuid7).map Row.pipelineStatus =
          (s.shared.timeline.row? uuid7).map Row.pipelineStatus) ∧
      (NothingOutstanding uuid7 s → Forgotten uuid7 s) := by
  have hkept : DecisionKept uuid7 s :=
    hs.invariant (fun h => by simp [Decided, boot, hboot] at h)
      KeptOnceDecided.fire hdecided
  obtain ⟨r, hr, -, hmemory⟩ := hkept
  have hconcluding : ∃ approve, Concluding uuid7 approve s ∧
      (approve = true → r.pipelineStatus = .complete) := by
    rcases hmemory with hforgot | ⟨-, hconcluding⟩
    · exact ⟨false, hforgot.concluding, by simp⟩
    · exact ⟨_, hconcluding, of_decide_eq_true⟩
  obtain ⟨approve, hconcluding, happroved⟩ := hconcluding
  have hforgotten (hnothing : NothingOutstanding uuid7 s) : Forgotten uuid7 s := by
    refine ⟨by_contra fun hstate => ?_, hnothing.1, hconcluding.held, hnothing.2⟩
    rcases hconcluding.state hstate with ⟨entry, hentry, hu⟩ | ⟨f, hf, hfin⟩
    · exact hnothing.1 entry hentry hu
    · exact hnothing.2 f hf (worksOn_of_seesOut hfin)
  refine ⟨?_, fun haudits => ?_, hforgotten⟩
  all_goals
    cases l with
    | world ev =>
        obtain ⟨q, hq, rfl⟩ := fire_world_cases hfire
        obtain rfl := engine_event_eq hq
        cases ev <;> rfl
    | run i a =>
        obtain ⟨f, rest, o, hi, ho, rfl⟩ := fire_run_cases hfire
        obtain rfl := engine_step_eq ho
        have hf := hconcluding.tasks f
          (mem_frames_of_getElem? hi (List.mem_cons_self ..))
        first
          | exact shown_step hf.not_maySend
          | rcases status_of_concludes (a := a) hr happroved hf with
              ⟨r', hr', hstatus⟩ | ⟨f', g, rfl, hg, -⟩
            · simp only [hr', hr, Option.map_some, hstatus]
            · exact absurd ⟨i, a, f', rest, rfl, hi, g, hg⟩ haudits

/-- The last module of a message has confirmed it when the message is flagged and
approved; then the module answers, and the message is about to be completed. -/
def answeredAfterApproval : List EngineLabel :=
  .world (.ingest { uuid7 := "m", rawMessage := "hi" }) ::
    List.replicate 17 (.run 0 {}) ++
  .world (.receipt "m" "tts") :: .run 1 {} ::
  .world (.auditFlag "m" "spam") :: List.replicate 2 (.run 2 {}) ++
  .world (.auditDecision "m" true) :: .run 3 {} ::
  .world (.reply
    { uuid7 := "m", moduleName := "tts", stage := .postProcess
      processedMessage := "hello" }) ::
    List.replicate 7 (.run 4 {})

/-- The answer lands on the row without a change of its status, and leaves nothing of
the message in memory. -/
theorem audit_decision_final_answeredAfterApproval :
    ∃ s s' t : EnginePool,
      engine.exec (boot { config := { postProcessModules := ["tts"] } })
        answeredAfterApproval = some s ∧
      engine.fire s (.run 4 {}) = some s' ∧
      s'.shared.timeline.row? "m" ≠ s.shared.timeline.row? "m" ∧
      shown "m" s'.shared = shown "m" s.shared ∧
      (s'.shared.timeline.row? "m").map Row.pipelineStatus =
        (s.shared.timeline.row? "m").map Row.pipelineStatus ∧
      engine.fire s' (.run 4 {}) = some t ∧ Forgotten "m" t := by
  obtain ⟨s, hrun, hreleased, haudits, s', hfire, hchanged, hok, t, hend, hkept,
      hnothing⟩ :
      ∃ s, engine.exec (boot { config := { postProcessModules := ["tts"] } })
          answeredAfterApproval = some s ∧
        .released "m" true ∈ s.shared.log ∧
        s.threads[4]? =
          some [.terminal (.write "m" .complete { processedMessage := some "hello" })] ∧
        ∃ s' ∈ engine.fire s (.run 4 {}),
          s'.shared.timeline.row? "m" ≠ s.shared.timeline.row? "m" ∧
          AllSteps engine (LeavesDecided "m") s [.run 4 {}, .run 4 {}] ∧
          ∃ t ∈ engine.fire s' (.run 4 {}),
            .released "m" true ∈ t.shared.log ∧ NothingOutstanding "m" t :=
    exec_any (P := engine) _ answeredAfterApproval (by decide +kernel)
  have hs : Reachable engine (LeavesDecided "m")
      (boot { config := { postProcessModules := ["tts"] } }) s :=
    reachable_of_allSteps answeredAfterApproval .start (by decide +kernel) hrun
  have ht : Reachable engine (LeavesDecided "m")
      (boot { config := { postProcessModules := ["tts"] } }) t :=
    .step (.step hs hok.1 hfire) (hok.2 s' hfire).1 hend
  have hwrite := audit_decision_final "m" _ rfl hs ⟨true, hreleased⟩ hfire
  have hdone := audit_decision_final "m" _ rfl ht ⟨true, hkept⟩
    (rfl : engine.fire t (.world .sweep) = some _)
  exact ⟨s, s', t, hrun, hfire, hchanged, hwrite.1,
    hwrite.2.1 (by rintro ⟨i, a, f, rest, hl, hi, -⟩; cases hl; simp [haudits] at hi),
    hend, hdone.2.2 hnothing⟩

/-- A message is flagged in its in-process stage and rejected; then the module
it had been sent to replies. -/
def repliedAfterReject : List EngineLabel :=
  .world (.ingest { uuid7 := "m", rawMessage := "hi" }) ::
    List.replicate 12 (.run 0 {}) ++
  .world (.auditFlag "m" "spam") :: List.replicate 2 (.run 1 {}) ++
  .world (.auditDecision "m" false) :: [.run 2 {}] ++
  .world (.reply { uuid7 := "m", moduleName := "bot", stage := .inProcess }) ::
    List.replicate 15 (.run 3 {})

/-- The late reply completes the message that was rejected. -/
theorem rejected_message_completes :
    ¬ ∀ (uuid7 : String) (e : Engine) (ls : List EngineLabel)
        (s s' : EnginePool) (l : EngineLabel),
      e.log = [] →
      engine.exec (boot e) ls = some s →
      Decided uuid7 s.shared →
      engine.fire s l = some s' →
      ¬ Audits uuid7 s l →
      (s'.shared.timeline.row? uuid7).map Row.pipelineStatus =
        (s.shared.timeline.row? uuid7).map Row.pipelineStatus := by
  intro h
  obtain ⟨s, hrun, hdecided, htop, hwrites⟩ := exec_any (P := engine)
    (Q := fun s => .released "m" false ∈ s.shared.log ∧
      s.threads[3]? = some [.terminal (.write "m" .complete
        { processedMessage := some "", inProcessCompletedAt := some 0 })] ∧
      (engine.fire s (.run 3 {})).any (fun s' => decide
        ((s'.shared.timeline.row? "m").map Row.pipelineStatus ≠
          (s.shared.timeline.row? "m").map Row.pipelineStatus)) = true)
    (boot { config := { inProcessModules := ["bot"] } })
    repliedAfterReject (by decide +kernel)
  obtain ⟨s', hfire, hchanged⟩ := (Option.any_eq_true _ _).mp hwrites
  have hrow := h "m" _ repliedAfterReject s s' (.run 3 {}) rfl hrun
    ⟨false, hdecided⟩ hfire (by
      rintro ⟨i, a, f, rest, hl, hi, -⟩
      cases hl
      simp [htop] at hi)
  exact of_decide_eq_true hchanged hrow

end CockatielEngine
