import CockatielEngine.Concurrency.OneAtATime
import CockatielEngine.Pipeline.Successors

/-!
# Pipeline: no message is stranded

When every handler runs to its end before the next one starts, what keeps a
message alive between two handlers is a pending ack or the held queue.  Inside
a handler it can also be the handler itself: some frame of it *carries* the
message and will dispatch it, hold it or end it.

**Main result.**  After every handler of every such run, a message that still
has an in-memory state has a pending ack or is held, and every other message
that was ingested has a terminal status on its row.
-/

namespace CockatielEngine

open TaskPool

section Defs

/-- The row has reached the end of its message. -/
def Row.Ended (r : Row) : Prop :=
  r.pipelineStatus = .complete ∨ r.pipelineStatus = .failed ∨
    r.pipelineStatus = .dropped

instance (r : Row) : Decidable r.Ended :=
  inferInstanceAs (Decidable (_ ∨ _ ∨ _))

variable (uuid7 : String)

/-- The gate holds the message. -/
def Held (e : Engine) : Prop :=
  ∃ point, (uuid7, point) ∈ e.pauseState.held

/-- A drained entry was the last one of the message. -/
def DrainedLast (todo : List (PendingAck × Bool)) : Prop :=
  ∃ x ∈ todo, x.1.uuid7 = uuid7 ∧ x.2 = false

/-- The frame will dispatch the message, hold it or end it. -/
def Carries : Frame → Prop
  | .broadcast (.enter v) => v = uuid7
  | .broadcast (.load v) => v = uuid7
  | .broadcast (.config v _) => v = uuid7
  | .fanout (.send fo _) => fo.uuid7 = uuid7 ∧ fo.sentAny = false
  | .fanout (.track fo _ _) => fo.uuid7 = uuid7
  | .inProcess (.enter v) => v = uuid7
  | .inProcess (.audit v) => v = uuid7
  | .inProcess (.load v) => v = uuid7
  | .inProcess (.config v _) => v = uuid7
  | .inProcess (.send v _ _ _ _) => v = uuid7
  | .inProcess (.track v _ _) => v = uuid7
  | .inProcess (.skip v _) => v = uuid7
  | .postProcess (.enter v) => v = uuid7
  | .postProcess (.audit v) => v = uuid7
  | .postProcess (.load v) => v = uuid7
  | .postProcess (.config v _) => v = uuid7
  | .terminal (.check v _) => v = uuid7
  | .terminal (.take v _) => v = uuid7
  | .advance (.notePre v) => v = uuid7
  | .advance (.noteIn v _) => v = uuid7
  | .advance (.nextIndex v _) => v = uuid7
  | .advance (.refresh v) => v = uuid7
  | .advance (.storeUserData v _) => v = uuid7
  | .sweep (.next sw) => DrainedLast uuid7 sw.todo
  | .sweep (.resendLoad sw entry still) =>
      DrainedLast uuid7 ((entry, still) :: sw.todo)
  | .sweep (.resendSend sw entry still _) =>
      DrainedLast uuid7 ((entry, still) :: sw.todo)
  | .sweep (.resendTrack sw entry) =>
      entry.uuid7 = uuid7 ∨ DrainedLast uuid7 sw.todo
  | .resume (.spawnReplay held) => ∃ point, (uuid7, point) ∈ held
  | .resume (.replayNext held) => ∃ point, (uuid7, point) ∈ held
  | _ => False

/-- The frame is on its way to write the row of the message, or to install its
state. -/
def Finishes : Frame → Prop
  | .ingest (.setCommand msg _) => msg.uuid7 = uuid7
  | .ingest (.setUserUuid msg) => msg.uuid7 = uuid7
  | .ingest (.insertState msg) => msg.uuid7 = uuid7
  | .terminal (.write v _ _) => v = uuid7
  | _ => False

/-- The frame belongs to a terminal path that has taken the message's state. -/
def Takes : Frame → Prop
  | .terminal (.write v _ _) => v = uuid7
  | .terminal (.ack v) => v = uuid7
  | _ => False

/-- A sweep with one entry for each message: it has not dealt yet with the
messages it still has to process. -/
structure OneEach (sw : Sweep) (entries : List PendingAck) : Prop where
  nodup : (entries.map (·.uuid7)).Nodup
  fresh : ∀ x ∈ entries,
    x.uuid7 ∉ sw.advanced ∧ x.uuid7 ∉ sw.failed ∧ x.uuid7 ∉ sw.resent
  critical : ∀ x ∈ entries, x.uuid7 ∈ sw.criticalUuids →
    sw.config.criticalModules.contains x.moduleName = true

/-- The sweep frames of a sweep with one entry for each message. -/
def SweepsOneEach : Frame → Prop
  | .sweep (.next sw) => OneEach sw (sw.todo.map (·.1))
  | .sweep (.resendLoad sw entry _) => OneEach sw (entry :: sw.todo.map (·.1))
  | .sweep (.resendSend sw entry _ _) => OneEach sw (entry :: sw.todo.map (·.1))
  | .sweep (.resendTrack sw entry) => OneEach sw (entry :: sw.todo.map (·.1))
  | _ => True

/-- The frame raises an audit flag. -/
def Flags : Frame → Prop
  | .audit (.flag _ _) => True
  | .audit (.mark _ _) => True
  | _ => False

/-- No database call fails, and a sweep drains one entry of a message at most. -/
def Undisturbed (s : EnginePool) (a : Answer) : Frame → Prop
  | .sweep (.drain _) =>
      a.dbOk = true ∧
        ((s.shared.ackTracker.pending.filter
          (PendingAck.expired s.shared.now)).map (·.uuid7)).Nodup
  | _ => a.dbOk = true

/-- The world raises no audit flag. -/
def NoAuditFlag (_ : EnginePool) : WorldEvent → Prop
  | .auditFlag _ _ => False
  | _ => True

/-- One handler after the other, with no failing database call, no audit flag
and no sweep that drains two entries of one message. -/
abbrev HandlersInTurn : EnginePool → EngineLabel → Prop :=
  Serial Undisturbed NoAuditFlag

instance (s : EnginePool) (a : Answer) (f : Frame) :
    Decidable (Undisturbed s a f) :=
  match f with
  | .sweep (.drain _) => inferInstanceAs (Decidable (_ ∧ _))
  | .ingest _ | .recovery _ | .broadcast _ | .fanout _ | .inProcess _
  | .postProcess _ | .terminal _ | .reply _ | .advance _ | .sweep .start
  | .sweep .config | .sweep (.next _) | .sweep (.resendLoad _ _ _)
  | .sweep (.resendSend _ _ _ _) | .sweep (.resendTrack _ _) | .gate _ | .resume _
  | .audit _ => instDecidableEqBool a.dbOk true

instance (s : EnginePool) (ev : WorldEvent) : Decidable (NoAuditFlag s ev) := by
  unfold NoAuditFlag
  split <;> infer_instance

/-- What keeps the message alive. -/
def Alive (s : EnginePool) : Prop :=
  s.shared.ackTracker.hasPending uuid7 = true ∨ Held uuid7 s.shared ∨
    ∃ f ∈ s.frames, Carries uuid7 f

/-- The invariant of a serial run. -/
structure Serviced (s : EnginePool) : Prop where
  single : ∀ g ∈ s.frames.tail, g.IsLoop
  alone : ∀ g, .ingest g ∈ s.frames → s.frames = [.ingest g]
  sweeps : ∀ f ∈ s.frames, SweepsOneEach f
  unflagged : ∀ f ∈ s.frames, ¬ Flags f
  unaudited : ∀ uuid7, s.shared.timeline.isAudited uuid7 = false
  taken : ∀ uuid7, ∀ f ∈ s.frames, Takes uuid7 f →
    s.shared.pipelineStates uuid7 = none
  alive : ∀ uuid7, s.shared.pipelineStates uuid7 ≠ none → Alive uuid7 s
  ended : ∀ uuid7 r, s.shared.timeline.row? uuid7 = some r →
    s.shared.pipelineStates uuid7 = none →
    r.Ended ∨ ∃ f ∈ s.frames, Finishes uuid7 f

end Defs

section Sweeps

variable {e : Engine} {a : Answer}

theorem OneEach.tail
    {sw : Sweep} {x : PendingAck} {entries : List PendingAck}
    (h : OneEach sw (x :: entries)) :
    OneEach sw entries where
  nodup := (List.nodup_cons.mp h.nodup).2
  fresh y hy := h.fresh y (List.mem_cons_of_mem _ hy)
  critical y hy := h.critical y (List.mem_cons_of_mem _ hy)

/-- The message that has just been dealt with is not that of a later entry. -/
theorem OneEach.notMem_cons
    {sw : Sweep} {x y : PendingAck} {entries : List PendingAck}
    {done : List String}
    (h : OneEach sw (x :: entries))
    (hy : y ∈ entries)
    (hdone : y.uuid7 ∉ done) :
    y.uuid7 ∉ x.uuid7 :: done := by
  have hne : y.uuid7 ≠ x.uuid7 := by
    intro heq
    have hnot := (List.nodup_cons.mp h.nodup).1
    exact hnot (List.mem_map.mpr ⟨y, hy, heq⟩)
  intro hmem
  rcases List.mem_cons.mp hmem with heq | hmem
  · exact hne heq
  · exact hdone hmem

theorem Expires.oneEach
    {sw : Sweep} {entry : PendingAck} {still : Bool} {g : Frame}
    (h : Expires sw entry still g)
    (hsw : OneEach sw (entry :: sw.todo.map (·.1))) :
    SweepsOneEach g := by
  have hrest := hsw.tail
  cases h with
  | skip => exact hrest
  | failed _ _ =>
      refine ⟨hrest.nodup, fun x hx => ?_, hrest.critical⟩
      obtain ⟨hadv, hfailed, hresent⟩ := hrest.fresh x hx
      exact ⟨hadv, hsw.notMem_cons hx hfailed, hresent⟩
  | advanced _ _ =>
      refine ⟨hrest.nodup, fun x hx => ?_, hrest.critical⟩
      obtain ⟨hadv, hfailed, hresent⟩ := hrest.fresh x hx
      exact ⟨hsw.notMem_cons hx hadv, hfailed, hresent⟩
  | fail _ _ => trivial
  | advance _ _ => cases hstage : entry.stage <;> trivial

/-- What a drain starts with when it drains one entry of a message at most. -/
theorem oneEach_drained
    {cfg : PipelineConfig} {todo : List (PendingAck × Bool)}
    (htodo : todo = SweepFrame.drained a (e.ackTracker.checkTimeouts e.now).1)
    (h : ((e.ackTracker.pending.filter (PendingAck.expired e.now)).map
      (·.uuid7)).Nodup) :
    OneEach
      { config := cfg, todo, criticalUuids := SweepFrame.criticalUuids cfg todo }
      (todo.map (·.1)) := by
  have hnodup : ((todo.map (·.1)).map (·.uuid7)).Nodup := by
    have hall : (((e.ackTracker.checkTimeouts e.now).1.map (·.1)).map
        (·.uuid7)).Nodup := by
      simpa [AckTracker.checkTimeouts, Function.comp_def] using h
    subst htodo
    unfold SweepFrame.drained
    split
    · rename_i hperm
      exact (((List.isPerm_iff.mp hperm).map _).map _).nodup_iff.mpr hall
    · exact hall
  refine ⟨hnodup, fun x hx => by simp, fun x hx hmem => ?_⟩
  obtain ⟨y, hy, hyx⟩ := List.mem_map.mp hmem
  obtain ⟨hy, hcritical⟩ := List.mem_filter.mp hy
  obtain rfl := List.inj_on_of_nodup_map hnodup
    (List.mem_map.mpr ⟨y, hy, rfl⟩) hx hyx
  exact hcritical

theorem sweepsOneEach_new
    {s : EnginePool} {f g : Frame}
    (hok : Undisturbed s a f)
    (hf : SweepsOneEach f)
    (hg : g ∈ (f.step s.shared a).new) :
    SweepsOneEach g := by
  cases Frame.leads hg with
  | sweep_first htodo => exact oneEach_drained htodo hok.2
  | sweep_resendLoad htodo _ =>
      simp only [SweepsOneEach, htodo, List.map_cons] at hf
      exact ⟨hf.nodup, hf.fresh, hf.critical⟩
  | sweep_expire htodo _ hexp =>
      simp only [SweepsOneEach, htodo, List.map_cons] at hf
      exact hexp.oneEach ⟨hf.nodup, hf.fresh, hf.critical⟩
  | sweep_gone _ hexp => exact hexp.oneEach hf
  | sweep_unsent _ hexp => exact hexp.oneEach hf
  | sweep_resendSend _ => exact hf
  | sweep_resendTrack _ => exact hf
  | sweep_resent =>
      have hrest := hf.tail
      refine ⟨hrest.nodup, fun x hx => ?_, hrest.critical⟩
      obtain ⟨hadv, hfailed, hresent⟩ := hrest.fresh x hx
      exact ⟨hadv, hfailed, hf.notMem_cons hx hresent⟩
  | @fanout_nobody fo _ => cases fo.stage <;> trivial
  | @replay_hold _ point _ => cases point <;> trivial
  | _ => trivial

end Sweeps

section Steps

variable {uuid7 : String} {e : Engine} {a : Answer}

/-- With a working database only the ingest of a known key fails. -/
theorem step_next
    (hdb : a.dbOk = true) (f : Frame) :
    (∃ fs, (f.step e a).next = some fs) ∨
      ∃ msg, f = .ingest (.insertEvent msg) := by
  cases f with
  | ingest f =>
      cases f with
      | insertEvent msg => exact Or.inr ⟨msg, rfl⟩
      | insertState msg => exact Or.inl ⟨_, rfl⟩
      | _ => exact Or.inl (by simp [Frame.step, IngestFrame.step, hdb, go])
  | recovery f =>
      refine Or.inl ?_
      cases f with
      | drainNext uuids => cases uuids <;> exact ⟨_, rfl⟩
      | _ =>
          simp only [Frame.step, RecoveryFrame.step, hdb, if_true]
          repeat' split
          all_goals exact ⟨_, rfl⟩
  | fanout f =>
      refine Or.inl ?_
      cases f with
      | send fo todo =>
          cases todo <;> simp only [Frame.step, FanoutFrame.step]
          all_goals
            split
            all_goals exact ⟨_, rfl⟩
      | track => exact ⟨_, rfl⟩
  | resume f =>
      refine Or.inl ?_
      cases f with
      | replayNext held => cases held <;> exact ⟨_, rfl⟩
      | _ => exact ⟨_, rfl⟩
  | gate t =>
      refine Or.inl ?_
      cases t <;> exact ⟨_, rfl⟩
  | _ =>
      refine Or.inl ?_
      rename_i f
      cases f <;>
        simp only [Frame.step, BroadcastFrame.step, InProcessFrame.step,
          PostProcessFrame.step, TerminalFrame.step, ReplyFrame.step,
          AdvanceFrame.step, SweepFrame.step, SweepFrame.expire,
          AuditFrame.step, hdb, if_true] <;>
        (repeat' split) <;> exact ⟨_, rfl⟩

/-- After the step the message has a pending ack, is held, or is carried by
what the step left behind. -/
def Passes (uuid7 : String) (e : Engine) (a : Answer) (f : Frame) : Prop :=
  (f.step e a).shared.ackTracker.hasPending uuid7 = true ∨
    Held uuid7 (f.step e a).shared ∨
    ∃ g ∈ (f.step e a).new, Carries uuid7 g

theorem Passes.next
    {f g : Frame}
    (hg : g ∈ (f.step e a).new)
    (h : Carries uuid7 g) :
    Passes uuid7 e a f :=
  Or.inr (Or.inr ⟨g, hg, h⟩)

theorem head_mem_new (e' : Engine) (g : Frame) (fs : List Frame) :
    g ∈ (go e' (g :: fs)).new := by
  simp

/-- The entry a step tracks keeps its message waiting. -/
theorem Passes.ofTracks
    {f : Frame} {t : AckTracker} {stage : Stage} {m : String} {now timeout : Nat}
    (h : (f.step e a).shared.ackTracker = t.track now uuid7 stage m timeout) :
    Passes uuid7 e a f := by
  refine Or.inl ((AckTracker.hasPending_iff ..).mpr ?_)
  rw [h]
  exact ⟨_, (AckTracker.mem_track_iff ..).mpr (Or.inr rfl), rfl⟩

/-- A message that asks the gate is held or let through. -/
theorem Passes.ofHold
    {f g : Frame} {point : HoldPoint}
    (hhold : f.hold = some (uuid7, point))
    (hopen : e.pauseState.isGated = false → g ∈ (f.step e a).new)
    (hg : Carries uuid7 g) :
    Passes uuid7 e a f := by
  cases hgate : e.pauseState.isGated with
  | false => exact .next (hopen hgate) hg
  | true =>
      refine Or.inr (Or.inl ⟨point, ?_⟩)
      rw [Frame.step_pauseState_hold e a hhold, PauseState.holdIfGated, if_pos hgate]
      exact (PauseState.mem_insertHeld_iff ..).mpr (Or.inl ⟨rfl, rfl⟩)

theorem FanoutFrame.passes
    {f : FanoutFrame}
    (h : Carries uuid7 (.fanout f)) :
    Passes uuid7 e a (.fanout f) := by
  cases f with
  | send fo todo =>
      obtain ⟨rfl, hsent⟩ := h
      cases todo with
      | nil =>
          refine .next (g := nobody fo.uuid7 fo.stage) ?_ ?_
          · simp [Frame.step, step, hsent]
          · cases fo.stage <;> rfl
      | cons moduleName todo =>
          by_cases hout : a.permitted = true ∧ a.outcome = .sent
          · refine .next
              (g := .fanout (.track { fo with sentAny := true } moduleName todo)) ?_
              rfl
            simp [Frame.step, step, hout]
          · refine .next (g := .fanout (.send fo todo)) ?_ ⟨rfl, hsent⟩
            simp [Frame.step, step, hout]
  | track fo moduleName todo =>
      obtain rfl : fo.uuid7 = uuid7 := h
      exact .ofTracks rfl

theorem InProcessFrame.passes
    {f : InProcessFrame}
    (hdb : a.dbOk = true)
    (haudit : e.timeline.isAudited uuid7 = false)
    (h : Carries uuid7 (.inProcess f))
    (hstate : ((Frame.inProcess f).step e a).shared.pipelineStates uuid7 ≠ none) :
    Passes uuid7 e a (.inProcess f) := by
  cases f with
  | enter v =>
      obtain rfl : v = uuid7 := h
      refine .ofHold (g := .inProcess (.audit v)) rfl (fun hopen => ?_) rfl
      simp [Frame.step, step, PauseState.holdIfGated_of_open hopen]
  | audit v =>
      obtain rfl : v = uuid7 := h
      refine .next (g := .inProcess (.load v)) ?_ rfl
      simp [Frame.step, step, hdb, haudit]
  | load v =>
      obtain rfl : v = uuid7 := h
      cases hs : e.pipelineStates v with
      | none => simp [Frame.step, step, hs] at hstate
      | some state =>
          refine .next
            (g := .inProcess (.config v { state with stage := .inProcessing })) ?_ rfl
          simp [Frame.step, step, hs]
  | config v state =>
      obtain rfl : v = uuid7 := h
      simp only [Passes, Frame.step, step]
      split
      · exact Or.inr (Or.inr ⟨_, head_mem_new .., rfl⟩)
      · split
        all_goals exact Or.inr (Or.inr ⟨_, head_mem_new .., rfl⟩)
  | send v state moduleName ackTimeoutMs len =>
      obtain rfl : v = uuid7 := h
      simp only [Passes, Frame.step, step]
      split
      all_goals exact Or.inr (Or.inr ⟨_, head_mem_new .., rfl⟩)
  | track v moduleName ackTimeoutMs =>
      obtain rfl : v = uuid7 := h
      exact .ofTracks rfl
  | skip v len =>
      obtain rfl : v = uuid7 := h
      cases hs : e.pipelineStates v with
      | none => simp [Frame.step, step, hs] at hstate
      | some state =>
          by_cases hlen : len ≤ state.currentInProcessIndex + 1
          · refine .next (g := .postProcess (.enter v)) ?_ rfl
            simp [Frame.step, step, hs, hlen]
          · refine .next (g := .inProcess (.enter v)) ?_ rfl
            simp [Frame.step, step, hs, hlen]

theorem PostProcessFrame.passes
    {f : PostProcessFrame}
    (hdb : a.dbOk = true)
    (haudit : e.timeline.isAudited uuid7 = false)
    (h : Carries uuid7 (.postProcess f))
    (hstate : ((Frame.postProcess f).step e a).shared.pipelineStates uuid7 ≠ none) :
    Passes uuid7 e a (.postProcess f) := by
  cases f with
  | enter v =>
      obtain rfl : v = uuid7 := h
      refine .ofHold (g := .postProcess (.audit v)) rfl (fun hopen => ?_) rfl
      simp [Frame.step, step, PauseState.holdIfGated_of_open hopen]
  | audit v =>
      obtain rfl : v = uuid7 := h
      refine .next (g := .postProcess (.load v)) ?_ rfl
      simp [Frame.step, step, hdb, haudit]
  | load v =>
      obtain rfl : v = uuid7 := h
      cases hs : e.pipelineStates v with
      | none => simp [Frame.step, step, hs] at hstate
      | some state =>
          refine .next (g := .postProcess
            (.config v { state with stage := .postProcessing })) ?_ rfl
          simp [Frame.step, step, hs]
  | config v state =>
      obtain rfl : v = uuid7 := h
      exact Or.inr (Or.inr ⟨_, head_mem_new .., rfl, rfl⟩)

theorem BroadcastFrame.passes
    {f : BroadcastFrame}
    (h : Carries uuid7 (.broadcast f))
    (hstate : ((Frame.broadcast f).step e a).shared.pipelineStates uuid7 ≠ none) :
    Passes uuid7 e a (.broadcast f) := by
  cases f with
  | enter v =>
      obtain rfl : v = uuid7 := h
      refine .ofHold (g := .broadcast (.load v)) rfl (fun hopen => ?_) rfl
      simp [Frame.step, step, PauseState.holdIfGated_of_open hopen]
  | load v =>
      obtain rfl : v = uuid7 := h
      cases hs : e.pipelineStates v with
      | none => simp [Frame.step, step, hs] at hstate
      | some state =>
          refine .next (g := .broadcast (.config v state)) ?_ rfl
          simp [Frame.step, step, hs]
  | config v state =>
      obtain rfl : v = uuid7 := h
      exact Or.inr (Or.inr ⟨_, head_mem_new .., rfl, rfl⟩)

theorem AdvanceFrame.passes
    {f : AdvanceFrame}
    (h : Carries uuid7 (.advance f))
    (hstate : ((Frame.advance f).step e a).shared.pipelineStates uuid7 ≠ none) :
    Passes uuid7 e a (.advance f) := by
  cases f with
  | nextIndex v len =>
      obtain rfl : v = uuid7 := h
      cases hs : e.pipelineStates v with
      | none => simp [Frame.step, step, hs] at hstate
      | some state =>
          by_cases hlen : len ≤ state.currentInProcessIndex + 1
          · refine .next (g := .advance (.refresh v)) ?_ rfl
            simp [Frame.step, step, hs, hlen]
          · refine .next (g := .inProcess (.enter v)) ?_ rfl
            simp [Frame.step, step, hs, hlen]
  | refresh v =>
      obtain rfl : v = uuid7 := h
      simp only [Passes, Frame.step, step]
      split
      all_goals exact Or.inr (Or.inr ⟨_, head_mem_new .., rfl⟩)
  | _ =>
      obtain rfl := h
      exact Or.inr (Or.inr ⟨_, head_mem_new .., rfl⟩)

theorem TerminalFrame.passes
    {f : TerminalFrame}
    (hdb : a.dbOk = true)
    (haudit : e.timeline.isAudited uuid7 = false)
    (h : Carries uuid7 (.terminal f))
    (hstate : ((Frame.terminal f).step e a).shared.pipelineStates uuid7 ≠ none) :
    Passes uuid7 e a (.terminal f) := by
  cases f with
  | check v ending =>
      obtain rfl : v = uuid7 := h
      refine .next (g := .terminal (.take v ending)) ?_ rfl
      simp [Frame.step, step, hdb, haudit]
  | take v ending =>
      obtain rfl : v = uuid7 := h
      cases hs : e.pipelineStates v with
      | none => cases ending <;> simp [Frame.step, step, hs] at hstate
      | some state =>
          cases ending <;> simp [Frame.step, step, hs, Engine.putState] at hstate
  | _ => exact h.elim

theorem ResumeFrame.passes
    {f : ResumeFrame}
    (h : Carries uuid7 (.resume f)) :
    Passes uuid7 e a (.resume f) := by
  cases f with
  | restartClocks => exact h.elim
  | spawnReplay held =>
      obtain ⟨point, hmem⟩ := h
      refine .next (g := .resume (.replayNext held)) ?_ ⟨point, hmem⟩
      have hne : held.isEmpty = false := by
        cases held <;> simp_all
      simp [Frame.step, step, Outcome.new, hne]
  | replayNext held =>
      obtain ⟨point, hmem⟩ := h
      cases held with
      | nil => simp at hmem
      | cons x held =>
          rcases List.mem_cons.mp hmem with rfl | hmem
          · refine .next (g := replayHold uuid7 point) ?_ ?_
            · simp [Frame.step, step]
            · cases point <;> rfl
          · refine .next (g := .resume (.replayNext held)) ?_ ⟨point, hmem⟩
            simp [Frame.step, step]

theorem drainedLast_cons
    {entry : PendingAck} {still : Bool} {todo : List (PendingAck × Bool)}
    (h : DrainedLast uuid7 ((entry, still) :: todo)) :
    (entry.uuid7 = uuid7 ∧ still = false) ∨ DrainedLast uuid7 todo := by
  obtain ⟨x, hx, hlast⟩ := h
  rcases List.mem_cons.mp hx with rfl | hx
  · exact Or.inl hlast
  · exact Or.inr ⟨x, hx, hlast⟩

/-- The last entry of a message takes it out of its stage, or ends it. -/
theorem expire_carries
    {sw : Sweep} {entry : PendingAck} {still : Bool}
    (hone : OneEach sw (entry :: sw.todo.map (·.1)))
    (h : DrainedLast uuid7 ((entry, still) :: sw.todo)) :
    ∃ g ∈ (SweepFrame.expire e sw entry still).new, Carries uuid7 g := by
  obtain ⟨hadv, hfailed, hresent⟩ := hone.fresh entry (List.mem_cons_self ..)
  have hcritical := hone.critical entry (List.mem_cons_self ..)
  rcases drainedLast_cons h with ⟨rfl, rfl⟩ | hrest
  · simp only [SweepFrame.expire]
    split
    · simp only [List.contains_eq_mem, hfailed, decide_false, Bool.false_eq_true,
        if_false]
      exact ⟨_, head_mem_new .., rfl⟩
    · rename_i hnot
      have hadvances : SweepFrame.advances sw entry false = true := by
        have hnotcrit : entry.uuid7 ∉ sw.criticalUuids := fun hmem =>
          hnot (hcritical hmem)
        simp [SweepFrame.advances, hadv, hresent, hnotcrit]
      simp only [hadvances, if_true]
      refine ⟨_, head_mem_new .., ?_⟩
      cases entry.stage <;> rfl
  · simp only [SweepFrame.expire]
    split
    · split
      · exact ⟨.sweep (.next sw), head_mem_new .., hrest⟩
      · exact ⟨.sweep (.next { sw with failed := entry.uuid7 :: sw.failed }),
          by simp, hrest⟩
    · split
      · exact ⟨.sweep (.next { sw with advanced := entry.uuid7 :: sw.advanced }),
          by simp, hrest⟩
      · exact ⟨.sweep (.next sw), head_mem_new .., hrest⟩

theorem SweepFrame.passes
    {f : SweepFrame}
    (hone : SweepsOneEach (.sweep f))
    (h : Carries uuid7 (.sweep f)) :
    Passes uuid7 e a (.sweep f) := by
  cases f with
  | next sw =>
      simp only [Passes, Frame.step, step]
      split
      · rename_i hdone
        obtain ⟨x, hx, -⟩ := h
        simp [hdone] at hx
      · rename_i entry still todo htodo
        simp only [Carries, htodo] at h
        simp only [SweepsOneEach, htodo, List.map_cons] at hone
        split
        · exact Or.inr (Or.inr ⟨_, head_mem_new .., h⟩)
        · exact Or.inr (Or.inr (expire_carries
            ⟨hone.nodup, hone.fresh, hone.critical⟩ h))
  | resendLoad sw entry still =>
      simp only [Passes, Frame.step, step]
      split
      · exact Or.inr (Or.inr (expire_carries hone h))
      · exact Or.inr (Or.inr ⟨_, head_mem_new .., h⟩)
  | resendSend sw entry still container =>
      simp only [Passes, Frame.step, step]
      split
      · exact Or.inr (Or.inr ⟨_, head_mem_new ..,
          (drainedLast_cons h).imp And.left id⟩)
      · exact Or.inr (Or.inr (expire_carries hone h))
  | resendTrack sw entry =>
      rcases h with hu | hrest
      · refine Or.inl ((AckTracker.hasPending_iff ..).mpr
          ⟨_, (AckTracker.mem_reTrack_iff ..).mpr (Or.inr rfl), hu⟩)
      · exact Or.inr (Or.inr ⟨_, head_mem_new .., hrest⟩)
  | _ => exact h.elim

/-- A frame that carries a message passes it on, unless the message is gone. -/
theorem carries_step
    {f : Frame}
    (hdb : a.dbOk = true)
    (haudit : e.timeline.isAudited uuid7 = false)
    (hone : SweepsOneEach f)
    (h : Carries uuid7 f)
    (hstate : (f.step e a).shared.pipelineStates uuid7 ≠ none) :
    Passes uuid7 e a f := by
  cases f with
  | broadcast f => exact f.passes h hstate
  | fanout f => exact FanoutFrame.passes h
  | inProcess f => exact f.passes hdb haudit h hstate
  | postProcess f => exact f.passes hdb haudit h hstate
  | terminal f => exact f.passes hdb haudit h hstate
  | advance f => exact f.passes h hstate
  | sweep f => exact SweepFrame.passes hone h
  | resume f => exact ResumeFrame.passes h
  | _ => exact h.elim

/-- A message that loses its last pending ack is carried on, or has ended. -/
theorem pending_step
    {f : Frame}
    (htaken : Takes uuid7 f → e.pipelineStates uuid7 = none)
    (h : e.ackTracker.hasPending uuid7 = true)
    (hstate : e.pipelineStates uuid7 ≠ none) :
    Passes uuid7 e a f := by
  obtain ⟨x, hx, rfl⟩ := (AckTracker.hasPending_iff ..).mp h
  rcases Frame.mem_pending_of_mem e a (f := f) hx with
    ⟨y, hy, hyx⟩ | ⟨len, rfl⟩ | rfl | ⟨cfg, rfl, hexp⟩
  · refine Or.inl ((AckTracker.hasPending_iff ..).mpr ⟨y, hy, ?_⟩)
    rcases hyx with rfl | rfl | rfl <;> rfl
  · -- the module's ack: the rest of the stage waits on, or the stage is left
    rcases e.ackTracker.ackModule_cases e.now x.uuid7 x.moduleName with
      ⟨-, hnone⟩ | ⟨entry, -, rest, -, -, -, hack⟩
    · have hfor : x.isFor x.uuid7 x.moduleName = true := by simp [PendingAck.isFor]
      simp [hnone x hx] at hfor
    · cases hpending : rest.hasPending x.uuid7 <;> cases hstage : entry.stage <;>
        simp only [Passes, Frame.step, ReplyFrame.step, hack, hstage, hpending,
          if_true, if_false, Bool.false_eq_true, shared_go]
      · exact Or.inr (Or.inr ⟨_, head_mem_new .., rfl⟩)
      · exact Or.inr (Or.inr ⟨_, head_mem_new .., rfl⟩)
      · exact Or.inr (Or.inr ⟨_, head_mem_new .., rfl⟩)
      all_goals exact Or.inl trivial
  · exact absurd (htaken rfl) hstate
  · cases hpending : (e.ackTracker.checkTimeouts e.now).2.hasPending x.uuid7 with
    | true => exact Or.inl hpending
    | false =>
        refine Or.inr (Or.inr ⟨_, head_mem_new .., (x, false), ?_, rfl, rfl⟩)
        rw [SweepFrame.mem_drained_iff]
        exact (AckTracker.mem_checkTimeouts_iff ..).mpr ⟨hx, hexp, hpending.symm⟩

/-- A held message stays held until a resume takes it along. -/
theorem held_step
    {f : Frame}
    (h : Held uuid7 e) :
    Passes uuid7 e a f := by
  obtain ⟨point, hmem⟩ := h
  have hkept (hsame : (f.step e a).shared.pauseState.held = e.pauseState.held) :
      Passes uuid7 e a f :=
    Or.inr (Or.inl ⟨point, by rw [hsame]; exact hmem⟩)
  cases htouch : f.touchesGate with
  | false => exact hkept (by rw [Frame.step_pauseState e a htouch])
  | true =>
      rcases Frame.touchesGate_cases htouch with ⟨v, q, hhold⟩ | ⟨t, rfl⟩
      · cases hgate : e.pauseState.isGated with
        | false =>
            refine hkept ?_
            rw [Frame.step_pauseState_hold e a hhold,
              PauseState.holdIfGated_of_open hgate]
        | true =>
            refine Or.inr (Or.inl ?_)
            simp only [Held, Frame.step_pauseState_hold e a hhold,
              PauseState.holdIfGated, hgate, if_true, PauseState.mem_insertHeld_iff]
            by_cases hv : uuid7 = v
            · exact ⟨q, Or.inl ⟨hv, rfl⟩⟩
            · exact ⟨point, Or.inr ⟨hv, hmem⟩⟩
      · cases t with
        | resume told =>
            refine Passes.next (g := .resume (.spawnReplay e.pauseState.held)) ?_
              ⟨point, hmem⟩
            simp [Frame.step, gateStep]
        | setBlock reason =>
            refine hkept ?_
            simp only [Frame.step, gateStep, shared_go, GateTask.step,
              PauseState.setBlock]
            repeat' split
            all_goals rfl
        | clearBlock reason =>
            refine hkept ?_
            simp only [Frame.step, gateStep, shared_go, GateTask.step,
              PauseState.clearBlock]
            split <;> rfl
        | pause =>
            refine hkept ?_
            simp only [Frame.step, gateStep, shared_go, GateTask.step,
              PauseState.pause]
            split <;> rfl
        | _ => exact hkept rfl

/-- Only an installed state brings a message into memory, and its dispatch
follows. -/
theorem new_state_step
    {f : Frame}
    (h : e.pipelineStates uuid7 = none)
    (hstate : (f.step e a).shared.pipelineStates uuid7 ≠ none) :
    Passes uuid7 e a f := by
  have hinstalls : f.installs = some uuid7 := by
    by_contra hne
    exact hstate (Frame.step_pipelineStates_none e a h hne)
  cases f with
  | ingest f =>
      cases f with
      | insertState msg =>
          exact Or.inr (Or.inr ⟨_, head_mem_new .., Option.some.inj hinstalls⟩)
      | _ => simp [Frame.installs] at hinstalls
  | recovery f =>
      cases f with
      | insertState v msg =>
          exact Or.inr (Or.inr ⟨_, head_mem_new .., Option.some.inj hinstalls⟩)
      | _ => simp [Frame.installs] at hinstalls
  | _ => simp [Frame.installs] at hinstalls

/-! ## The rows -/

theorem Row.ended_writeTerminalOutcome
    (ending : Ending) (result : PipelineResult) (now : Nat) {r : Row}
    (h : r.pipelineStatus ≠ .audit) :
    (r.writeTerminalOutcome ending.outcome result now).Ended := by
  cases ending <;>
    simp [Row.writeTerminalOutcome, Ending.outcome, PipelineOutcome.status,
      Row.Ended, h]

/-- Without a flag, what a step makes of a row that is not held is not held,
and what it makes of an ended one is ended. -/
theorem rowUpdate_spec
    {f : Frame} {now : Nat} {g : Row → Row} {r : Row}
    (hflag : ¬ Flags f)
    (hg : f.rowUpdate now = some (uuid7, g))
    (hr : r.pipelineStatus ≠ .audit) :
    (g r).pipelineStatus ≠ .audit ∧ (r.Ended → (g r).Ended) := by
  cases f with
  | ingest f =>
      cases f <;> simp only [Frame.rowUpdate, Option.some.injEq, Prod.mk.injEq,
        reduceCtorEq] at hg
      all_goals
        obtain ⟨-, rfl⟩ := hg
        exact ⟨hr, id⟩
  | terminal f =>
      cases f <;> simp only [Frame.rowUpdate, Option.some.injEq, Prod.mk.injEq,
        reduceCtorEq] at hg
      case writeHeld =>
        obtain ⟨-, rfl⟩ := hg
        exact ⟨by simp [Row.writeTerminalOutcome, PipelineOutcome.status, hr],
          by simp [Row.writeTerminalOutcome, PipelineOutcome.status, Row.Ended]⟩
      case write v ending result =>
        obtain ⟨-, rfl⟩ := hg
        have hended := Row.ended_writeTerminalOutcome ending result now hr
        refine ⟨?_, fun _ => hended⟩
        intro haudit
        simp [Row.Ended, haudit] at hended
  | audit f =>
      cases f with
      | release v approve =>
          simp only [Frame.rowUpdate, Option.some.injEq, Prod.mk.injEq] at hg
          obtain ⟨-, rfl⟩ := hg
          exact ⟨by simp [Row.releaseAudit, hr], by simp [Row.releaseAudit, hr]⟩
      | _ => exact absurd trivial hflag
  | _ => simp [Frame.rowUpdate] at hg

/-- What follows the row and its command leads to the state. -/
theorem afterCommand_finishes
    (e' : Engine) (msg : PipelineMessage) :
    ∃ g ∈ (go e' (IngestFrame.afterCommand msg)).new, Finishes msg.uuid7 g := by
  unfold IngestFrame.afterCommand
  split
  all_goals exact ⟨_, head_mem_new .., rfl⟩

/-- The ingest of a new key goes on to install the state. -/
theorem insertEvent_finishes
    {msg : PipelineMessage}
    (hdb : a.dbOk = true)
    (hnew : e.timeline.row? msg.uuid7 = none) :
    ∃ g ∈ ((Frame.ingest (.insertEvent msg)).step e a).new,
      Finishes msg.uuid7 g := by
  have hins : e.timeline.insertEvent msg.uuid7 (IngestFrame.row msg) =
      some { rows := e.timeline.rows ++ [(msg.uuid7, IngestFrame.row msg)] } := by
    simp [Timeline.insertEvent, hnew]
  simp only [Frame.step, IngestFrame.step, hdb, if_true, hins]
  split
  · exact ⟨_, head_mem_new .., rfl⟩
  · exact afterCommand_finishes _ msg

/-- A frame on its way to the row of a message gets there. -/
theorem finishes_step
    {f : Frame} {r : Row}
    (hdb : a.dbOk = true)
    (haudit : e.timeline.isAudited uuid7 = false)
    (h : Finishes uuid7 f)
    (hr : (f.step e a).shared.timeline.row? uuid7 = some r)
    (hstate : (f.step e a).shared.pipelineStates uuid7 = none) :
    r.Ended ∨ ∃ g ∈ (f.step e a).new, Finishes uuid7 g := by
  cases f with
  | ingest f =>
      cases f with
      | insertEvent msg => exact h.elim
      | setCommand msg command =>
          obtain rfl : msg.uuid7 = uuid7 := h
          refine Or.inr ?_
          simpa only [Frame.step, IngestFrame.step, hdb, if_true] using
            afterCommand_finishes _ msg
      | setUserUuid msg =>
          refine Or.inr ⟨.ingest (.insertState msg), ?_, h⟩
          simp [Frame.step, IngestFrame.step, hdb]
      | insertState msg =>
          obtain rfl : msg.uuid7 = uuid7 := h
          simp [Frame.step, IngestFrame.step, Engine.putState] at hstate
  | terminal f =>
      cases f with
      | write v ending result =>
          obtain rfl : v = uuid7 := h
          simp only [Frame.step, TerminalFrame.step, hdb, if_true, shared_go,
            Timeline.writeTerminalOutcome, Timeline.row?_update,
            Option.map_eq_some_iff] at hr
          obtain ⟨r', hr', rfl⟩ := hr
          refine Or.inl (Row.ended_writeTerminalOutcome _ _ _ fun hstatus => ?_)
          have htrue := (Timeline.isAudited_iff ..).mpr ⟨r', hr', hstatus⟩
          simp [haudit] at htrue
      | _ => exact h.elim
  | _ => exact h.elim

/-- Only a terminal path takes a state out of memory, and its write follows. -/
theorem taken_step
    {f : Frame}
    (hsome : e.pipelineStates uuid7 ≠ none)
    (hnone : (f.step e a).shared.pipelineStates uuid7 = none) :
    ∃ g ∈ (f.step e a).new, Finishes uuid7 g := by
  obtain ⟨state, hs⟩ := Option.ne_none_iff_exists'.mp hsome
  have hsub : f.stateSubject = some uuid7 := by
    by_contra hne
    rw [Frame.step_pipelineStates e a hne, hs] at hnone
    cases hnone
  cases f with
  | terminal f =>
      cases f with
      | take v ending =>
          obtain rfl : v = uuid7 := Option.some.inj hsub
          refine ⟨.terminal (.write v ending state.result), ?_, rfl⟩
          cases ending <;> simp [Frame.step, TerminalFrame.step, hs]
      | _ => simp [Frame.stateSubject] at hsub
  | ingest f =>
      cases f <;> simp only [Frame.stateSubject, Option.some.injEq,
        reduceCtorEq] at hsub
      subst hsub
      simp [Frame.step, IngestFrame.step, Engine.putState] at hnone
  | recovery f =>
      cases f <;> simp only [Frame.stateSubject, Option.some.injEq,
        reduceCtorEq] at hsub
      subst hsub
      simp [Frame.step, RecoveryFrame.step, Engine.putState] at hnone
  | inProcess f =>
      cases f <;> simp only [Frame.stateSubject, Option.some.injEq,
        reduceCtorEq] at hsub
      all_goals
        subst hsub
        simp [Frame.step, InProcessFrame.step, Engine.putState, hs] at hnone
  | postProcess f =>
      cases f <;> simp only [Frame.stateSubject, Option.some.injEq,
        reduceCtorEq] at hsub
      subst hsub
      simp [Frame.step, PostProcessFrame.step, Engine.putState, hs] at hnone
  | reply f =>
      cases f <;> simp only [Frame.stateSubject, Option.some.injEq,
        reduceCtorEq] at hsub
      all_goals
        subst hsub
        simp [Frame.step, ReplyFrame.step, Engine.modifyState, Engine.putState,
          hs] at hnone
  | advance f =>
      cases f <;> simp only [Frame.stateSubject, Option.some.injEq,
        reduceCtorEq] at hsub
      all_goals
        subst hsub
        simp [Frame.step, AdvanceFrame.step, Engine.modifyState, Engine.putState,
          Engine.logged, hs] at hnone
  | _ => simp [Frame.stateSubject] at hsub

end Steps

section Invariant

variable {s : EnginePool} {i : Nat} {a : Answer} {f : Frame} {rest : List Frame}

theorem undisturbed_dbOk
    (h : Undisturbed s a f) :
    a.dbOk = true := by
  unfold Undisturbed at h
  split at h
  · exact h.1
  · exact h

/-- A loop neither finishes nor takes a message, and no ingest waits. -/
theorem isLoop_idle
    {g : Frame} (h : g.IsLoop) :
    (∀ uuid7, ¬ Finishes uuid7 g) ∧ (∀ uuid7, ¬ Takes uuid7 g) ∧
      ∀ x, g ≠ .ingest x := by
  cases g with
  | ingest g => exact h.elim
  | terminal g => exact h.elim
  | _ => exact ⟨fun _ h => h, fun _ h => h, by simp⟩

/-- The frames after a serial step: what the step left, the rest of the stack,
and the replay it may have started. -/
theorem Serviced.frames_run
    (h : Serviced s)
    (hdb : a.dbOk = true)
    (hi : s.threads[i]? = some (f :: rest))
    (hone : OneAtATime s (.run i a : EngineLabel)) :
    ∃ tail fs, s.frames = f :: tail ∧
      ((f.step s.shared a).next = some fs ∨
        (f.step s.shared a).next = none ∧ fs = [] ∧ tail = []) ∧
      (afterRun s i a f rest).frames =
        fs ++ tail ++ (f.step s.shared a).spawned.flatten := by
  obtain ⟨tail, hframes, hnext, hfail⟩ :=
    frames_oneAtATime (P := engine) (o := f.step s.shared a) hi hone
  rcases step_next (e := s.shared) hdb f with ⟨fs, hfs⟩ | ⟨msg, rfl⟩
  · exact ⟨tail, fs, hframes, Or.inl hfs, hnext fs hfs⟩
  · have halone := h.alone (.insertEvent msg) (by simp [hframes])
    have htail : tail = [] := by
      simpa [hframes] using halone
    subst htail
    cases hn : (Frame.step s.shared a (.ingest (.insertEvent msg))).next with
    | some fs => exact ⟨[], fs, hframes, Or.inl rfl, hnext fs hn⟩
    | none =>
        refine ⟨[], [], hframes, Or.inr ⟨rfl, rfl, rfl⟩, ?_⟩
        have hsub := hfail hn
        simp only [List.nil_append] at hsub ⊢
        have hnospawn : (Frame.step s.shared a
            (.ingest (.insertEvent msg))).spawned.flatten = [] := by
          rw [List.flatten_eq_nil_iff]
          intro t ht
          obtain ⟨held, heq, -⟩ := step_spawned ht
          cases heq
        rw [hnospawn] at hsub ⊢
        exact List.sublist_nil.mp hsub

theorem Alive.ofPasses
    {uuid7 : String}
    (hi : s.threads[i]? = some (f :: rest))
    (h : Passes uuid7 s.shared a f) :
    Alive uuid7 (afterRun s i a f rest) := by
  rcases h with hpending | hheld | ⟨g, hg, hcarries⟩
  · exact Or.inl hpending
  · exact Or.inr (Or.inl hheld)
  · exact Or.inr (Or.inr ⟨g, mem_frames_of_new hi hg, hcarries⟩)

theorem isAudited_false_iff
    {t : Timeline} {uuid7 : String} :
    t.isAudited uuid7 = false ↔
      ∀ r, t.row? uuid7 = some r → r.pipelineStatus ≠ .audit := by
  rw [← Bool.not_eq_true, Timeline.isAudited_iff]
  push Not
  rfl

theorem Serviced.unaudited_run
    (h : Serviced s)
    (hf : f ∈ s.frames)
    (uuid7 : String) :
    (f.step s.shared a).shared.timeline.isAudited uuid7 = false := by
  have hbefore := isAudited_false_iff.mp (h.unaudited uuid7)
  rw [isAudited_false_iff]
  intro r hr
  rcases f.step_row s.shared a uuid7 with hrow | ⟨msg, -, -, -, hrow⟩ |
    ⟨-, g, hg, hrow⟩
  · exact hbefore r (hrow ▸ hr)
  · obtain rfl := Option.some.inj (hrow.symm.trans hr)
    simp [IngestFrame.row]
  · rw [hrow, Option.map_eq_some_iff] at hr
    obtain ⟨r', hr', rfl⟩ := hr
    exact (rowUpdate_spec (h.unflagged f hf) hg (hbefore r' hr')).1

theorem Serviced.alive_run
    (h : Serviced s)
    (hok : Undisturbed s a f)
    (hone : OneAtATime s (.run i a : EngineLabel))
    (hi : s.threads[i]? = some (f :: rest))
    (uuid7 : String)
    (hstate : (f.step s.shared a).shared.pipelineStates uuid7 ≠ none) :
    Alive uuid7 (afterRun s i a f rest) := by
  have hdb := undisturbed_dbOk hok
  have hf := mem_frames_of_getElem? hi (List.mem_cons_self ..)
  by_cases hbefore : s.shared.pipelineStates uuid7 = none
  · exact .ofPasses hi (new_state_step hbefore hstate)
  rcases h.alive uuid7 hbefore with hpending | hheld | ⟨g, hg, hcarries⟩
  · exact .ofPasses hi (pending_step (h.taken uuid7 f hf) hpending hbefore)
  · exact .ofPasses hi (held_step hheld)
  · obtain ⟨tail, fs, hframes, -, hafter⟩ := h.frames_run hdb hi hone
    rw [hframes] at hg
    rcases List.mem_cons.mp hg with rfl | hg
    · exact .ofPasses hi (carries_step hdb (h.unaudited uuid7)
        (h.sweeps g hf) hcarries hstate)
    · refine Or.inr (Or.inr ⟨g, ?_, hcarries⟩)
      rw [hafter]
      exact List.mem_append_left _ (List.mem_append_right _ hg)

theorem Serviced.ended_run
    (h : Serviced s)
    (hok : Undisturbed s a f)
    (hone : OneAtATime s (.run i a : EngineLabel))
    (hi : s.threads[i]? = some (f :: rest))
    {uuid7 : String} {r : Row}
    (hr : (f.step s.shared a).shared.timeline.row? uuid7 = some r)
    (hstate : (f.step s.shared a).shared.pipelineStates uuid7 = none) :
    r.Ended ∨ ∃ g ∈ (afterRun s i a f rest).frames, Finishes uuid7 g := by
  have hdb := undisturbed_dbOk hok
  have hf := mem_frames_of_getElem? hi (List.mem_cons_self ..)
  have hnew (hex : ∃ g ∈ (f.step s.shared a).new, Finishes uuid7 g) :
      ∃ g ∈ (afterRun s i a f rest).frames, Finishes uuid7 g := by
    obtain ⟨g, hg, hfin⟩ := hex
    exact ⟨g, mem_frames_of_new hi hg, hfin⟩
  by_cases hbefore : s.shared.pipelineStates uuid7 = none
  · -- the running frame is the only one that can be on its way to the row
    have hfinishes {r' : Row} (hr' : s.shared.timeline.row? uuid7 = some r') :
        r'.Ended ∨ Finishes uuid7 f := by
      rcases h.ended uuid7 r' hr' hbefore with hended | ⟨g, hg, hfin⟩
      · exact Or.inl hended
      · obtain ⟨tail, fs, hframes, -, -⟩ := h.frames_run hdb hi hone
        rw [hframes] at hg
        rcases List.mem_cons.mp hg with rfl | hg
        · exact Or.inr hfin
        · have hloop := h.single g (by simpa [hframes] using hg)
          exact absurd hfin ((isLoop_idle hloop).1 uuid7)
    have hcarried (hfin : Finishes uuid7 f) :
        r.Ended ∨ ∃ g ∈ (afterRun s i a f rest).frames, Finishes uuid7 g :=
      (finishes_step hdb (h.unaudited uuid7) hfin hr hstate).imp id hnew
    rcases f.step_row s.shared a uuid7 with hrow | ⟨msg, rfl, rfl, hnone, hrow⟩ |
      ⟨-, g, hg, hrow⟩
    · exact (hfinishes (hrow ▸ hr)).elim Or.inl hcarried
    · exact Or.inr (hnew (insertEvent_finishes hdb hnone))
    · rw [hrow, Option.map_eq_some_iff] at hr
      obtain ⟨r', hr', rfl⟩ := hr
      rcases hfinishes hr' with hended | hfin
      · have hnot := isAudited_false_iff.mp (h.unaudited uuid7) r' hr'
        exact Or.inl ((rowUpdate_spec (h.unflagged f hf) hg hnot).2 hended)
      · exact hcarried hfin
  · exact Or.inr (hnew (taken_step hbefore hstate))

/-- An ingest only follows an ingest. -/
theorem ingest_of_new
    {e : Engine} {g : Frame} {x : IngestFrame}
    (hg : g ∈ (f.step e a).new)
    (hx : g = .ingest x) :
    ∃ y, f = .ingest y := by
  have hexpired {sw : Sweep} {entry : PendingAck} {still : Bool}
      (hexp : Expires sw entry still g) : False := by
    rcases hexp.shape with ⟨_, h, _⟩ | ⟨_, h⟩ | h | ⟨_, h⟩ | h <;> simp [h] at hx
  cases Frame.leads hg with
  | insertEvent_setCommand _ => exact ⟨_, rfl⟩
  | insertEvent_setUserUuid _ => exact ⟨_, rfl⟩
  | insertEvent_insertState _ => exact ⟨_, rfl⟩
  | setCommand_setUserUuid => exact ⟨_, rfl⟩
  | setCommand_insertState => exact ⟨_, rfl⟩
  | setUserUuid_insertState => exact ⟨_, rfl⟩
  | sweep_expire _ _ hexp => exact (hexpired hexp).elim
  | sweep_gone _ hexp => exact (hexpired hexp).elim
  | sweep_unsent _ hexp => exact (hexpired hexp).elim
  | @fanout_nobody fo _ =>
      cases hstage : fo.stage <;> simp [FanoutFrame.nobody, hstage] at hx
  | @replay_hold _ point _ => cases point <;> simp [replayHold] at hx
  | _ => simp at hx

theorem Serviced.single_run
    (h : Serviced s)
    (hok : Undisturbed s a f)
    (hone : OneAtATime s (.run i a : EngineLabel))
    (hi : s.threads[i]? = some (f :: rest)) :
    ∀ g ∈ (afterRun s i a f rest).frames.tail, g.IsLoop := by
  obtain ⟨tail, fs, hframes, hnext, hafter⟩ :=
    h.frames_run (undisturbed_dbOk hok) hi hone
  have htail : ∀ g ∈ tail, g.IsLoop := by
    simpa [hframes] using h.single
  have hspawned : ∀ g ∈ (f.step s.shared a).spawned.flatten, g.IsLoop := by
    intro g hg
    obtain ⟨t, ht, hgt⟩ := List.mem_flatten.mp hg
    obtain ⟨held, -, rfl⟩ := step_spawned ht
    obtain rfl := List.mem_singleton.mp hgt
    trivial
  have hfs : ∀ g ∈ fs.tail, g.IsLoop := by
    rcases hnext with hnext | ⟨-, rfl, -⟩
    · exact step_waiting hnext
    · simp
  intro g hg
  rw [hafter] at hg
  have hmem : g ∈ fs.tail ∨ g ∈ tail ∨ g ∈ (f.step s.shared a).spawned.flatten := by
    cases fs with
    | nil =>
        have hg' := List.mem_of_mem_tail hg
        simpa using hg'
    | cons f' fs => simpa [List.mem_append, or_assoc] using hg
  rcases hmem with hg | hg | hg
  · exact hfs g hg
  · exact htail g hg
  · exact hspawned g hg

theorem Serviced.alone_run
    (h : Serviced s)
    (hok : Undisturbed s a f)
    (hone : OneAtATime s (.run i a : EngineLabel))
    (hi : s.threads[i]? = some (f :: rest))
    (x : IngestFrame)
    (hx : .ingest x ∈ (afterRun s i a f rest).frames) :
    (afterRun s i a f rest).frames = [.ingest x] := by
  obtain ⟨tail, fs, hframes, hnext, hafter⟩ :=
    h.frames_run (undisturbed_dbOk hok) hi hone
  rw [hafter] at hx ⊢
  have hnot : .ingest x ∉ tail := by
    intro hmem
    have hloop := h.single (.ingest x) (by simpa [hframes] using hmem)
    exact (isLoop_idle hloop).2.2 x rfl
  have hnospawn : .ingest x ∉ (f.step s.shared a).spawned.flatten := by
    intro hmem
    obtain ⟨t, ht, hxt⟩ := List.mem_flatten.mp hmem
    obtain ⟨held, -, rfl⟩ := step_spawned ht
    simp at hxt
  have hfs : .ingest x ∈ fs := by
    rcases List.mem_append.mp hx with hx | hx
    · exact (List.mem_append.mp hx).resolve_right hnot
    · exact absurd hx hnospawn
  have hnext' : (f.step s.shared a).next = some fs := by
    rcases hnext with hnext | ⟨-, rfl, -⟩
    · exact hnext
    · simp at hfs
  -- an ingest only follows an ingest
  have hnew : .ingest x ∈ (f.step s.shared a).new := by
    simp [Outcome.new, hnext', hfs]
  obtain ⟨y, rfl⟩ := ingest_of_new hnew rfl
  have halone := h.alone y (by simp [hframes])
  have htail : tail = [] := by
    simpa [hframes] using halone
  have hspawned : ((Frame.ingest y).step s.shared a).spawned.flatten = [] := by
    rw [List.flatten_eq_nil_iff]
    intro t ht
    obtain ⟨held, heq, -⟩ := step_spawned ht
    cases heq
  have hlen : fs = [.ingest x] := by
    have hrest := IngestFrame.next_tail hnext'
    cases fs with
    | nil => simp at hfs
    | cons g fs =>
        obtain rfl : fs = [] := hrest
        rw [List.mem_singleton.mp hfs]
  rw [htail, hspawned, hlen]
  rfl

theorem flags_of_new
    {e : Engine} {g : Frame}
    (hg : g ∈ (f.step e a).new)
    (h : Flags g) :
    Flags f := by
  have hexpired {sw : Sweep} {entry : PendingAck} {still : Bool}
      (hexp : Expires sw entry still g) : False := by
    rcases hexp.shape with ⟨_, rfl, _⟩ | ⟨_, rfl⟩ | rfl | ⟨_, rfl⟩ | rfl <;> exact h
  cases Frame.leads hg with
  | audit_mark => trivial
  | sweep_expire _ _ hexp => exact (hexpired hexp).elim
  | sweep_gone _ hexp => exact (hexpired hexp).elim
  | sweep_unsent _ hexp => exact (hexpired hexp).elim
  | @fanout_nobody fo _ =>
      cases hstage : fo.stage <;> simp [FanoutFrame.nobody, hstage, Flags] at h
  | @replay_hold _ point _ => cases point <;> exact h.elim
  | _ => exact h.elim

/-- The terminal path that takes a state finds it gone from then on. -/
theorem takes_of_new
    {e : Engine} {g : Frame} {uuid7 : String}
    (hf : Takes uuid7 f → e.pipelineStates uuid7 = none)
    (hg : g ∈ (f.step e a).new)
    (h : Takes uuid7 g) :
    (f.step e a).shared.pipelineStates uuid7 = none := by
  have hexpired {sw : Sweep} {entry : PendingAck} {still : Bool}
      (hexp : Expires sw entry still g) : False := by
    rcases hexp.shape with ⟨_, rfl, _⟩ | ⟨_, rfl⟩ | rfl | ⟨_, rfl⟩ | rfl <;> exact h
  cases Frame.leads hg with
  | @terminal_write v ending =>
      obtain rfl : v = uuid7 := h
      cases hs : e.pipelineStates v with
      | none => exact Frame.step_pipelineStates_none e a hs (by simp [Frame.installs])
      | some state =>
          cases ending <;> simp [Frame.step, TerminalFrame.step, hs, Engine.putState]
  | @terminal_ack v ending result =>
      obtain rfl : v = uuid7 := h
      exact Frame.step_pipelineStates_none e a (hf rfl) (by simp [Frame.installs])
  | sweep_expire _ _ hexp => exact (hexpired hexp).elim
  | sweep_gone _ hexp => exact (hexpired hexp).elim
  | sweep_unsent _ hexp => exact (hexpired hexp).elim
  | @fanout_nobody fo _ =>
      cases hstage : fo.stage <;> simp [FanoutFrame.nobody, hstage, Takes] at h
  | @replay_hold _ point _ => cases point <;> exact h.elim
  | _ => exact h.elim

/-- The world starts at most one task, of one frame. -/
theorem starts_single (ev : WorldEvent) :
    ev.starts.flatten = [] ∨ ∃ g, ev.starts.flatten = [g] := by
  cases ev <;> simp only [WorldEvent.starts]
  case reply r => split <;> simp
  case receipt uuid7 moduleName => split <;> simp
  all_goals simp

theorem Serviced.world
    {ev : WorldEvent}
    (h : Serviced s)
    (hidle : s.Idle)
    (hflag : NoAuditFlag s ev) :
    Serviced { shared := ev.effect s.shared, threads := s.threads ++ ev.starts } := by
  have hframes : Pool.frames
      { shared := ev.effect s.shared, threads := s.threads ++ ev.starts } =
        ev.starts.flatten := by
    have hnil : s.threads.flatten = [] := hidle
    simp [Pool.frames, hnil]
  have hnone {f : Frame} (hf : f ∈ s.frames) : False := by
    rw [hidle] at hf
    exact List.not_mem_nil hf
  have hstates : (ev.effect s.shared).pipelineStates = s.shared.pipelineStates := by
    cases ev <;> rfl
  have hrows : (ev.effect s.shared).timeline = s.shared.timeline := by
    cases ev <;> rfl
  have hacks : (ev.effect s.shared).ackTracker = s.shared.ackTracker := by
    cases ev <;> rfl
  have hpause : (ev.effect s.shared).pauseState = s.shared.pauseState := by
    cases ev <;> rfl
  constructor
  · intro g hg
    rw [hframes] at hg
    rcases starts_single ev with hev | ⟨f, hev⟩ <;> simp [hev] at hg
  · intro x hx
    rw [hframes] at hx ⊢
    rcases starts_single ev with hev | ⟨f, hev⟩
    · simp [hev] at hx
    · rw [hev] at hx ⊢
      rw [List.mem_singleton.mp hx]
  · intro f hf
    rw [hframes] at hf
    cases opens_of_mem hf <;> trivial
  · intro f hf
    rw [hframes] at hf
    cases opens_of_mem hf with
    | auditFlag => exact hflag.elim
    | _ => exact id
  · simpa only [hrows] using h.unaudited
  · intro uuid7 f hf htakes
    rw [hframes] at hf
    cases opens_of_mem hf <;> exact htakes.elim
  · intro uuid7 hstate
    simp only [hstates] at hstate
    rcases h.alive uuid7 hstate with hpending | hheld | ⟨g, hg, -⟩
    · exact Or.inl (by simpa only [hacks] using hpending)
    · exact Or.inr (Or.inl (by simpa only [Held, hpause] using hheld))
    · exact (hnone hg).elim
  · intro uuid7 r hr hstate
    simp only [hrows, hstates] at hr hstate
    rcases h.ended uuid7 r hr hstate with hended | ⟨g, hg, -⟩
    · exact Or.inl hended
    · exact (hnone hg).elim

theorem Serviced.fire
    {s' : EnginePool} {l : EngineLabel}
    (h : Serviced s)
    (hok : HandlersInTurn s l)
    (hfire : engine.fire s l = some s') :
    Serviced s' := by
  obtain ⟨hone, hrun, hworld⟩ := hok
  cases l with
  | world ev =>
      obtain ⟨r, hr, rfl⟩ := fire_world_cases hfire
      obtain rfl := engine_event_eq hr
      exact h.world hone (hworld ev rfl)
  | run i a =>
      obtain ⟨f, rest, o, hi, ho, rfl⟩ := fire_run_cases hfire
      obtain rfl := engine_step_eq ho
      have hokf := hrun.top hi
      have hf := mem_frames_of_getElem? hi (List.mem_cons_self ..)
      obtain ⟨tail, fs, hframes, hnext, hafter⟩ :=
        h.frames_run (undisturbed_dbOk hokf) hi hone
      refine ⟨h.single_run hokf hone hi, h.alone_run hokf hone hi,
        fun g hg => ?_, fun g hg => ?_, h.unaudited_run hf,
        fun uuid7 g hg htakes => ?_, h.alive_run hokf hone hi,
        fun uuid7 r => h.ended_run hokf hone hi⟩
      · rcases mem_frames_after_run hi hg with hg | hg
        · exact sweepsOneEach_new hokf (h.sweeps f hf) hg
        · exact h.sweeps g hg
      · rcases mem_frames_after_run hi hg with hg | hg
        · exact fun hflag => h.unflagged f hf (flags_of_new hg hflag)
        · exact h.unflagged g hg
      · -- a terminal path does not wait under another frame
        have hnew : g ∈ (f.step s.shared a).new := by
          have hg' : g ∈ fs ++ tail ++ (f.step s.shared a).spawned.flatten := by
            rw [← hafter]
            exact hg
          have hnot : g ∉ tail := by
            intro hmem
            have hloop := h.single g (by simpa [hframes] using hmem)
            exact (isLoop_idle hloop).2.1 uuid7 htakes
          rcases hnext with hnext | ⟨-, rfl, rfl⟩
          · simpa [Outcome.new, hnext, hnot] using hg'
          · simp only [Outcome.new, List.mem_append]
            exact Or.inr (by simpa using hg')
        exact takes_of_new (h.taken uuid7 f hf) hnew htakes

end Invariant

/-- An ingested message has its row from then on. -/
theorem row_kept
    {s s' : EnginePool} {l : EngineLabel} {uuid7 : String}
    (h : s.shared.timeline.row? uuid7 ≠ none)
    (hfire : engine.fire s l = some s') :
    s'.shared.timeline.row? uuid7 ≠ none := by
  cases l with
  | world ev =>
      obtain ⟨r, hr, rfl⟩ := fire_world_cases hfire
      obtain rfl := engine_event_eq hr
      cases ev <;> exact h
  | run i a =>
      obtain ⟨f, rest, o, hi, ho, rfl⟩ := fire_run_cases hfire
      obtain rfl := engine_step_eq ho
      rcases f.step_row s.shared a uuid7 with hrow | ⟨_, _, _, _, hrow⟩ |
        ⟨_, g, _, hrow⟩
      · rw [hrow]
        exact h
      · rw [hrow]
        simp
      · rw [hrow]
        simpa using h

/-- With a working database the ingest leaves a row behind. -/
theorem row_insertEvent
    {e : Engine} {a : Answer} {msg : PipelineMessage}
    (hdb : a.dbOk = true) :
    ((Frame.ingest (.insertEvent msg)).step e a).shared.timeline.row? msg.uuid7 ≠
      none := by
  simp only [Frame.step, IngestFrame.step, hdb, if_true]
  cases hins : e.timeline.insertEvent msg.uuid7 (IngestFrame.row msg) with
  | none =>
      intro hnone
      simp [Timeline.insertEvent, show e.timeline.row? msg.uuid7 = none from hnone]
        at hins
  | some timeline =>
      have hrow := Timeline.row?_insertEvent hins msg.uuid7
      rw [if_pos rfl] at hrow
      cases msg.command <;> simp [hrow]

/-- An ingested message has a row, or is about to be given one. -/
theorem ingested_fire
    {s s' : EnginePool} {l : EngineLabel} {msg : PipelineMessage}
    (hok : HandlersInTurn s l)
    (h : s.shared.timeline.row? msg.uuid7 ≠ none ∨
      s.frames = [.ingest (.insertEvent msg)])
    (hfire : engine.fire s l = some s') :
    s'.shared.timeline.row? msg.uuid7 ≠ none ∨
      s'.frames = [.ingest (.insertEvent msg)] := by
  rcases h with hrow | hframes
  · exact Or.inl (row_kept hrow hfire)
  obtain ⟨hone, hrun, -⟩ := hok
  cases l with
  | world ev =>
      have hidle : s.frames = [] := hone
      simp [hidle] at hframes
  | run i a =>
      obtain ⟨f, rest, o, hi, ho, rfl⟩ := fire_run_cases hfire
      obtain rfl := engine_step_eq ho
      obtain ⟨tail, htop, -⟩ :=
        frames_oneAtATime (P := engine) (o := f.step s.shared a) hi hone
      obtain ⟨rfl, -⟩ : f = .ingest (.insertEvent msg) ∧ tail = [] := by
        simpa [hframes, eq_comm] using htop
      exact Or.inl (row_insertEvent (undisturbed_dbOk (hrun.top hi)))

/-- **Main theorem.**  In a run of handlers in turn from an engine without
in-memory states, whose rows are those of ended messages: between two handlers,
a message with an in-memory state has a pending ack or is held, and a message
that was ingested and has none has a terminal status on its row. -/
theorem no_stranded_message
    (e : Engine)
    (hstates : ∀ uuid7, e.pipelineStates uuid7 = none)
    (hrows : ∀ uuid7 r, e.timeline.row? uuid7 = some r → r.Ended)
    (ls : List EngineLabel)
    {s : EnginePool}
    (hall : AllSteps engine HandlersInTurn (boot e) ls)
    (hrun : engine.exec (boot e) ls = some s)
    (hidle : s.Idle) :
    (∀ uuid7, s.shared.pipelineStates uuid7 ≠ none →
      s.shared.ackTracker.hasPending uuid7 = true ∨ Held uuid7 s.shared) ∧
    ∀ msg, .world (.ingest msg) ∈ ls →
      s.shared.pipelineStates msg.uuid7 = none →
      ∃ r, s.shared.timeline.row? msg.uuid7 = some r ∧ r.Ended := by
  have hserviced : Serviced s := by
    refine (reachable_of_allSteps ls .start hall hrun).invariant ?_ Serviced.fire
    constructor
    · simp [boot, Pool.frames]
    · simp [boot, Pool.frames]
    · simp [boot, Pool.frames]
    · simp [boot, Pool.frames]
    · intro uuid7
      rw [isAudited_false_iff]
      intro r hr haudit
      simpa [Row.Ended, haudit] using hrows uuid7 r hr
    · simp [boot, Pool.frames]
    · intro uuid7 hstate
      exact absurd (hstates uuid7) hstate
    · intro uuid7 r hr _
      exact Or.inl (hrows uuid7 r hr)
  constructor
  · intro uuid7 hstate
    rcases hserviced.alive uuid7 hstate with hpending | hheld | ⟨f, hf, -⟩
    · exact Or.inl hpending
    · exact Or.inr hheld
    · rw [hidle] at hf
      exact absurd hf List.not_mem_nil
  · intro msg hmem hstate
    obtain ⟨ls₁, ls₂, rfl⟩ := List.mem_iff_append.mp hmem
    obtain ⟨s₁, s₂, h₁, hfire, h₂⟩ := exec_split hrun
    obtain ⟨⟨hstart, -⟩, hsteps⟩ := hall.drop h₁
    have hingested := (reachable_of_allSteps ls₂ .start (hsteps s₂ hfire)
      h₂).invariant
      (I := fun t => t.shared.timeline.row? msg.uuid7 ≠ none ∨
        t.frames = [.ingest (.insertEvent msg)]) ?_
      (fun h hok hf => ingested_fire hok h hf)
    · have hrow : s.shared.timeline.row? msg.uuid7 ≠ none := by
        rcases hingested with hrow | hframes
        · exact hrow
        · rw [hidle] at hframes
          cases hframes
      obtain ⟨r, hr⟩ := Option.ne_none_iff_exists'.mp hrow
      refine ⟨r, hr, ?_⟩
      rcases hserviced.ended msg.uuid7 r hr hstate with hended | ⟨f, hf, -⟩
      · exact hended
      · rw [hidle] at hf
        exact absurd hf List.not_mem_nil
    · obtain ⟨r, hr, rfl⟩ := fire_world_cases hfire
      obtain rfl := engine_event_eq hr
      have hnil : s₁.threads.flatten = [] := hstart
      exact Or.inr (by simp [Pool.frames, WorldEvent.starts, hnil])

/-- One message is answered and completes, a second one waits for its module,
and a third one comes in while the engine is paused. -/
def oneOfEach : List EngineLabel :=
  .world (.ingest { uuid7 := "m", rawMessage := "hi" }) ::
    List.replicate 12 (.run 0 {}) ++
  .world (.reply { uuid7 := "m", moduleName := "bot", stage := .inProcess }) ::
    List.replicate 17 (.run 1 {}) ++
  .world (.ingest { uuid7 := "n", rawMessage := "hi" }) ::
    List.replicate 12 (.run 2 {}) ++
  .world (.operator true) :: List.replicate 2 (.run 3 {}) ++
  .world (.ingest { uuid7 := "k", rawMessage := "hi" }) ::
    List.replicate 3 (.run 4 {})

theorem no_stranded_message_oneOfEach :
    ∃ s, engine.exec (boot { config := { inProcessModules := ["bot"] } })
        oneOfEach = some s ∧
      (∃ r, s.shared.timeline.row? "m" = some r ∧ r.Ended) ∧
      (s.shared.ackTracker.hasPending "n" = true ∨ Held "n" s.shared) ∧
      (s.shared.ackTracker.hasPending "k" = true ∨ Held "k" s.shared) := by
  obtain ⟨s, hrun, hidle, hm, hn, hk⟩ := exec_any (P := engine)
    (Q := fun s => s.Idle ∧ s.shared.pipelineStates "m" = none ∧
      s.shared.pipelineStates "n" ≠ none ∧ s.shared.pipelineStates "k" ≠ none)
    (boot { config := { inProcessModules := ["bot"] } })
    oneOfEach (by decide +kernel)
  have h := no_stranded_message { config := { inProcessModules := ["bot"] } }
    (fun _ => rfl) (by simp [Timeline.row?]) oneOfEach (by decide +kernel) hrun hidle
  exact ⟨s, hrun, h.2 { uuid7 := "m", rawMessage := "hi" }
    (List.mem_cons_self ..) hm, h.1 "n" hn, h.1 "k" hk⟩

end CockatielEngine
