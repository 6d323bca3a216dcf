import CockatielEngine.Concurrency.Trace
import CockatielEngine.Gate.HeldRelease
import CockatielEngine.Pipeline.AuditFinal

/-!
# Pipeline: recovery and the live path

A message is claimed by its in-memory state, but its row is inserted before the
state is and still reads `queued` after the state has been taken.  In between,
the queued-row drain finds a row that nobody seems to own.

**Main result.**  When recovery reads a queued row only of a message that no
task has claimed, and no terminal write fails, the pre-process fanout of the
message is run at most once and never after a terminal path has begun.
-/

namespace CockatielEngine

open TaskPool

section Defs

variable (uuid7 : String)

/-- The frame runs the pre-process fanout of the message. -/
def RunsFanout : Frame → Prop
  | .broadcast (.config v _) => v = uuid7
  | _ => False

/-- The frame begins a terminal path of the message. -/
def BeginsTerminal : Frame → Prop
  | .terminal (.check v _) => v = uuid7
  | _ => False

/-- Of what has been run, newest first, nothing before a pre-process fanout of
the message is another one or the beginning of a terminal path. -/
def FanoutOnce (tr : List (Nat × Frame)) : Prop :=
  tr.Pairwise fun later earlier =>
    RunsFanout uuid7 later.2 →
      ¬ RunsFanout uuid7 earlier.2 ∧ ¬ BeginsTerminal uuid7 earlier.2

/-- The frame owns the message while its in-memory state does not show it: the
row is inserted and the state is not, or the state has been taken and the
outcome is not yet written. -/
def Claims : Frame → Prop
  | .ingest (.setCommand msg _) => msg.uuid7 = uuid7
  | .ingest (.setUserUuid msg) => msg.uuid7 = uuid7
  | .ingest (.insertState msg) => msg.uuid7 = uuid7
  | .recovery (.insertState v _) => v = uuid7
  | .terminal (.write v _ _) => v = uuid7
  | _ => False

/-- The frame holds what the message will be driven with, or the result its run
has accumulated. -/
def Keeps : Frame → Prop
  | .terminal (.write v _ result) =>
      v = uuid7 ∧ result.processedMessage.isSome = true
  | f => Claims uuid7 f

/-- The message has a row, and it is in memory, or a task keeps it, or its row
satisfies `done`. -/
def Owned (done : Row → Prop) (s : EnginePool) : Prop :=
  ∃ r, s.shared.timeline.row? uuid7 = some r ∧
    (s.shared.pipelineStates uuid7 ≠ none ∨ s.AtTop (Keeps uuid7) ∨ done r)

/-- Nobody owns the message. -/
def Unclaimed (s : EnginePool) : Prop :=
  s.shared.pipelineStates uuid7 = none ∧ ¬ s.AtTop (Claims uuid7)

/-- Recovery reads a queued row only of a message nobody owns, and the terminal
write of the message succeeds. -/
def RecoversUnclaimed (s : EnginePool) (a : Answer) : Frame → Prop
  | .recovery (.load v) =>
      v = uuid7 → a.dbOk = true →
        (s.shared.timeline.loadQueuedMessage uuid7).isSome = true →
        Unclaimed uuid7 s
  | .terminal (.write v _ _) => v = uuid7 → a.dbOk = true
  | _ => True

instance : DecidablePred (RunsFanout uuid7) := fun f => by
  unfold RunsFanout
  split <;> infer_instance

instance : DecidablePred (BeginsTerminal uuid7) := fun f => by
  unfold BeginsTerminal
  split <;> infer_instance

instance (tr : List (Nat × Frame)) : Decidable (FanoutOnce uuid7 tr) :=
  inferInstanceAs (Decidable (tr.Pairwise fun later earlier =>
    RunsFanout uuid7 later.2 →
      ¬ RunsFanout uuid7 earlier.2 ∧ ¬ BeginsTerminal uuid7 earlier.2))

instance : DecidablePred (Claims uuid7) := fun f => by
  unfold Claims
  split <;> infer_instance

instance : DecidablePred (Keeps uuid7) := fun f => by
  unfold Keeps
  split <;> infer_instance

instance (done : Row → Prop) [DecidablePred done] (s : EnginePool) :
    Decidable (Owned uuid7 done s) :=
  match h : s.shared.timeline.row? uuid7 with
  | none => .isFalse fun ⟨r, hr, _⟩ => by simp [h] at hr
  | some r =>
      decidable_of_iff
        (s.shared.pipelineStates uuid7 ≠ none ∨ s.AtTop (Keeps uuid7) ∨ done r)
        ⟨fun howner => ⟨r, h, howner⟩, fun ⟨r', hr', howner⟩ => by
          obtain rfl : r = r' := Option.some.inj (h.symm.trans hr')
          exact howner⟩

instance (s : EnginePool) (a : Answer) (f : Frame) :
    Decidable (RecoversUnclaimed uuid7 s a f) := by
  unfold RecoversUnclaimed Unclaimed
  split <;> infer_instance

/-- How often the message is held at the entry of the chain. -/
def entryHolds (held : List (String × HoldPoint)) : Nat :=
  held.count (uuid7, .entry)

/-- How many pre-process fanouts of the message the frame still leads to. -/
def fanoutsAhead : Frame → Nat
  | .ingest (.setCommand msg _) => if msg.uuid7 = uuid7 then 1 else 0
  | .ingest (.setUserUuid msg) => if msg.uuid7 = uuid7 then 1 else 0
  | .ingest (.insertState msg) => if msg.uuid7 = uuid7 then 1 else 0
  | .recovery (.insertState v _) => if v = uuid7 then 1 else 0
  | .broadcast (.enter v) => if v = uuid7 then 1 else 0
  | .broadcast (.load v) => if v = uuid7 then 1 else 0
  | .broadcast (.config v _) => if v = uuid7 then 1 else 0
  | .resume (.spawnReplay held) => entryHolds uuid7 held
  | .resume (.replayNext held) => entryHolds uuid7 held
  | _ => 0

/-- How often the fanout has been run. -/
def fanoutsRun (tr : List (Nat × Frame)) : Nat :=
  tr.countP fun x => RunsFanout uuid7 x.2

/-- The fanouts of the message that are still ahead. -/
def ahead (s : EnginePool) : Nat :=
  s.total (fanoutsAhead uuid7) + entryHolds uuid7 s.shared.pauseState.held

/-- If the frame works on the message at all, it does so before the message
enters the chain. -/
def AtEntry : Frame → Prop
  | .ingest _ => True
  | .recovery _ => True
  | .broadcast _ => True
  | .resume (.spawnReplay held) =>
      ∀ point, (uuid7, point) ∈ held → point = .entry
  | .resume (.replayNext held) =>
      ∀ point, (uuid7, point) ∈ held → point = .entry
  | f => ¬ WorksOn uuid7 f

/-- The message has not entered the chain. -/
structure NotEntered (s : EnginePool) : Prop where
  pending : ∀ entry ∈ s.shared.ackTracker.pending, entry.uuid7 ≠ uuid7
  held : ∀ point, (uuid7, point) ∈ s.shared.pauseState.held → point = .entry
  tasks : ∀ f ∈ s.frames, AtEntry uuid7 f

/-- The row has left the queue. -/
def Row.Dequeued (r : Row) : Prop :=
  r.pipelineStatus ≠ .queued

/-- The invariant of a run whose recovery finds unclaimed messages only. -/
structure SinglyClaimed (tr : List (Nat × Frame)) (s : EnginePool) : Prop where
  waiting : s.Waiting Frame.IsLoop
  once : ahead uuid7 s + fanoutsRun uuid7 tr ≤ 1
  before : fanoutsRun uuid7 tr = 0 →
    NotEntered uuid7 s ∧ ∀ x ∈ tr, ¬ BeginsTerminal uuid7 x.2
  owned : 0 < ahead uuid7 s + fanoutsRun uuid7 tr →
    Owned uuid7 Row.Dequeued s
  ordered : FanoutOnce uuid7 tr

end Defs

section Budget

variable {uuid7 : String} {e : Engine} {a : Answer}

/-- The step claims the message: it inserts its row, or recovers it. -/
def TakesUp (uuid7 : String) (e : Engine) (a : Answer) : Frame → Prop
  | .ingest (.insertEvent msg) =>
      msg.uuid7 = uuid7 ∧ a.dbOk = true ∧ e.timeline.row? uuid7 = none
  | .recovery (.load v) =>
      v = uuid7 ∧ a.dbOk = true ∧
        (e.timeline.loadQueuedMessage uuid7).isSome = true
  | _ => False

instance (f : Frame) : Decidable (TakesUp uuid7 e a f) := by
  unfold TakesUp
  split <;> infer_instance

theorem entryHolds_holdIfGated_le
    (uuid7 : String) (s : PauseState) (v : String) (point : HoldPoint) :
    entryHolds uuid7 (s.holdIfGated v point).2.held ≤
      entryHolds uuid7 s.held + if v = uuid7 ∧ point = .entry then 1 else 0 := by
  unfold PauseState.holdIfGated
  split
  · exact PauseState.count_insertHeld_le _ _ _ _ _
  · exact Nat.le_add_right _ _

/-- The families whose frames can lead to the fanout. -/
def launching : Frame → Bool
  | .ingest _ => true
  | .recovery _ => true
  | .broadcast _ => true
  | .gate _ => true
  | .resume _ => true
  | _ => false

theorem fanoutsAhead_new_eq_zero
    {f g : Frame}
    (hf : launching f = false)
    (hg : g ∈ (f.step e a).new) :
    fanoutsAhead uuid7 g = 0 := by
  have hexpired {sw : Sweep} {entry : PendingAck} {still : Bool}
      (hexp : Expires sw entry still g) : fanoutsAhead uuid7 g = 0 := by
    rcases hexp.shape with ⟨_, rfl, _⟩ | ⟨_, rfl⟩ | rfl | ⟨_, rfl⟩ | rfl <;> rfl
  cases Frame.leads hg with
  | @fanout_nobody fo _ => cases fo.stage <;> rfl
  | sweep_expire _ _ hexp => exact hexpired hexp
  | sweep_gone _ hexp => exact hexpired hexp
  | sweep_unsent _ hexp => exact hexpired hexp
  | _ => first | rfl | simp [launching] at hf

/-- A step outside these families holds nothing at the entry. -/
theorem entryHolds_step_le
    (uuid7 : String) (e : Engine) (a : Answer)
    {f : Frame} (hf : launching f = false) :
    entryHolds uuid7 (f.step e a).shared.pauseState.held ≤
      entryHolds uuid7 e.pauseState.held := by
  cases htouch : f.touchesGate with
  | false => rw [Frame.step_pauseState e a htouch]
  | true =>
      rcases Frame.touchesGate_cases htouch with ⟨v, point, hhold⟩ | ⟨t, rfl⟩
      · rw [Frame.step_pauseState_hold e a hhold]
        have hpoint : point ≠ .entry := by
          rintro rfl
          cases f with
          | broadcast => simp [launching] at hf
          | inProcess f => cases f <;> simp [Frame.hold] at hhold
          | postProcess f => cases f <;> simp [Frame.hold] at hhold
          | _ => simp [Frame.hold] at hhold
        simpa [hpoint] using
          entryHolds_holdIfGated_le uuid7 e.pauseState v point
      · simp [launching] at hf

theorem IngestFrame.fanouts_budget
    (uuid7 : String) (e : Engine) (a : Answer) (f : IngestFrame) :
    ((f.step e a).new.map (fanoutsAhead uuid7)).sum ≤
      fanoutsAhead uuid7 (.ingest f) +
        if TakesUp uuid7 e a (.ingest f) then 1 else 0 := by
  have hafter (msg : PipelineMessage) :
      ((afterCommand msg).map (fanoutsAhead uuid7)).sum =
        if msg.uuid7 = uuid7 then 1 else 0 := by
    unfold afterCommand
    split <;> simp [fanoutsAhead]
  cases f with
  | insertEvent msg =>
      simp only [step]
      split
      · rename_i hdb
        cases hins : e.timeline.insertEvent msg.uuid7 (row msg) with
        | none => simp
        | some timeline =>
            have hrow : e.timeline.row? msg.uuid7 = none := by
              by_contra hne
              simp [Timeline.insertEvent, Option.isSome_iff_ne_none, hne] at hins
            have htakes : TakesUp uuid7 e a (.ingest (.insertEvent msg)) ↔
                msg.uuid7 = uuid7 := by
              constructor
              · exact fun h => h.1
              · rintro rfl
                exact ⟨rfl, hdb, hrow⟩
            cases msg.command <;> simp [hafter, htakes, fanoutsAhead]
      · simp
  | setCommand msg command =>
      simp only [step]
      split <;> simp [hafter, fanoutsAhead]
  | setUserUuid msg =>
      simp only [step]
      split <;> simp [fanoutsAhead]
  | insertState msg => simp [step, fanoutsAhead]

theorem RecoveryFrame.fanouts_budget
    (uuid7 : String) (e : Engine) (a : Answer) (f : RecoveryFrame) :
    ((f.step e a).new.map (fanoutsAhead uuid7)).sum ≤
      fanoutsAhead uuid7 (.recovery f) +
        if TakesUp uuid7 e a (.recovery f) then 1 else 0 := by
  cases f with
  | check v =>
      simp only [step]
      split <;> simp [fanoutsAhead]
  | load v =>
      simp only [step]
      split
      · rename_i hdb
        cases hload : e.timeline.loadQueuedMessage v with
        | none => simp
        | some msg =>
            by_cases hv : v = uuid7
            · subst hv
              simp [fanoutsAhead, TakesUp, hdb, hload]
            · simp [fanoutsAhead, hv]
      · simp
  | insertState v msg => simp [step, fanoutsAhead]
  | drainQueued =>
      simp only [step]
      split <;> simp [fanoutsAhead]
  | drainNext uuids => cases uuids <;> simp [step, fanoutsAhead]

theorem BroadcastFrame.fanouts_budget
    (uuid7 : String) (e : Engine) (f : BroadcastFrame) :
    ((f.step e).new.map (fanoutsAhead uuid7)).sum +
        entryHolds uuid7 (f.step e).shared.pauseState.held +
        (if RunsFanout uuid7 (.broadcast f) then 1 else 0) ≤
      fanoutsAhead uuid7 (.broadcast f) + entryHolds uuid7 e.pauseState.held := by
  cases f with
  | enter v =>
      have hholds := entryHolds_holdIfGated_le uuid7 e.pauseState v .entry
      simp only [step]
      cases hgate : e.pauseState.holdIfGated v .entry with
      | mk held s =>
          rw [hgate] at hholds
          cases held with
          | true => simpa [fanoutsAhead, RunsFanout, Nat.add_comm] using hholds
          | false => simp [fanoutsAhead, RunsFanout]
  | load v =>
      simp only [step]
      split <;> simp [fanoutsAhead, RunsFanout]
  | config v state =>
      by_cases hv : v = uuid7 <;>
        simp [step, fanoutsAhead, RunsFanout, hv, Nat.add_comm]

theorem ResumeFrame.fanouts_budget
    (uuid7 : String) (e : Engine) (f : ResumeFrame) :
    ((f.step e).new.map (fanoutsAhead uuid7)).sum ≤
      fanoutsAhead uuid7 (.resume f) := by
  cases f with
  | restartClocks => simp [step]
  | spawnReplay held =>
      cases held <;> simp [step, Outcome.new, fanoutsAhead]
  | replayNext held =>
      cases held with
      | nil => simp [step]
      | cons h held =>
          obtain ⟨v, point⟩ := h
          cases point <;>
            simp [step, replayHold, fanoutsAhead, entryHolds, List.count_cons,
              Nat.add_comm]

theorem gateStep_fanouts_budget
    (uuid7 : String) (e : Engine) (t : GateTask) :
    ((gateStep e t).new.map (fanoutsAhead uuid7)).sum +
        entryHolds uuid7 (gateStep e t).shared.pauseState.held ≤
      entryHolds uuid7 e.pauseState.held := by
  cases t with
  | resume told =>
      simp [gateStep, GateTask.step, fanoutsAhead, PauseState.resume, entryHolds]
  | clearBlock reason =>
      have hheld := PauseState.held_clearBlock e.pauseState reason
      simp only [gateStep, GateTask.step]
      split <;> simp [fanoutsAhead, hheld]
  | setBlock reason => simp [gateStep, GateTask.step]
  | pause => simp [gateStep, GateTask.step]
  | _ => simp [gateStep, GateTask.step, PauseState.deferPause, PauseState.deferResume,
      fanoutsAhead]

/-- What a step does to the fanouts ahead: it passes them on, runs one, or
claims the message. -/
theorem fanouts_budget
    (uuid7 : String) (e : Engine) (a : Answer) (f : Frame) :
    ((f.step e a).new.map (fanoutsAhead uuid7)).sum +
        entryHolds uuid7 (f.step e a).shared.pauseState.held +
        (if RunsFanout uuid7 f then 1 else 0) ≤
      fanoutsAhead uuid7 f + entryHolds uuid7 e.pauseState.held +
        if TakesUp uuid7 e a f then 1 else 0 := by
  have hother (hf : launching f = false) :
      ((f.step e a).new.map (fanoutsAhead uuid7)).sum +
          entryHolds uuid7 (f.step e a).shared.pauseState.held ≤
        fanoutsAhead uuid7 f + entryHolds uuid7 e.pauseState.held := by
    have hnew : ((f.step e a).new.map (fanoutsAhead uuid7)).sum = 0 := by
      refine List.sum_eq_zero fun n hn => ?_
      obtain ⟨g, hg, rfl⟩ := List.mem_map.mp hn
      exact fanoutsAhead_new_eq_zero hf hg
    have hheld := entryHolds_step_le uuid7 e a hf
    omega
  cases f with
  | ingest f =>
      have hpause := Frame.step_pauseState e a (f := .ingest f) rfl
      have hbudget := f.fanouts_budget uuid7 e a
      have hrun : ¬ RunsFanout uuid7 (.ingest f) := id
      rw [hpause, if_neg hrun]
      simp only [Frame.step]
      omega
  | recovery f =>
      have hpause := Frame.step_pauseState e a (f := .recovery f) rfl
      have hbudget := f.fanouts_budget uuid7 e a
      have hrun : ¬ RunsFanout uuid7 (.recovery f) := id
      rw [hpause, if_neg hrun]
      simp only [Frame.step]
      omega
  | broadcast f =>
      simpa [Frame.step, TakesUp] using f.fanouts_budget uuid7 e
  | gate t =>
      have hbudget := gateStep_fanouts_budget uuid7 e t
      simpa [Frame.step, TakesUp, RunsFanout, fanoutsAhead] using hbudget
  | resume f =>
      have hpause := Frame.step_pauseState e a (f := .resume f) rfl
      have hbudget := f.fanouts_budget uuid7 e
      have hrun : ¬ RunsFanout uuid7 (.resume f) := id
      rw [hpause, if_neg hrun]
      simp only [Frame.step]
      omega
  | _ => simpa [RunsFanout, TakesUp] using hother rfl

end Budget

section Entry

variable {uuid7 : String} {e : Engine} {a : Answer}

theorem tracks_ne_of_atEntry
    {f : Frame} {entry : PendingAck} {now : Nat}
    (h : AtEntry uuid7 f)
    (htracks : f.tracks now = some entry) :
    entry.uuid7 ≠ uuid7 := by
  cases f with
  | fanout f => exact tracks_ne h htracks
  | inProcess f => exact tracks_ne h htracks
  | sweep f => exact tracks_ne h htracks
  | _ => simp [Frame.tracks] at htracks

theorem hold_of_atEntry
    {f : Frame} {point : HoldPoint}
    (h : AtEntry uuid7 f)
    (hhold : f.hold = some (uuid7, point)) :
    point = .entry := by
  cases f with
  | broadcast f => cases f <;> simp_all [Frame.hold]
  | inProcess f => exact absurd hhold (hold_ne h)
  | postProcess f => exact absurd hhold (hold_ne h)
  | _ => simp [Frame.hold] at hhold

theorem atEntry_of_not_worksOn
    {f : Frame} (h : ¬ WorksOn uuid7 f) :
    AtEntry uuid7 f := by
  cases f with
  | resume f =>
      cases f with
      | restartClocks => exact h
      | _ => exact fun point hmem => absurd ⟨point, hmem⟩ h
  | _ => trivial

/-- Only the pre-process fanout takes a message into the chain. -/
theorem atEntry_new
    {f g : Frame}
    (hf : AtEntry uuid7 f)
    (hrun : ¬ RunsFanout uuid7 f)
    (hpending : ∀ entry ∈ e.ackTracker.pending, entry.uuid7 ≠ uuid7)
    (hheld : ∀ point, (uuid7, point) ∈ e.pauseState.held → point = .entry)
    (hg : g ∈ (f.step e a).new) :
    AtEntry uuid7 g := by
  cases Frame.leads hg with
  | broadcast_fanout => exact hrun
  | reply_record howns =>
      obtain ⟨entry, hmem, hu, -, -⟩ := (AckTracker.isPendingFor_iff ..).mp howns
      exact fun hworks => hpending entry hmem (hu.trans hworks)
  | @fanout_nobody fo _ => cases hst : fo.stage <;> exact hf
  | sweep_first htodo =>
      rintro ⟨⟨entry, still⟩, hmem, hu⟩
      rw [htodo, SweepFrame.mem_drained_iff, AckTracker.mem_checkTimeouts_iff] at hmem
      exact hpending entry hmem.1 hu
  | sweep_resendLoad htodo _ =>
      obtain ⟨hx, htail⟩ := not_hasDrained_todo htodo hf
      exact fun hworks => hworks.elim hx htail
  | sweep_expire htodo _ hexp =>
      obtain ⟨hx, htail⟩ := not_hasDrained_todo htodo hf
      exact atEntry_of_not_worksOn (hexp.not_worksOn htail hx)
  | sweep_gone _ hexp =>
      exact atEntry_of_not_worksOn
        (hexp.not_worksOn (fun h => hf (Or.inr h)) (fun h => hf (Or.inl h)))
  | sweep_unsent _ hexp =>
      exact atEntry_of_not_worksOn
        (hexp.not_worksOn (fun h => hf (Or.inr h)) (fun h => hf (Or.inl h)))
  | sweep_resent => exact fun hworks => hf (Or.inr hworks)
  | resume_spawnReplay => exact hheld
  | @replay_hold v point held =>
      cases point with
      | entry => trivial
      | inProcess =>
          rintro rfl
          cases hf .inProcess (List.mem_cons_self ..)
      | postProcess =>
          rintro rfl
          cases hf .postProcess (List.mem_cons_self ..)
  | replay_next => exact fun point hmem => hf point (List.mem_cons_of_mem _ hmem)
  | _ => trivial

theorem NotEntered.run
    {s : EnginePool} {i : Nat} {f : Frame} {rest : List Frame}
    (h : NotEntered uuid7 s)
    (hi : s.threads[i]? = some (f :: rest))
    (hrun : ¬ RunsFanout uuid7 f) :
    NotEntered uuid7 (afterRun s i a f rest) := by
  have hf := h.tasks f (mem_frames_of_getElem? hi (List.mem_cons_self ..))
  constructor
  · intro entry hentry
    rcases Frame.mem_pending_step s.shared a hentry with ⟨x, hx, hxe⟩ | htracks
    · have hu : entry.uuid7 = x.uuid7 := by
        rcases hxe with rfl | rfl | ⟨-, rfl⟩ <;> rfl
      rw [hu]
      exact h.pending x hx
    · exact tracks_ne_of_atEntry hf htracks
  · intro point hmem
    rcases Frame.mem_held_step s.shared a hmem with hmem | hhold
    · exact h.held point hmem
    · exact hold_of_atEntry hf hhold
  · intro g hg
    rcases mem_frames_after_run hi hg with hg | hg
    · exact atEntry_new hf hrun h.pending h.held hg
    · exact h.tasks g hg

theorem NotEntered.world
    {s : EnginePool} {ev : WorldEvent}
    (h : NotEntered uuid7 s) :
    NotEntered uuid7
      { shared := ev.effect s.shared, threads := s.threads ++ ev.starts } := by
  constructor
  · cases ev <;> exact h.pending
  · cases ev <;> exact h.held
  · intro g hg
    rcases mem_frames_after_world (r := (ev.effect s.shared, ev.starts)) hg with
      hg | hg
    · exact h.tasks g hg
    · cases opens_of_mem hg <;> first | trivial | exact id

end Entry

section Ownership

variable {uuid7 : String} {e : Engine} {a : Answer}

/-- A terminal write leaves no row queued. -/
theorem status_write_ne_queued
    (ending : Ending) (result : PipelineResult) (now : Nat) (r : Row) :
    (r.writeTerminalOutcome ending.outcome result now).pipelineStatus ≠
      .queued := by
  unfold Row.writeTerminalOutcome
  split
  · rename_i h
    simp [h.2]
  · cases ending <;> simp [Ending.outcome, PipelineOutcome.status]

/-- No statement queues a row again. -/
theorem status_update_ne_queued
    {f : Frame} {now : Nat} {g : Row → Row} {r : Row}
    (hg : f.rowUpdate now = some (uuid7, g))
    (hstatus : r.pipelineStatus ≠ .queued) :
    (g r).pipelineStatus ≠ .queued := by
  cases f with
  | ingest f =>
      cases f <;> simp only [Frame.rowUpdate, Option.some.injEq, Prod.mk.injEq,
        reduceCtorEq] at hg
      all_goals
        obtain ⟨-, rfl⟩ := hg
        exact hstatus
  | terminal f =>
      cases f <;> simp only [Frame.rowUpdate, Option.some.injEq, Prod.mk.injEq,
        reduceCtorEq] at hg
      · obtain ⟨-, rfl⟩ := hg
        simpa [Row.writeTerminalOutcome, PipelineOutcome.status] using hstatus
      · obtain ⟨-, rfl⟩ := hg
        exact status_write_ne_queued _ _ _ _
  | audit f => exact status_audit_ne_queued hg hstatus
  | _ => simp [Frame.rowUpdate] at hg

/-- A row stays, and keeps what every statement about it keeps. -/
theorem row_step_some
    {done : Row → Prop} {f : Frame} {r : Row}
    (hdone : ∀ g, f.rowUpdate e.now = some (uuid7, g) → done r → done (g r))
    (hr : e.timeline.row? uuid7 = some r) :
    ∃ r', (f.step e a).shared.timeline.row? uuid7 = some r' ∧
      (done r → done r') := by
  rcases f.step_row e a uuid7 with hrow | ⟨_, _, _, hnone, _⟩ | ⟨_, g, hg, hrow⟩
  · exact ⟨r, hrow.trans hr, id⟩
  · simp [hr] at hnone
  · exact ⟨g r, by rw [hrow, hr]; rfl, hdone g hg⟩

variable {s : EnginePool} {i : Nat} {f : Frame} {rest : List Frame}

/-- The ingest of the message fails between its row and its state. -/
def IngestFails (uuid7 : String) (a : Answer) : Frame → Prop
  | .ingest (.setCommand msg _) => msg.uuid7 = uuid7 ∧ a.dbOk = false
  | .ingest (.setUserUuid msg) => msg.uuid7 = uuid7 ∧ a.dbOk = false
  | _ => False

theorem keeps_claims {f : Frame} (h : Keeps uuid7 f) :
    Claims uuid7 f := by
  cases f with
  | terminal f =>
      cases f with
      | write => exact h.1
      | _ => exact h
  | _ => exact h

/-- The owner of a message passes it on to the next one, unless it is an ingest
that fails. -/
theorem Owned.run
    {done : Row → Prop}
    (h : Owned uuid7 done s)
    (hdone : ∀ g r, f.rowUpdate s.shared.now = some (uuid7, g) →
      done r → done (g r))
    (hwrite : ∀ ending result r,
      f = .terminal (.write uuid7 ending result) →
      result.processedMessage.isSome = true →
      s.shared.timeline.row? uuid7 = some r →
      a.dbOk = true ∧
        done (r.writeTerminalOutcome ending.outcome result s.shared.now))
    (hi : s.threads[i]? = some (f :: rest)) :
    Owned uuid7 done (afterRun s i a f rest) ∨ IngestFails uuid7 a f := by
  obtain ⟨r, hr, howner⟩ := h
  obtain ⟨r', hr', hkeep⟩ :=
    row_step_some (a := a) (f := f) (fun g => hdone g r) hr
  have hnext {g : Frame} {fs : List Frame}
      (hfs : (f.step s.shared a).next = some (g :: fs))
      (hg : Keeps uuid7 g) :
      Owned uuid7 done (afterRun s i a f rest) :=
    ⟨r', hr', Or.inr (Or.inl (atTop_of_next hi hfs hg))⟩
  have hinstalled
      (hstate : (f.step s.shared a).shared.pipelineStates uuid7 ≠ none) :
      Owned uuid7 done (afterRun s i a f rest) :=
    ⟨r', hr', Or.inl hstate⟩
  have hafter {msg : PipelineMessage} (hmsg : msg.uuid7 = uuid7)
      (hfs : (f.step s.shared a).next = some (IngestFrame.afterCommand msg)) :
      Owned uuid7 done (afterRun s i a f rest) := by
    unfold IngestFrame.afterCommand at hfs
    split at hfs
    · exact hnext hfs hmsg
    · exact hnext hfs hmsg
  rcases howner with hstate | hkeeps | hrow
  · by_cases htake : ∃ ending, f = .terminal (.take uuid7 ending)
    · -- the state moves to the frame that writes the outcome
      obtain ⟨ending, rfl⟩ := htake
      obtain ⟨state, hstate⟩ := Option.ne_none_iff_exists'.mp hstate
      refine Or.inl (hnext
        (?_ : _ = some [Frame.terminal (.write uuid7 ending state.result)])
        ⟨rfl, rfl⟩)
      simp [Frame.step, TerminalFrame.step, hstate, go]
    · exact Or.inl (hinstalled (state_step_some hstate (by simpa using htake)))
  · by_cases hf : Keeps uuid7 f
    · cases f with
      | ingest f =>
          cases f with
          | insertEvent msg => exact hf.elim
          | setCommand msg command =>
              cases hdb : a.dbOk with
              | true =>
                  refine Or.inl (hafter hf ?_)
                  simp [Frame.step, IngestFrame.step, hdb, go]
              | false => exact Or.inr ⟨hf, hdb⟩
          | setUserUuid msg =>
              cases hdb : a.dbOk with
              | true =>
                  refine Or.inl (hnext
                    (?_ : _ = some [Frame.ingest (.insertState msg)]) hf)
                  simp [Frame.step, IngestFrame.step, hdb, go]
              | false => exact Or.inr ⟨hf, hdb⟩
          | insertState msg =>
              obtain rfl : msg.uuid7 = uuid7 := hf
              refine Or.inl (hinstalled ?_)
              simp [Frame.step, IngestFrame.step, Engine.putState]
      | recovery f =>
          cases f with
          | insertState v msg =>
              obtain rfl : v = uuid7 := hf
              refine Or.inl (hinstalled ?_)
              simp [Frame.step, RecoveryFrame.step, Engine.putState]
          | _ => exact hf.elim
      | terminal f =>
          cases f with
          | write v ending result =>
              obtain ⟨rfl, htext⟩ := hf
              obtain ⟨hdb, hlands⟩ := hwrite ending result r rfl htext hr
              refine Or.inl ⟨_, ?_, Or.inr (Or.inr hlands)⟩
              simp [Frame.step, TerminalFrame.step, hdb,
                Timeline.writeTerminalOutcome, hr]
          | _ => exact hf.elim
      | _ => exact hf.elim
    · exact Or.inl ⟨r', hr', Or.inr (Or.inl (hkeeps.run hi hf))⟩
  · exact Or.inl ⟨r', hr', Or.inr (Or.inr (hkeep hrow))⟩

/-- An ingest that fails takes the fanout it was leading to with it. -/
theorem ahead_of_ingestFails
    (h : IngestFails uuid7 a f)
    (hi : s.threads[i]? = some (f :: rest)) :
    ¬ RunsFanout uuid7 f ∧
      ahead uuid7 (afterRun s i a f rest) + 1 ≤ ahead uuid7 s := by
  have hlost
      (hrun : ¬ RunsFanout uuid7 f)
      (hahead : fanoutsAhead uuid7 f = 1)
      (hstep : f.step s.shared a = fail s.shared) :
      ¬ RunsFanout uuid7 f ∧
        ahead uuid7 (afterRun s i a f rest) + 1 ≤ ahead uuid7 s := by
    have htotal := total_fire_run_le (P := engine) (fanoutsAhead uuid7)
      (o := f.step s.shared a) hi
    simp only [hstep, hahead, new_fail, List.map_nil, List.sum_nil,
      shared_fail] at htotal
    refine ⟨hrun, ?_⟩
    simp only [ahead, afterRun, hstep, shared_fail]
    omega
  cases f with
  | ingest f =>
      cases f with
      | setCommand msg command =>
          refine hlost id (if_pos h.1) ?_
          simp [Frame.step, IngestFrame.step, h.2]
      | setUserUuid msg =>
          refine hlost id (if_pos h.1) ?_
          simp [Frame.step, IngestFrame.step, h.2]
      | _ => exact h.elim
  | _ => exact h.elim

/-- A step that claims a message makes somebody own it. -/
theorem owned_of_takesUp
    (done : Row → Prop)
    (htakes : TakesUp uuid7 s.shared a f)
    (hi : s.threads[i]? = some (f :: rest)) :
    Owned uuid7 done (afterRun s i a f rest) := by
  cases f with
  | ingest f =>
      cases f with
      | insertEvent msg =>
          obtain ⟨rfl, hdb, hnone⟩ := htakes
          obtain ⟨timeline, hins⟩ : ∃ timeline,
              s.shared.timeline.insertEvent msg.uuid7 (IngestFrame.row msg) =
                some timeline := by
            simp [Timeline.insertEvent, hnone]
          have hrow := Timeline.row?_insertEvent hins msg.uuid7
          rw [if_pos rfl] at hrow
          refine ⟨IngestFrame.row msg, ?_, Or.inr (Or.inl ?_)⟩
          · cases hc : msg.command <;>
              simpa [Frame.step, IngestFrame.step, hdb, hins, hc] using hrow
          · cases hc : msg.command with
            | some command =>
                refine atTop_of_next hi
                  (?_ : _ = some [Frame.ingest (.setCommand msg command)]) rfl
                simp [Frame.step, IngestFrame.step, hdb, hins, hc, go]
            | none =>
                by_cases huser : msg.userUuid7 = ""
                · refine atTop_of_next hi
                    (?_ : _ = some [Frame.ingest (.insertState msg)]) rfl
                  simp [Frame.step, IngestFrame.step, IngestFrame.afterCommand,
                    hdb, hins, hc, huser, go]
                · refine atTop_of_next hi
                    (?_ : _ = some [Frame.ingest (.setUserUuid msg)]) rfl
                  simp [Frame.step, IngestFrame.step, IngestFrame.afterCommand,
                    hdb, hins, hc, huser, go]
      | _ => exact htakes.elim
  | recovery f =>
      cases f with
      | load v =>
          obtain ⟨rfl, hdb, hload⟩ := htakes
          obtain ⟨msg, hmsg⟩ := Option.isSome_iff_exists.mp hload
          obtain ⟨r, hr, -⟩ := Option.bind_eq_some_iff.mp hmsg
          refine ⟨r, ?_, Or.inr (Or.inl (atTop_of_next hi
            (?_ : _ = some [Frame.recovery (.insertState v msg)]) rfl))⟩
          · simpa [Frame.step, RecoveryFrame.step, hdb, hmsg] using hr
          · simp [Frame.step, RecoveryFrame.step, hdb, hmsg, go]
      | _ => exact htakes.elim
  | _ => exact htakes.elim

/-- A step that claims a message finds it owned by nobody. -/
theorem not_owned_of_takesUp
    (hok : RecoversUnclaimed uuid7 s a f)
    (htakes : TakesUp uuid7 s.shared a f) :
    ¬ Owned uuid7 Row.Dequeued s := by
  rintro ⟨r, hr, howner⟩
  cases f with
  | ingest f =>
      cases f with
      | insertEvent msg =>
          have hnone := htakes.2.2
          simp [hr] at hnone
      | _ => exact htakes
  | recovery f =>
      cases f with
      | load v =>
          obtain ⟨hv, hdb, hload⟩ := htakes
          obtain ⟨hstate, hclaims⟩ := hok hv hdb hload
          rcases howner with h | h | h
          · exact h hstate
          · obtain ⟨t, ht, g, hg, hkeeps⟩ := h
            exact hclaims ⟨t, ht, g, hg, keeps_claims hkeeps⟩
          · have hstatus : r.pipelineStatus ≠ .queued := h
            simp [Timeline.loadQueuedMessage, hr, hstatus] at hload
      | _ => exact htakes
  | _ => exact htakes

end Ownership

section Invariant

variable {uuid7 : String} {s : EnginePool} {tr : List (Nat × Frame)}

theorem fanoutsRun_cons (i : Nat) (f : Frame) :
    fanoutsRun uuid7 ((i, f) :: tr) =
      fanoutsRun uuid7 tr + if RunsFanout uuid7 f then 1 else 0 := by
  simp [fanoutsRun, List.countP_cons]

theorem SinglyClaimed.run
    {i : Nat} {a : Answer} {f : Frame} {rest : List Frame}
    (h : SinglyClaimed uuid7 tr s)
    (hok : RecoversUnclaimed uuid7 s a f)
    (hi : s.threads[i]? = some (f :: rest))
    (hwait : (afterRun s i a f rest).Waiting Frame.IsLoop) :
    SinglyClaimed uuid7 ((i, f) :: tr) (afterRun s i a f rest) := by
  have hf := mem_frames_of_getElem? hi (List.mem_cons_self ..)
  have hbudget : ahead uuid7 (afterRun s i a f rest) +
        (if RunsFanout uuid7 f then 1 else 0) ≤
      ahead uuid7 s + if TakesUp uuid7 s.shared a f then 1 else 0 := by
    have htotal := total_fire_run_le (P := engine) (fanoutsAhead uuid7)
      (o := f.step s.shared a) hi
    have hstep := fanouts_budget uuid7 s.shared a f
    simp only [ahead, afterRun]
    omega
  have hrun : fanoutsRun uuid7 ((i, f) :: tr) = _ := fanoutsRun_cons i f
  have hnobody (htakes : TakesUp uuid7 s.shared a f) :
      ahead uuid7 s + fanoutsRun uuid7 tr = 0 := by
    by_contra hpos
    exact not_owned_of_takesUp hok htakes (h.owned (by omega))
  have honce := h.once
  have hfirst (hfan : RunsFanout uuid7 f) : fanoutsRun uuid7 tr = 0 := by
    have hahead : fanoutsAhead uuid7 f = 1 := by
      cases f with
      | broadcast f =>
          cases f with
          | config v state => exact if_pos hfan
          | _ => exact hfan.elim
      | _ => exact hfan.elim
    have hle := le_total (fanoutsAhead uuid7) hf
    simp only [ahead] at honce
    omega
  refine ⟨hwait, ?_, fun hzero => ?_, fun hpos => ?_, ?_⟩
  · rw [hrun]
    by_cases htakes : TakesUp uuid7 s.shared a f
    · have := hnobody htakes
      simp only [htakes, if_true] at hbudget
      omega
    · simp only [htakes, if_false] at hbudget
      omega
  · rw [hrun] at hzero
    have hnorun : ¬ RunsFanout uuid7 f := by
      intro hfan
      simp [hfan] at hzero
    obtain ⟨hbefore, hnoterminal⟩ := h.before (by omega)
    refine ⟨hbefore.run hi hnorun, fun x hx => ?_⟩
    rcases List.mem_cons.mp hx with rfl | hx
    · have hentry := hbefore.tasks f hf
      cases f with
      | terminal f =>
          cases f with
          | check v ending => exact hentry
          | _ => exact id
      | _ => exact id
    · exact hnoterminal x hx
  · rw [hrun] at hpos
    by_cases htakes : TakesUp uuid7 s.shared a f
    · exact owned_of_takesUp _ htakes hi
    · simp only [htakes, if_false] at hbudget
      have hwrite ending result r
          (hwrites : f = .terminal (.write uuid7 ending result))
          (_ : result.processedMessage.isSome = true)
          (_ : s.shared.timeline.row? uuid7 = some r) :
          a.dbOk = true ∧ Row.Dequeued
            (r.writeTerminalOutcome ending.outcome result s.shared.now) := by
        subst hwrites
        exact ⟨hok rfl, status_write_ne_queued _ _ _ _⟩
      rcases (h.owned (by omega)).run (fun g r hg => status_update_ne_queued hg)
        hwrite hi with howned | hfails
      · exact howned
      · obtain ⟨hnorun, hlost⟩ := ahead_of_ingestFails hfails hi
        simp only [hnorun, if_false] at hpos
        omega
  · refine List.pairwise_cons.mpr ⟨fun x hx hfan => ⟨?_, ?_⟩, h.ordered⟩
    · have hnone := List.countP_eq_zero.mp (hfirst hfan) x hx
      simpa using hnone
    · exact (h.before (hfirst hfan)).2 x hx

theorem SinglyClaimed.fire
    {s' : EnginePool} {l : EngineLabel}
    (h : SinglyClaimed uuid7 tr s)
    (hok : OnRun (RecoversUnclaimed uuid7) s l)
    (hfire : engine.fire s l = some s') :
    SinglyClaimed uuid7 (s.ran l ++ tr) s' := by
  have hwait := h.waiting.fire engine_leavesWaiting hfire
  cases l with
  | world ev =>
      obtain ⟨r, hr, rfl⟩ := fire_world_cases hfire
      obtain rfl := engine_event_eq hr
      have hsum : (ev.starts.flatten.map (fanoutsAhead uuid7)).sum = 0 := by
        refine List.sum_eq_zero fun n hn => ?_
        obtain ⟨g, hg, rfl⟩ := List.mem_map.mp hn
        cases opens_of_mem hg <;> rfl
      have hheld : (ev.effect s.shared).pauseState = s.shared.pauseState := by
        cases ev <;> rfl
      have hahead : ahead uuid7
          { shared := ev.effect s.shared, threads := s.threads ++ ev.starts } =
            ahead uuid7 s := by
        simp only [ahead, hheld]
        rw [total_fire_world (r := (ev.effect s.shared, ev.starts)), hsum,
          Nat.add_zero]
      refine ⟨hwait, ?_, fun hzero => ?_, fun hpos => ?_, h.ordered⟩
      · exact (congrArg (· + fanoutsRun uuid7 tr) hahead).trans_le h.once
      · exact ⟨(h.before hzero).1.world, (h.before hzero).2⟩
      · obtain ⟨row, hrow, howner⟩ :=
          h.owned (by simpa [Pool.ran, hahead] using hpos)
        refine ⟨row, by cases ev <;> exact hrow, ?_⟩
        rcases howner with hstate | hclaims | hqueued
        · exact Or.inl (by cases ev <;> exact hstate)
        · exact Or.inr (Or.inl
            (Pool.AtTop.world (r := (ev.effect s.shared, ev.starts)) hclaims))
        · exact Or.inr (Or.inr hqueued)
  | run i a =>
      obtain ⟨f, rest, o, hi, ho, rfl⟩ := fire_run_cases hfire
      obtain rfl := engine_step_eq ho
      rw [ran_of_getElem? a hi]
      exact h.run (hok.top hi) hi hwait

end Invariant

/-- **Main theorem.**  In a run from boot whose recovery reads the queued row of
the message only while nobody owns it, and whose terminal writes of it succeed,
the pre-process fanout of the message is run at most once, and never after a
terminal path of it has begun. -/
theorem fanout_once
    (uuid7 : String)
    (e : Engine)
    (hpending : e.ackTracker = .new)
    (hheld : e.pauseState.held = [])
    {tr : List (Nat × Frame)} {s : EnginePool}
    (hs : Traced engine (OnRun (RecoversUnclaimed uuid7)) (boot e) tr s) :
    FanoutOnce uuid7 tr := by
  have hsingle : SinglyClaimed uuid7 tr s := by
    refine hs.invariant ?_ SinglyClaimed.fire
    have hahead : ahead uuid7 (boot e) + fanoutsRun uuid7 [] = 0 := by
      simp [ahead, boot, Pool.total, Pool.frames, hheld, entryHolds, fanoutsRun]
    refine ⟨boot_waiting e, by omega, fun _ => ⟨⟨?_, ?_, ?_⟩, by simp⟩,
      by omega, List.Pairwise.nil⟩
    · simp [boot, hpending, AckTracker.new]
    · simp [boot, hheld]
    · simp [boot, Pool.frames]
  exact hsingle.ordered

/-- An earlier process left the message's row queued; the drain recovers it. -/
def drainedAfterCrash : List EngineLabel :=
  .world .recover :: List.replicate 8 (.run 0 {})

/-- The row an earlier process left behind. -/
def strandedAtBoot : Engine :=
  { timeline :=
      { rows := [("m", IngestFrame.row { uuid7 := "m", rawMessage := "hi" })] } }

theorem fanout_once_drainedAfterCrash :
    ∃ s, engine.exec (boot strandedAtBoot) drainedAfterCrash = some s ∧
      fanoutsRun "m" (engine.history (boot strandedAtBoot) [] drainedAfterCrash) =
        1 ∧
      FanoutOnce "m"
        (engine.history (boot strandedAtBoot) [] drainedAfterCrash) := by
  obtain ⟨s, hrun⟩ := Option.isSome_iff_exists.mp
    (by decide +kernel :
      (engine.exec (boot strandedAtBoot) drainedAfterCrash).isSome = true)
  refine ⟨s, hrun, ?_, fanout_once "m" strandedAtBoot rfl rfl
    (traced_of_allSteps drainedAfterCrash .start ?_ hrun)⟩
  · decide +kernel
  · decide +kernel

/-- The drain reads the row after the live path has inserted it and before the
live path has installed the state. -/
def drainedDuringIngest : List EngineLabel :=
  [.world (.ingest { uuid7 := "m", rawMessage := "hi" }), .run 0 {},
   .world .recover] ++ List.replicate 8 (.run 1 {}) ++
    List.replicate 4 (.run 0 {})

/-- The drain and the live path both run the fanout of the message. -/
theorem fanout_doubled_by_drain :
    ¬ ∀ (uuid7 : String) (e : Engine) (tr : List (Nat × Frame)) (s : EnginePool),
      e.ackTracker = .new →
      e.pauseState.held = [] →
      Traced engine (fun _ _ => True) (boot e) tr s →
      FanoutOnce uuid7 tr := by
  intro h
  have hstart : Traced engine (fun _ _ => True) (boot {}) [] (boot {}) := .start
  obtain ⟨s, hrun⟩ := Option.isSome_iff_exists.mp
    (by decide +kernel : (engine.exec (boot {}) drainedDuringIngest).isSome = true)
  have htraced :=
    traced_of_allSteps drainedDuringIngest hstart (by decide +kernel) hrun
  have honce := h "m" {} _ s rfl rfl htraced
  exact absurd honce (by decide +kernel)

end CockatielEngine
