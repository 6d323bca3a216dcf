import CockatielEngine.Pipeline.AuditHold

/-!
# Pipeline: a held message is not shown

The audit hold lives on the row, the dispatches are made from memory.  Only the
in-process and post-process starters read the row, and only before they send:
the pre-process fanout, a fanout in progress and the re-send of a stage do not.

**Main result.**  When every flag lands while no task of the message stands
between its check and its last send, and no sweep drains an unreceipted entry
of a held message while it has re-sends left, no held message is sent.
-/

namespace CockatielEngine

open TaskPool

/-- The event is a stage message of `uuid7` going out to a module. -/
def Event.isSendOf (uuid7 : String) : Event → Bool
  | .sent v _ _ _ => v = uuid7
  | .resent v _ _ _ => v = uuid7
  | _ => false

/-- The stage messages of `uuid7` that went out, newest first. -/
def shown (uuid7 : String) (e : Engine) : List Event :=
  e.log.filter (Event.isSendOf uuid7)

/-- A drained entry of the message is going to be re-sent. -/
def OwesResend (uuid7 : String) (sw : Sweep) : Prop :=
  ∃ x ∈ sw.todo, x.1.uuid7 = uuid7 ∧ SweepFrame.wantsResend x.1 = true

/-- A task of the message that goes on to send without asking for the hold. -/
def MaySend (uuid7 : String) : Frame → Prop
  | .ingest (.setCommand msg _) => msg.uuid7 = uuid7
  | .ingest (.setUserUuid msg) => msg.uuid7 = uuid7
  | .ingest (.insertState msg) => msg.uuid7 = uuid7
  | .recovery (.insertState v _) => v = uuid7
  | .broadcast (.enter v) => v = uuid7
  | .broadcast (.load v) => v = uuid7
  | .broadcast (.config v _) => v = uuid7
  | .fanout (.send fo todo) => fo.uuid7 = uuid7 ∧ todo ≠ []
  | .fanout (.track fo _ todo) => fo.uuid7 = uuid7 ∧ todo ≠ []
  | .inProcess (.load v) => v = uuid7
  | .inProcess (.config v _) => v = uuid7
  | .inProcess (.send v _ _ _ _) => v = uuid7
  | .postProcess (.load v) => v = uuid7
  | .postProcess (.config v _) => v = uuid7
  | .sweep (.next sw) => OwesResend uuid7 sw
  | .sweep (.resendLoad sw entry _) => entry.uuid7 = uuid7 ∨ OwesResend uuid7 sw
  | .sweep (.resendSend sw entry _ _) =>
      entry.uuid7 = uuid7 ∨ OwesResend uuid7 sw
  | .sweep (.resendTrack sw _) => OwesResend uuid7 sw
  | .resume (.spawnReplay held) => (uuid7, .entry) ∈ held
  | .resume (.replayNext held) => (uuid7, .entry) ∈ held
  | _ => False

/-- Nothing in memory sends the message without asking for the hold. -/
def Quiescent (uuid7 : String) (s : EnginePool) : Prop :=
  (∀ f ∈ s.frames, ¬ MaySend uuid7 f) ∧
    (uuid7, .entry) ∉ s.shared.pauseState.held

/-- A flag that commits finds the message quiescent, and a sweep that drains
finds no unreceipted entry of the held message with re-sends left. -/
def HoldsQuietly (uuid7 : String) (s : EnginePool) (a : Answer) : Frame → Prop
  | .audit (.mark v _) => v = uuid7 → a.dbOk = true → Quiescent uuid7 s
  | .sweep (.drain _) =>
      s.shared.timeline.isAudited uuid7 = true →
        ∀ entry ∈ s.shared.ackTracker.pending,
          entry.uuid7 = uuid7 →
          entry.expired s.shared.now = true →
          SweepFrame.wantsResend entry = false
  | _ => True

instance (uuid7 : String) (sw : Sweep) : Decidable (OwesResend uuid7 sw) :=
  inferInstanceAs (Decidable (∃ x ∈ sw.todo, _ ∧ _))

instance (uuid7 : String) : DecidablePred (MaySend uuid7) := fun f =>
  match f with
  | .ingest (.setCommand _ _) | .ingest (.setUserUuid _) | .ingest (.insertState _)
  | .recovery (.insertState _ _) | .broadcast (.enter _) | .broadcast (.load _)
  | .broadcast (.config _ _) | .inProcess (.load _) | .inProcess (.config _ _)
  | .inProcess (.send _ _ _ _ _) | .postProcess (.load _)
  | .postProcess (.config _ _) => inferInstanceAs (Decidable (_ = uuid7))
  | .fanout (.send _ _) => inferInstanceAs (Decidable (_ ∧ _ ≠ _))
  | .fanout (.track _ _ _) => inferInstanceAs (Decidable (_ ∧ _ ≠ _))
  | .sweep (.next sw) => inferInstanceAs (Decidable (OwesResend uuid7 sw))
  | .sweep (.resendLoad sw _ _) =>
      inferInstanceAs (Decidable (_ ∨ OwesResend uuid7 sw))
  | .sweep (.resendSend sw _ _ _) =>
      inferInstanceAs (Decidable (_ ∨ OwesResend uuid7 sw))
  | .sweep (.resendTrack sw _) => inferInstanceAs (Decidable (OwesResend uuid7 sw))
  | .resume (.spawnReplay held) => inferInstanceAs (Decidable (_ ∈ held))
  | .resume (.replayNext held) => inferInstanceAs (Decidable (_ ∈ held))
  | .ingest (.insertEvent _) | .recovery (.check _) | .recovery (.load _)
  | .recovery .drainQueued | .recovery (.drainNext _) | .inProcess (.enter _)
  | .inProcess (.audit _) | .inProcess (.track _ _ _) | .inProcess (.skip _ _)
  | .postProcess (.enter _) | .postProcess (.audit _) | .terminal _ | .reply _
  | .advance _ | .sweep .start | .sweep .config | .sweep (.drain _) | .gate _
  | .resume .restartClocks | .audit _ => instDecidableFalse

instance (uuid7 : String) (s : EnginePool) : Decidable (Quiescent uuid7 s) :=
  inferInstanceAs (Decidable ((∀ f ∈ s.frames, _) ∧ ¬ _ ∈ s.shared.pauseState.held))

instance (uuid7 : String) (s : EnginePool) (a : Answer) (f : Frame) :
    Decidable (HoldsQuietly uuid7 s a f) :=
  match f with
  | .audit (.mark _ _) =>
      inferInstanceAs (Decidable (_ → _ → Quiescent uuid7 s))
  | .sweep (.drain _) =>
      inferInstanceAs (Decidable (_ → ∀ entry ∈ s.shared.ackTracker.pending, _))
  | .audit (.flag _ _) | .audit (.release _ _) | .ingest _ | .recovery _ | .broadcast _
  | .fanout _ | .inProcess _ | .postProcess _ | .terminal _ | .reply _ | .advance _
  | .sweep .start | .sweep .config | .sweep (.next _) | .sweep (.resendLoad _ _ _)
  | .sweep (.resendSend _ _ _ _) | .sweep (.resendTrack _ _) | .gate _
  | .resume _ => instDecidableTrue

section Steps

variable {uuid7 : String} {e : Engine} {a : Answer}

/-- A step of a frame that cannot send the message does not show it. -/
theorem shown_step {f : Frame} (hf : ¬ MaySend uuid7 f) :
    shown uuid7 (f.step e a).shared = shown uuid7 e := by
  obtain ⟨evs, hlog, hevs⟩ := f.records e a
  have hnone : evs.filter (Event.isSendOf uuid7) = [] := by
    refine List.filter_eq_nil_iff.mpr fun ev hev => ?_
    cases hevs ev hev <;> simp_all [Event.isSendOf, MaySend]
  rw [shown, hlog, List.filter_append, hnone, shown, List.nil_append]

theorem Expires.not_maySend
    {sw : Sweep} {entry : PendingAck} {still : Bool} {g : Frame}
    (hsw : ¬ OwesResend uuid7 sw)
    (h : Expires sw entry still g) :
    ¬ MaySend uuid7 g := by
  cases h with
  | advance _ _ => cases entry.stage <;> exact id
  | fail _ _ => exact id
  | _ => exact hsw

/-- A sweep that moves on owes no re-send it did not owe before. -/
theorem not_owesResend_todo
    {sw : Sweep} {x : PendingAck × Bool} {todo : List (PendingAck × Bool)}
    (htodo : sw.todo = x :: todo)
    (h : ¬ OwesResend uuid7 sw) :
    ¬ OwesResend uuid7 { sw with todo := todo } := by
  rintro ⟨y, hy, hyu⟩
  exact h ⟨y, by rw [htodo]; exact List.mem_cons_of_mem _ hy, hyu⟩

/-- While the message is held and nothing can send it, no step leads to a frame
that can. -/
theorem not_maySend_new
    {f g : Frame}
    (haudit : e.timeline.isAudited uuid7 = true)
    (hf : ¬ MaySend uuid7 f)
    (hheld : (uuid7, .entry) ∉ e.pauseState.held)
    (hdrain : ∀ cfg, f = .sweep (.drain cfg) →
      ∀ entry ∈ e.ackTracker.pending,
        entry.uuid7 = uuid7 →
        entry.expired e.now = true →
        SweepFrame.wantsResend entry = false)
    (hg : g ∈ (f.step e a).new) :
    ¬ MaySend uuid7 g := by
  obtain ⟨r, hr, hstatus⟩ := (Timeline.isAudited_iff _ _).mp haudit
  intro hsend
  cases Frame.leads hg with
  | insertEvent_setCommand hrow => simp [show _ = uuid7 from hsend, hr] at hrow
  | insertEvent_setUserUuid hrow => simp [show _ = uuid7 from hsend, hr] at hrow
  | insertEvent_insertState hrow => simp [show _ = uuid7 from hsend, hr] at hrow
  | recover_insertState hload =>
      obtain rfl : _ = uuid7 := hsend
      simp [Timeline.loadQueuedMessage, hr, hstatus] at hload
  | inProcess_load hfree =>
      obtain rfl : _ = uuid7 := hsend
      simp [haudit] at hfree
  | postProcess_load hfree =>
      obtain rfl : _ = uuid7 := hsend
      simp [haudit] at hfree
  | @fanout_nobody fo _ =>
      revert hsend
      cases fo.stage <;> exact id
  | broadcast_fanout => exact hf hsend.1
  | postProcess_fanout => exact hf hsend.1
  | fanout_track => exact hf ⟨hsend.1, by simp⟩
  | fanout_skip => exact hf ⟨hsend.1, by simp⟩
  | sweep_first htodo =>
      obtain ⟨⟨entry, still⟩, hmem, hu, hwants⟩ := hsend
      rw [htodo, SweepFrame.mem_drained_iff, AckTracker.mem_checkTimeouts_iff] at hmem
      simp [hdrain _ rfl entry hmem.1 hu hmem.2.1] at hwants
  | sweep_resendLoad htodo hwants =>
      rcases hsend with hu | howes
      · exact hf ⟨_, by rw [htodo]; exact List.mem_cons_self .., hu, hwants⟩
      · exact not_owesResend_todo htodo hf howes
  | sweep_expire htodo _ hexp =>
      exact hexp.not_maySend (not_owesResend_todo htodo hf) hsend
  | sweep_gone _ hexp => exact hexp.not_maySend (fun h => hf (Or.inr h)) hsend
  | sweep_unsent _ hexp => exact hexp.not_maySend (fun h => hf (Or.inr h)) hsend
  | sweep_resendTrack => exact hf (Or.inr hsend)
  | resume_spawnReplay => exact hheld hsend
  | @replay_hold v point held =>
      cases point with
      | entry =>
          obtain rfl : v = uuid7 := hsend
          exact hf (List.mem_cons_self ..)
      | _ => exact hsend
  | replay_next => exact hf (List.mem_cons_of_mem _ hsend)
  | _ => first | exact hf hsend | exact hsend

/-- A step of a frame that cannot send the message does not hold it at the
entry gate either. -/
theorem not_heldEntry_step
    {f : Frame}
    (hf : ¬ MaySend uuid7 f)
    (hheld : (uuid7, .entry) ∉ e.pauseState.held) :
    (uuid7, .entry) ∉ (f.step e a).shared.pauseState.held := by
  intro hmem
  rcases Frame.mem_held_step e a hmem with hmem | hhold
  · exact hheld hmem
  · cases f with
    | broadcast f => cases f <;> simp_all [Frame.hold, MaySend]
    | inProcess f => cases f <;> simp [Frame.hold] at hhold
    | postProcess f => cases f <;> simp [Frame.hold] at hhold
    | _ => simp [Frame.hold] at hhold

end Steps

/-- While the message is held nothing in memory can send it. -/
def HeldQuiescent (uuid7 : String) (s : EnginePool) : Prop :=
  s.shared.timeline.isAudited uuid7 = true → Quiescent uuid7 s

theorem HeldQuiescent.fire
    {uuid7 : String} {s s' : EnginePool} {l : EngineLabel}
    (h : HeldQuiescent uuid7 s)
    (hok : OnRun (HoldsQuietly uuid7) s l)
    (hfire : engine.fire s l = some s') :
    HeldQuiescent uuid7 s' := by
  cases l with
  | world ev =>
      obtain ⟨r, hr, rfl⟩ := fire_world_cases hfire
      obtain rfl := engine_event_eq hr
      intro haudit
      have haudit' : s.shared.timeline.isAudited uuid7 = true := by
        cases ev <;> exact haudit
      obtain ⟨hframes, hheld⟩ := h haudit'
      refine ⟨fun f hf => ?_, by cases ev <;> exact hheld⟩
      rcases mem_frames_after_world hf with hf | hf
      · exact hframes f hf
      · cases opens_of_mem hf <;> exact id
  | run i a =>
      obtain ⟨f, rest, o, hi, ho, rfl⟩ := fire_run_cases hfire
      obtain rfl := engine_step_eq ho
      intro haudit
      have hmem := mem_frames_of_getElem? hi (List.mem_cons_self ..)
      rcases isAudited_of_step haudit with haudit' | ⟨reason, rfl, hdb⟩
      · obtain ⟨hframes, hheld⟩ := h haudit'
        refine ⟨fun g hg => ?_, not_heldEntry_step (hframes f hmem) hheld⟩
        rcases mem_frames_after_run hi hg with hg | hg
        · refine not_maySend_new haudit' (hframes f hmem) hheld ?_ hg
          rintro cfg rfl
          exact hok.top hi haudit'
        · exact hframes g hg
      · obtain ⟨hframes, hheld⟩ := hok.top hi rfl hdb
        refine ⟨fun g hg => ?_, not_heldEntry_step (hframes _ hmem) hheld⟩
        rcases mem_frames_after_run hi hg with hg | hg
        · simp [Frame.step, AuditFrame.step, hdb] at hg
        · exact hframes g hg

/-- **Main theorem.**  In a run that holds quietly, no step sends a stage
message of a message that is held. -/
theorem held_not_shown
    (uuid7 : String)
    (e : Engine)
    (hboot : e.pauseState.held = [])
    {s s' : EnginePool} {l : EngineLabel}
    (hs : Reachable engine (OnRun (HoldsQuietly uuid7)) (boot e) s)
    (hfire : engine.fire s l = some s')
    (haudit : s.shared.timeline.isAudited uuid7 = true) :
    shown uuid7 s'.shared = shown uuid7 s.shared := by
  have hquiet : HeldQuiescent uuid7 s := by
    refine hs.invariant (fun _ => ⟨fun f hf => ?_, ?_⟩) HeldQuiescent.fire
    · simp [boot, Pool.frames] at hf
    · simp [boot, hboot]
  cases l with
  | world ev =>
      obtain ⟨r, hr, rfl⟩ := fire_world_cases hfire
      obtain rfl := engine_event_eq hr
      cases ev <;> rfl
  | run i a =>
      obtain ⟨f, rest, o, hi, ho, rfl⟩ := fire_run_cases hfire
      obtain rfl := engine_step_eq ho
      exact shown_step
        ((hquiet haudit).1 f (mem_frames_of_getElem? hi (List.mem_cons_self ..)))

/-- A module has the message and has confirmed it when the message is flagged; then
its time runs out, and a sweep takes the message out of the stage. -/
def sweptWhileHeld : List EngineLabel :=
  .world (.ingest { uuid7 := "m", rawMessage := "hi" }) ::
    List.replicate 12 (.run 0 {}) ++
  .world (.receipt "m" "bot") :: .run 1 {} ::
  .world (.auditFlag "m" "spam") :: List.replicate 2 (.run 2 {}) ++
  .world (.tick 5000) :: .world .sweep :: List.replicate 8 (.run 3 {})

/-- The sweep reaches the start of post-process, which finds the hold. -/
theorem held_not_shown_sweptWhileHeld :
    ∃ s s' : EnginePool,
      engine.exec (boot { config :=
        { inProcessModules := ["bot"], postProcessModules := ["tts"] } })
        sweptWhileHeld = some s ∧
      s.top 3 = some (.postProcess (.audit "m")) ∧
      s.shared.timeline.isAudited "m" = true ∧
      engine.fire s (.run 3 {}) = some s' ∧
      shown "m" s'.shared = shown "m" s.shared := by
  obtain ⟨s, hrun, htop, hheld, hfires⟩ := exec_any (P := engine)
    (Q := fun s => s.top 3 = some (.postProcess (.audit "m")) ∧
      s.shared.timeline.isAudited "m" = true ∧ (engine.fire s (.run 3 {})).isSome = true)
    (boot { config := { inProcessModules := ["bot"], postProcessModules := ["tts"] } })
    sweptWhileHeld (by decide +kernel)
  obtain ⟨s', hfire⟩ := Option.isSome_iff_exists.mp hfires
  exact ⟨s, s', hrun, htop, hheld, hfire, held_not_shown "m" _ rfl
    (reachable_of_allSteps sweptWhileHeld .start (by decide +kernel) hrun) hfire hheld⟩

/-- A flag lands while the pre-process fanout stands between its two
recipients. -/
def flaggedInFanout : List EngineLabel :=
  .world (.ingest { uuid7 := "m", rawMessage := "hi" }) ::
    List.replicate 7 (.run 0 {}) ++
  .world (.auditFlag "m" "spam") :: List.replicate 2 (.run 1 {})

/-- The fanout goes on to its second recipient with the message held. -/
theorem held_shown_by_fanout :
    ¬ ∀ (uuid7 : String) (e : Engine) (ls : List EngineLabel)
        (s s' : EnginePool) (l : EngineLabel),
      engine.exec (boot e) ls = some s →
      engine.fire s l = some s' →
      s.shared.timeline.isAudited uuid7 = true →
      shown uuid7 s'.shared = shown uuid7 s.shared := by
  intro h
  have hshown := h "m" { config := { preProcessModules := ["a", "b"] } }
    flaggedInFanout _ _ (.run 0 {}) rfl rfl (by decide)
  exact absurd (congrArg List.length hshown) (by decide)

end CockatielEngine
