import CockatielEngine.Pipeline.Successors

/-!
# Pipeline: what memory keeps of a message

The engine's memory keeps a message as its state, its pending acks, a hold and the
tasks at work on it.  When it keeps nothing, only the insert of the message's row
and its recovery take up work on it again.
-/

namespace CockatielEngine

open TaskPool

/-- A drained entry of the message is still to be processed. -/
def HasDrained (uuid7 : String) (sw : Sweep) : Prop :=
  ∃ x ∈ sw.todo, x.1.uuid7 = uuid7

/-- The frame is at work on the message: it can dispatch it, write its row or
touch what is kept of it in memory. -/
def WorksOn (uuid7 : String) : Frame → Prop
  | .ingest (.insertEvent _) => False
  | .ingest (.setCommand msg _) => msg.uuid7 = uuid7
  | .ingest (.setUserUuid msg) => msg.uuid7 = uuid7
  | .ingest (.insertState msg) => msg.uuid7 = uuid7
  | .recovery (.insertState v _) => v = uuid7
  | .recovery _ => False
  | .broadcast (.enter v) => v = uuid7
  | .broadcast (.load v) => v = uuid7
  | .broadcast (.config v _) => v = uuid7
  | .fanout (.send fo _) => fo.uuid7 = uuid7
  | .fanout (.track fo _ _) => fo.uuid7 = uuid7
  | .inProcess (.enter v) => v = uuid7
  | .inProcess (.audit v) => v = uuid7
  | .inProcess (.load v) => v = uuid7
  | .inProcess (.config v _) => v = uuid7
  | .inProcess (.send v _ _ _ _) => v = uuid7
  | .inProcess (.track v _ _) => v = uuid7
  | .inProcess (.skip v _) => v = uuid7
  | .postProcess (.enter v) => v = uuid7
  | .postProcess (.audit v) => v = uuid7
  | .postProcess (.load v) => v = uuid7
  | .postProcess (.config v _) => v = uuid7
  | .terminal (.check v _) => v = uuid7
  | .terminal (.snapshot v) => v = uuid7
  | .terminal (.writeHeld v _) => v = uuid7
  | .terminal (.take v _) => v = uuid7
  | .terminal (.write v _ _) => v = uuid7
  | .terminal (.ack v) => v = uuid7
  | .reply (.check _) => False
  | .reply (.receipt _ _) => False
  | .reply (.record r) => r.uuid7 = uuid7
  | .reply (.audio r) => r.uuid7 = uuid7
  | .reply (.ackConfig v _) => v = uuid7
  | .reply (.ackModule v _ _) => v = uuid7
  | .advance (.notePre v) => v = uuid7
  | .advance (.noteIn v _) => v = uuid7
  | .advance (.nextIndex v _) => v = uuid7
  | .advance (.refresh v) => v = uuid7
  | .advance (.storeUserData v _) => v = uuid7
  | .sweep (.next sw) => HasDrained uuid7 sw
  | .sweep (.resendLoad sw entry _) => entry.uuid7 = uuid7 ∨ HasDrained uuid7 sw
  | .sweep (.resendSend sw entry _ _) =>
      entry.uuid7 = uuid7 ∨ HasDrained uuid7 sw
  | .sweep (.resendTrack sw entry) => entry.uuid7 = uuid7 ∨ HasDrained uuid7 sw
  | .sweep _ => False
  | .gate _ => False
  | .resume (.spawnReplay held) => ∃ point, (uuid7, point) ∈ held
  | .resume (.replayNext held) => ∃ point, (uuid7, point) ∈ held
  | .resume .restartClocks => False
  | .audit _ => False

/-- The engine's memory keeps nothing of the message. -/
structure Forgotten (uuid7 : String) (s : EnginePool) : Prop where
  state : s.shared.pipelineStates uuid7 = none
  pending : ∀ entry ∈ s.shared.ackTracker.pending, entry.uuid7 ≠ uuid7
  held : ∀ point, (uuid7, point) ∉ s.shared.pauseState.held
  tasks : ∀ f ∈ s.frames, ¬ WorksOn uuid7 f

instance (uuid7 : String) (sw : Sweep) : Decidable (HasDrained uuid7 sw) :=
  inferInstanceAs (Decidable (∃ x ∈ sw.todo, _ = uuid7))

instance (uuid7 : String) (held : List (String × HoldPoint)) :
    Decidable (∃ point, (uuid7, point) ∈ held) :=
  decidable_of_iff (∃ h ∈ held, h.1 = uuid7)
    ⟨fun ⟨h, hmem, hu⟩ => ⟨h.2, hu ▸ hmem⟩, fun ⟨_, hmem⟩ => ⟨_, hmem, rfl⟩⟩

instance (uuid7 : String) : DecidablePred (WorksOn uuid7) := fun f =>
  match f with
  | .ingest (.setCommand _ _) | .ingest (.setUserUuid _) | .ingest (.insertState _)
  | .recovery (.insertState _ _) | .broadcast (.enter _) | .broadcast (.load _)
  | .broadcast (.config _ _) | .fanout (.send _ _) | .fanout (.track _ _ _)
  | .inProcess (.enter _) | .inProcess (.audit _) | .inProcess (.load _)
  | .inProcess (.config _ _) | .inProcess (.send _ _ _ _ _)
  | .inProcess (.track _ _ _) | .inProcess (.skip _ _) | .postProcess (.enter _)
  | .postProcess (.audit _) | .postProcess (.load _) | .postProcess (.config _ _)
  | .terminal (.check _ _) | .terminal (.snapshot _) | .terminal (.writeHeld _ _)
  | .terminal (.take _ _) | .terminal (.write _ _ _) | .terminal (.ack _)
  | .reply (.record _) | .reply (.audio _) | .reply (.ackConfig _ _)
  | .reply (.ackModule _ _ _) | .advance (.notePre _) | .advance (.noteIn _ _)
  | .advance (.nextIndex _ _) | .advance (.refresh _)
  | .advance (.storeUserData _ _) => inferInstanceAs (Decidable (_ = uuid7))
  | .sweep (.next sw) => inferInstanceAs (Decidable (HasDrained uuid7 sw))
  | .sweep (.resendLoad sw _ _) | .sweep (.resendSend sw _ _ _)
  | .sweep (.resendTrack sw _) =>
      inferInstanceAs (Decidable (_ = uuid7 ∨ HasDrained uuid7 sw))
  | .resume (.spawnReplay held) | .resume (.replayNext held) =>
      inferInstanceAs (Decidable (∃ point, (uuid7, point) ∈ held))
  | .ingest (.insertEvent _) | .recovery (.check _) | .recovery (.load _)
  | .recovery .drainQueued | .recovery (.drainNext _) | .reply (.check _)
  | .reply (.receipt _ _) | .sweep .start | .sweep .config | .sweep (.drain _)
  | .gate _ | .resume .restartClocks | .audit _ => instDecidableFalse

instance (uuid7 : String) (s : EnginePool) : Decidable (Forgotten uuid7 s) :=
  decidable_of_iff
    (s.shared.pipelineStates uuid7 = none ∧
      (∀ entry ∈ s.shared.ackTracker.pending, entry.uuid7 ≠ uuid7) ∧
      (¬ ∃ point, (uuid7, point) ∈ s.shared.pauseState.held) ∧
      ∀ f ∈ s.frames, ¬ WorksOn uuid7 f)
    ⟨fun ⟨hstate, hpending, hheld, htasks⟩ =>
        ⟨hstate, hpending, fun point hmem => hheld ⟨point, hmem⟩, htasks⟩,
      fun h => ⟨h.state, h.pending, fun ⟨point, hmem⟩ => h.held point hmem, h.tasks⟩⟩

section Steps

variable {uuid7 : String} {e : Engine} {a : Answer}

theorem stateSubject_ne
    {f : Frame} (h : ¬ WorksOn uuid7 f) :
    f.stateSubject ≠ some uuid7 := by
  intro hsubject
  cases f with
  | ingest f => cases f <;> simp_all [Frame.stateSubject, WorksOn]
  | recovery f => cases f <;> simp_all [Frame.stateSubject, WorksOn]
  | inProcess f => cases f <;> simp_all [Frame.stateSubject, WorksOn]
  | postProcess f => cases f <;> simp_all [Frame.stateSubject, WorksOn]
  | terminal f => cases f <;> simp_all [Frame.stateSubject, WorksOn]
  | reply f => cases f <;> simp_all [Frame.stateSubject, WorksOn]
  | advance f => cases f <;> simp_all [Frame.stateSubject, WorksOn]
  | _ => simp [Frame.stateSubject] at hsubject

theorem tracks_ne
    {f : Frame} {entry : PendingAck} {now : Nat}
    (h : ¬ WorksOn uuid7 f)
    (htracks : f.tracks now = some entry) :
    entry.uuid7 ≠ uuid7 := by
  rintro rfl
  cases f with
  | fanout f =>
      cases f with
      | send => simp [Frame.tracks] at htracks
      | track fo moduleName todo =>
          obtain rfl := Option.some.inj htracks
          exact h rfl
  | inProcess f =>
      cases f with
      | track v moduleName ackTimeoutMs =>
          obtain rfl := Option.some.inj htracks
          exact h rfl
      | _ => simp [Frame.tracks] at htracks
  | sweep f =>
      cases f with
      | resendTrack sw x =>
          obtain rfl := Option.some.inj htracks
          exact h (Or.inl rfl)
      | _ => simp [Frame.tracks] at htracks
  | _ => simp [Frame.tracks] at htracks

theorem hold_ne
    {f : Frame} {point : HoldPoint}
    (h : ¬ WorksOn uuid7 f) :
    f.hold ≠ some (uuid7, point) := by
  intro hhold
  cases f with
  | broadcast f => cases f <;> simp_all [Frame.hold, WorksOn]
  | inProcess f => cases f <;> simp_all [Frame.hold, WorksOn]
  | postProcess f => cases f <;> simp_all [Frame.hold, WorksOn]
  | _ => simp [Frame.hold] at hhold

theorem Expires.not_worksOn
    {sw : Sweep} {entry : PendingAck} {still : Bool} {g : Frame}
    (hsw : ¬ HasDrained uuid7 sw)
    (hentry : entry.uuid7 ≠ uuid7)
    (h : Expires sw entry still g) :
    ¬ WorksOn uuid7 g := by
  cases h with
  | advance _ _ => cases entry.stage <;> exact hentry
  | fail _ _ => exact hentry
  | _ => exact hsw

/-- A sweep with nothing of the message left to process goes on that way. -/
theorem not_hasDrained_todo
    {sw : Sweep} {x : PendingAck × Bool} {todo : List (PendingAck × Bool)}
    (htodo : sw.todo = x :: todo)
    (h : ¬ HasDrained uuid7 sw) :
    x.1.uuid7 ≠ uuid7 ∧ ¬ HasDrained uuid7 { sw with todo := todo } := by
  constructor
  · intro hx
    exact h ⟨x, by rw [htodo]; exact List.mem_cons_self .., hx⟩
  · rintro ⟨y, hy, hyu⟩
    exact h ⟨y, by rw [htodo]; exact List.mem_cons_of_mem _ hy, hyu⟩

/-- When nothing of the message is in memory, only the insert of its row and its
recovery take up work on it. -/
theorem not_worksOn_new_of_untaken
    {f g : Frame}
    (hinsert : ∀ msg, f = .ingest (.insertEvent msg) → msg.uuid7 = uuid7 →
      e.timeline.row? uuid7 ≠ none)
    (hload : f = .recovery (.load uuid7) →
      e.timeline.loadQueuedMessage uuid7 = none)
    (hf : ¬ WorksOn uuid7 f)
    (hpending : ∀ entry ∈ e.ackTracker.pending, entry.uuid7 ≠ uuid7)
    (hheld : ∀ point, (uuid7, point) ∉ e.pauseState.held)
    (hg : g ∈ (f.step e a).new) :
    ¬ WorksOn uuid7 g := by
  intro hworks
  cases Frame.leads hg with
  | insertEvent_setCommand hrow =>
      obtain rfl : _ = uuid7 := hworks
      exact hinsert _ rfl rfl hrow
  | insertEvent_setUserUuid hrow =>
      obtain rfl : _ = uuid7 := hworks
      exact hinsert _ rfl rfl hrow
  | insertEvent_insertState hrow =>
      obtain rfl : _ = uuid7 := hworks
      exact hinsert _ rfl rfl hrow
  | recover_insertState hqueued =>
      obtain rfl : _ = uuid7 := hworks
      simp [hload rfl] at hqueued
  | reply_record howns =>
      obtain ⟨entry, hmem, hu, -, -⟩ := (AckTracker.isPendingFor_iff ..).mp howns
      exact hpending entry hmem (hu.trans hworks)
  | @fanout_nobody fo _ =>
      revert hworks
      cases fo.stage <;> exact hf
  | sweep_first htodo =>
      obtain ⟨⟨entry, still⟩, hmem, hu⟩ := hworks
      rw [htodo, SweepFrame.mem_drained_iff, AckTracker.mem_checkTimeouts_iff] at hmem
      exact hpending entry hmem.1 hu
  | sweep_resendLoad htodo _ =>
      obtain ⟨hx, htail⟩ := not_hasDrained_todo htodo hf
      exact hworks.elim hx htail
  | sweep_expire htodo _ hexp =>
      obtain ⟨hx, htail⟩ := not_hasDrained_todo htodo hf
      exact hexp.not_worksOn htail hx hworks
  | sweep_gone _ hexp =>
      exact hexp.not_worksOn (fun h => hf (Or.inr h)) (fun h => hf (Or.inl h))
        hworks
  | sweep_unsent _ hexp =>
      exact hexp.not_worksOn (fun h => hf (Or.inr h)) (fun h => hf (Or.inl h))
        hworks
  | sweep_resent => exact hf (Or.inr hworks)
  | resume_spawnReplay =>
      obtain ⟨point, hmem⟩ := hworks
      exact hheld point hmem
  | @replay_hold v point held =>
      have hv : v = uuid7 := by cases point <;> exact hworks
      exact hf ⟨point, by rw [← hv]; exact List.mem_cons_self ..⟩
  | replay_next =>
      obtain ⟨point, hmem⟩ := hworks
      exact hf ⟨point, List.mem_cons_of_mem _ hmem⟩
  | _ => exact hf hworks

/-- Once nothing of the message is in memory and its row is no longer queued,
no step takes up work on it. -/
theorem not_worksOn_new
    {f g : Frame} {r : Row}
    (hr : e.timeline.row? uuid7 = some r)
    (hstatus : r.pipelineStatus ≠ .queued)
    (hf : ¬ WorksOn uuid7 f)
    (hpending : ∀ entry ∈ e.ackTracker.pending, entry.uuid7 ≠ uuid7)
    (hheld : ∀ point, (uuid7, point) ∉ e.pauseState.held)
    (hg : g ∈ (f.step e a).new) :
    ¬ WorksOn uuid7 g :=
  not_worksOn_new_of_untaken (fun _ _ _ => by simp [hr])
    (fun _ => by simp [Timeline.loadQueuedMessage, hr, hstatus]) hf hpending
    hheld hg

/-- A frame that does not work on the message writes its row by an audit step
only. -/
theorem rowUpdate_of_not_worksOn
    {f : Frame} {now : Nat} {g : Row → Row}
    (hf : ¬ WorksOn uuid7 f)
    (hg : f.rowUpdate now = some (uuid7, g)) :
    ∃ f', f = .audit f' := by
  cases f with
  | ingest f => cases f <;> simp_all [Frame.rowUpdate, WorksOn]
  | terminal f => cases f <;> simp_all [Frame.rowUpdate, WorksOn]
  | audit f => exact ⟨f, rfl⟩
  | _ => simp [Frame.rowUpdate] at hg

/-- An audit step never queues a row again. -/
theorem status_audit_ne_queued
    {f : AuditFrame} {now : Nat} {v : String} {g : Row → Row} {r : Row}
    (hg : (Frame.audit f).rowUpdate now = some (v, g))
    (hstatus : r.pipelineStatus ≠ .queued) :
    (g r).pipelineStatus ≠ .queued := by
  cases f with
  | flag => simp [Frame.rowUpdate] at hg
  | mark u reason =>
      obtain ⟨-, rfl⟩ := by simpa [Frame.rowUpdate] using hg
      simp [Row.writeTerminalOutcome, PipelineOutcome.status]
  | release u approve =>
      obtain ⟨-, rfl⟩ := by simpa [Frame.rowUpdate] using hg
      unfold Row.releaseAudit
      repeat' split
      · simp
      · simp
      · exact hstatus

end Steps

theorem Forgotten.run
    {uuid7 : String} {s : EnginePool} {i : Nat} {a : Answer} {f : Frame}
    {rest : List Frame}
    (h : Forgotten uuid7 s)
    (hi : s.threads[i]? = some (f :: rest))
    (hnew : ∀ g ∈ (f.step s.shared a).new, ¬ WorksOn uuid7 g) :
    Forgotten uuid7
      { shared := (f.step s.shared a).shared
        threads := s.threads.set i
            (engine.unwind (f.step s.shared a).next rest) ++
          (f.step s.shared a).spawned } := by
  have hf := h.tasks f (mem_frames_of_getElem? hi (List.mem_cons_self ..))
  constructor
  · rw [Frame.step_pipelineStates s.shared a (stateSubject_ne hf)]
    exact h.state
  · intro entry hentry
    rcases Frame.mem_pending_step s.shared a hentry with ⟨x, hx, hxe⟩ | htracks
    · have hu : entry.uuid7 = x.uuid7 := by
        rcases hxe with rfl | rfl | ⟨-, rfl⟩ <;> rfl
      rw [hu]
      exact h.pending x hx
    · exact tracks_ne hf htracks
  · intro point hmem
    rcases Frame.mem_held_step s.shared a hmem with hmem | hhold
    · exact h.held point hmem
    · exact hold_ne hf hhold
  · intro g hg
    rcases mem_frames_after_run hi hg with hg | hg
    · exact hnew g hg
    · exact h.tasks g hg

theorem Forgotten.world
    {uuid7 : String} {s : EnginePool} {ev : WorldEvent}
    (h : Forgotten uuid7 s) :
    Forgotten uuid7
      { shared := ev.effect s.shared, threads := s.threads ++ ev.starts } := by
  constructor
  · cases ev <;> exact h.state
  · cases ev <;> exact h.pending
  · cases ev <;> exact h.held
  · intro g hg
    rcases mem_frames_after_world (r := (ev.effect s.shared, ev.starts)) hg with
      hg | hg
    · exact h.tasks g hg
    · cases opens_of_mem hg <;> exact id

end CockatielEngine
