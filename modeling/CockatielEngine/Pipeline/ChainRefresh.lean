import CockatielEngine.Concurrency.Ghost
import CockatielEngine.Pipeline.ChainOrder

/-!
# Pipeline: the user data that post-process gets

The user data of a message is read again when an acknowledgement or a timeout takes
the message out of the in-process chain.  A module that is skipped, and an index
past the end of the list, take it out as well, and nothing is read again there.

A ghost beside the pool keeps what the refreshes have left the message with since
the last module of the chain finished.

**Main result.**  While nothing takes a message out of the chain that has been
through a module of it since its user data was read, and the chain does not go on
once the message is past it, every container that goes to a post-process module
carries user data that was read after the last in-process acknowledgement or
timeout.
-/

namespace CockatielEngine

open TaskPool

/-- The user data that a container carries. -/
def ContainerForModule.userData (container : ContainerForModule) : Option UserData :=
  match container.payload with
  | .messagePreProcess _ rawMessage _ _ => rawMessage.userData
  | .messageInProcess _ rawMessage _ _ _ _ => rawMessage.userData
  | .messagePostProcess _ rawMessage _ _ _ => rawMessage.userData

section Defs

variable (uuid7 : String)

/-- The end of a module's work on the message, acknowledged or timed out. -/
def notesIn : Frame → Bool
  | .advance (.noteIn v _) => v = uuid7
  | _ => false

/-- The user data of the message is read again. -/
def refreshes : Frame → Bool
  | .advance (.refresh v) => v = uuid7
  | _ => false

/-- The user data that a refresh leaves the message with: what the lookup finds, and
what the message had when it has no user or the lookup finds nothing. -/
def rereadUserData (e : Engine) (a : Answer) : Option UserData :=
  (((e.pipelineStates uuid7).filter (·.userUuid7 ≠ "")).bind fun _ => a.userData).or
    ((e.pipelineStates uuid7).bind (·.userData))

/-- What the refreshes have left the message with since the last module of the chain
finished, newest first. -/
def noteReread (s : EnginePool) :
    EngineLabel → List (Option UserData) → List (Option UserData)
  | .run i a, since =>
      if (s.top i).any (notesIn uuid7) then []
      else if (s.top i).any (refreshes uuid7) then
        rereadUserData uuid7 s.shared a :: since
      else since
  | .world _, since => since

/-- The user data in memory is what a refresh has left there. -/
def Reread (since : List (Option UserData)) (e : Engine) : Prop :=
  ∀ state ∈ e.pipelineStates uuid7, state.userData ∈ since

/-- If a module of the chain was sent the message, its user data was read again
after the last of them had finished. -/
def Current (since : List (Option UserData)) (e : Engine) : Prop :=
  dispatched uuid7 e ≠ [] → Reread uuid7 since e

/-- The entry waits for a post-process module of the message. -/
def AwaitsPost (entry : PendingAck) : Prop :=
  entry.uuid7 = uuid7 ∧ entry.stage = .postProcess

/-- The sweep has drained such an entry. -/
def DrainedPost (sw : Sweep) : Prop :=
  ∃ x ∈ sw.todo, AwaitsPost uuid7 x.1

/-- The frame takes the message on from where its user data was read. -/
def PastChain : Frame → Prop
  | .advance (.storeUserData v _) => v = uuid7
  | .postProcess (.enter v) => v = uuid7
  | .postProcess (.audit v) => v = uuid7
  | .postProcess (.load v) => v = uuid7
  | .postProcess (.config v _) => v = uuid7
  | .fanout (.send fo _) => fo.uuid7 = uuid7 ∧ fo.stage = .postProcess
  | .fanout (.track fo _ _) => fo.uuid7 = uuid7 ∧ fo.stage = .postProcess
  | .sweep (.next sw) => DrainedPost uuid7 sw
  | .sweep (.resendLoad sw entry _) => AwaitsPost uuid7 entry ∨ DrainedPost uuid7 sw
  | .sweep (.resendSend sw entry _ _) => AwaitsPost uuid7 entry ∨ DrainedPost uuid7 sw
  | .sweep (.resendTrack sw entry) => AwaitsPost uuid7 entry ∨ DrainedPost uuid7 sw
  | .resume (.spawnReplay held) => (uuid7, .postProcess) ∈ held
  | .resume (.replayNext held) => (uuid7, .postProcess) ∈ held
  | _ => False

/-- The message is past the chain: in a task, on hold, or with a post-process
module. -/
def Past (s : EnginePool) : Prop :=
  (∃ f ∈ s.frames, PastChain uuid7 f) ∨
    (uuid7, .postProcess) ∈ s.shared.pauseState.held ∨
    ∃ entry ∈ s.shared.ackTracker.pending, AwaitsPost uuid7 entry

/-- The chain is left without a refresh only by a message that needs none, and
nothing of the chain goes on for a message that is past it: no module is the first
to be sent it, none that was sent it finishes, and its state is not put back. -/
def LeavesCurrent (since : List (Option UserData)) (s : EnginePool) (a : Answer) :
    Frame → Prop
  | .inProcess (.config v state) =>
      v = uuid7 →
        s.shared.config.inProcessModules[state.currentInProcessIndex]? = none →
        Current uuid7 since s.shared
  | .inProcess (.skip v len) =>
      v = uuid7 → ∀ state ∈ s.shared.pipelineStates uuid7,
        len ≤ state.currentInProcessIndex + 1 → Current uuid7 since s.shared
  | .inProcess (.send v _ _ _ _) =>
      v = uuid7 → a.permitted = true → a.outcome = .sent → Past uuid7 s →
        dispatched uuid7 s.shared ≠ []
  | .advance (.noteIn v _) =>
      v = uuid7 → Past uuid7 s → dispatched uuid7 s.shared = []
  | .ingest (.insertState msg) =>
      msg.uuid7 = uuid7 → Past uuid7 s → dispatched uuid7 s.shared = []
  | .recovery (.insertState v _) =>
      v = uuid7 → Past uuid7 s → dispatched uuid7 s.shared = []
  | _ => True

/-- Whatever the frame takes on to post-process has been read again. -/
def CarriesReread (since : List (Option UserData)) (e : Engine) : Frame → Prop
  | .advance (.storeUserData v userData) => v = uuid7 → some userData ∈ since
  | .postProcess (.config v state) =>
      v = uuid7 → state.userData ∈ since ∧ Reread uuid7 since e
  | .fanout (.send fo _) =>
      fo.uuid7 = uuid7 ∧ fo.stage = .postProcess →
        fo.container.userData ∈ since ∧ Reread uuid7 since e
  | .fanout (.track fo _ _) =>
      fo.uuid7 = uuid7 ∧ fo.stage = .postProcess →
        fo.container.userData ∈ since ∧ Reread uuid7 since e
  | .sweep (.resendSend sw entry _ container) =>
      (AwaitsPost uuid7 entry → container.userData ∈ since) ∧
        (AwaitsPost uuid7 entry ∨ DrainedPost uuid7 sw → Reread uuid7 since e)
  | f => PastChain uuid7 f → Reread uuid7 since e

/-- What is past the chain has been read again, wherever it is. -/
structure PastReread (since : List (Option UserData)) (s : EnginePool) : Prop where
  tasks : ∀ f ∈ s.frames, CarriesReread uuid7 since s.shared f
  held : (uuid7, .postProcess) ∈ s.shared.pauseState.held →
    Reread uuid7 since s.shared
  pending : ∀ entry ∈ s.shared.ackTracker.pending, AwaitsPost uuid7 entry →
    Reread uuid7 since s.shared

/-- The invariant of such a run. -/
structure CurrentPast (since : List (Option UserData)) (s : EnginePool) : Prop where
  apart : s.total (fansOut uuid7 .inProcess) = 0
  past : dispatched uuid7 s.shared ≠ [] → PastReread uuid7 since s

instance (since : List (Option UserData)) (e : Engine) :
    Decidable (Reread uuid7 since e) :=
  inferInstanceAs (Decidable (∀ state ∈ e.pipelineStates uuid7, _ ∈ since))

instance (since : List (Option UserData)) (e : Engine) :
    Decidable (Current uuid7 since e) :=
  inferInstanceAs (Decidable (_ → Reread uuid7 since e))

instance (entry : PendingAck) : Decidable (AwaitsPost uuid7 entry) :=
  inferInstanceAs (Decidable (_ ∧ _))

instance (sw : Sweep) : Decidable (DrainedPost uuid7 sw) :=
  inferInstanceAs (Decidable (∃ x ∈ sw.todo, AwaitsPost uuid7 x.1))

instance (f : Frame) : Decidable (PastChain uuid7 f) :=
  match f with
  | .fanout (.send _ _) => inferInstanceAs (Decidable (_ ∧ _))
  | .fanout (.track _ _ _) => inferInstanceAs (Decidable (_ ∧ _))
  | .postProcess (.enter _) => inferInstanceAs (Decidable (_ = _))
  | .postProcess (.audit _) => inferInstanceAs (Decidable (_ = _))
  | .postProcess (.load _) => inferInstanceAs (Decidable (_ = _))
  | .postProcess (.config _ _) => inferInstanceAs (Decidable (_ = _))
  | .advance (.storeUserData _ _) => inferInstanceAs (Decidable (_ = _))
  | .sweep (.next sw) => inferInstanceAs (Decidable (DrainedPost uuid7 sw))
  | .sweep (.resendLoad sw entry _) | .sweep (.resendSend sw entry _ _)
  | .sweep (.resendTrack sw entry) =>
      inferInstanceAs (Decidable (AwaitsPost uuid7 entry ∨ DrainedPost uuid7 sw))
  | .resume (.spawnReplay _) => inferInstanceAs (Decidable (_ ∈ _))
  | .resume (.replayNext _) => inferInstanceAs (Decidable (_ ∈ _))
  | .ingest _ | .recovery _ | .broadcast _ | .inProcess _ | .terminal _ | .reply _
  | .advance (.notePre _) | .advance (.noteIn _ _) | .advance (.nextIndex _ _)
  | .advance (.refresh _) | .sweep .start | .sweep .config | .sweep (.drain _)
  | .gate _ | .resume .restartClocks | .audit _ => instDecidableFalse

instance (s : EnginePool) : Decidable (Past uuid7 s) :=
  inferInstanceAs (Decidable (_ ∨ _ ∨ ∃ entry ∈ s.shared.ackTracker.pending,
    AwaitsPost uuid7 entry))

instance (since : List (Option UserData)) (s : EnginePool) (a : Answer) (f : Frame) :
    Decidable (LeavesCurrent uuid7 since s a f) :=
  match f with
  | .inProcess (.config _ _) =>
      inferInstanceAs (Decidable (_ → _ → Current uuid7 since s.shared))
  | .inProcess (.skip _ _) =>
      inferInstanceAs (Decidable (_ → ∀ state ∈ s.shared.pipelineStates uuid7,
        _ → Current uuid7 since s.shared))
  | .inProcess (.send _ _ _ _ _) =>
      inferInstanceAs (Decidable (_ → _ → _ → Past uuid7 s → _))
  | .advance (.noteIn _ _) | .ingest (.insertState _) | .recovery (.insertState _ _) =>
      inferInstanceAs (Decidable (_ → Past uuid7 s → _))
  | .ingest (.insertEvent _) | .ingest (.setCommand _ _) | .ingest (.setUserUuid _)
  | .recovery (.check _) | .recovery (.load _) | .recovery .drainQueued
  | .recovery (.drainNext _) | .broadcast _ | .fanout _ | .inProcess (.enter _)
  | .inProcess (.audit _) | .inProcess (.load _) | .inProcess (.track _ _ _)
  | .postProcess _ | .terminal _ | .reply _ | .advance (.notePre _)
  | .advance (.nextIndex _ _) | .advance (.refresh _) | .advance (.storeUserData _ _)
  | .sweep _ | .gate _ | .resume _ | .audit _ => instDecidableTrue

end Defs

section Steps

variable {uuid7 : String} {since since' : List (Option UserData)} {s : EnginePool}
variable {e e' : Engine} {a : Answer} {f g : Frame} {i : Nat} {rest : List Frame}

theorem noteReread_run
    (hi : s.threads[i]? = some (f :: rest)) :
    noteReread uuid7 s (.run i a) since =
      if notesIn uuid7 f then []
      else if refreshes uuid7 f then rereadUserData uuid7 s.shared a :: since
      else since := by
  simp [noteReread, Pool.top, hi]

theorem eq_of_notesIn
    (h : notesIn uuid7 f = true) :
    ∃ len, f = .advance (.noteIn uuid7 len) := by
  unfold notesIn at h
  split at h
  · exact ⟨_, by rw [of_decide_eq_true h]⟩
  · cases h

theorem eq_of_refreshes
    (h : refreshes uuid7 f = true) :
    f = .advance (.refresh uuid7) := by
  unfold refreshes at h
  split at h
  · rw [of_decide_eq_true h]
  · cases h

theorem DrainedPost.of_tail
    {sw : Sweep} {x : PendingAck × Bool} {todo : List (PendingAck × Bool)}
    (htodo : sw.todo = x :: todo)
    (h : DrainedPost uuid7 { sw with todo := todo }) :
    DrainedPost uuid7 sw := by
  obtain ⟨y, hy, hpost⟩ := h
  exact ⟨y, by rw [htodo]; exact List.mem_cons_of_mem _ hy, hpost⟩

/-- The timeout path of an entry leaves past the chain only what the sweep has still
to process. -/
theorem Expires.drainedPost
    {sw : Sweep} {entry : PendingAck} {still : Bool}
    (hexp : Expires sw entry still g)
    (hpast : PastChain uuid7 g) :
    DrainedPost uuid7 sw := by
  rcases hexp.shape with ⟨sw', rfl, htodo⟩ | ⟨_, rfl⟩ | rfl | ⟨_, rfl⟩ | rfl
  · obtain ⟨x, hx, hpost⟩ := hpast
    exact ⟨x, htodo ▸ hx, hpost⟩
  all_goals exact hpast.elim

/-- Where a step can take a message past the chain: it was past it before, it is
refreshed, or it leaves without a refresh. -/
theorem past_of_new
    (hg : g ∈ (f.step e a).new)
    (hpast : PastChain uuid7 g) :
    PastChain uuid7 f ∨ f = .advance (.refresh uuid7) ∨
      (∃ state, f = .inProcess (.config uuid7 state) ∧
        e.config.inProcessModules[state.currentInProcessIndex]? = none) ∨
      (∃ len, f = .inProcess (.skip uuid7 len) ∧
        ∃ state ∈ e.pipelineStates uuid7, len ≤ state.currentInProcessIndex + 1) ∨
      (uuid7, .postProcess) ∈ e.pauseState.held ∨
      ∃ entry ∈ e.ackTracker.pending, AwaitsPost uuid7 entry := by
  cases Frame.leads hg with
  | inProcess_end hnone =>
      obtain rfl := hpast
      exact Or.inr (Or.inr (Or.inl ⟨_, rfl, hnone⟩))
  | @inProcess_last v len =>
      obtain rfl : v = uuid7 := hpast
      cases hstate : e.pipelineStates v with
      | none => simp [Frame.step, InProcessFrame.step, hstate] at hg
      | some state =>
          simp only [Frame.step, InProcessFrame.step, hstate, new_go] at hg
          split at hg
          · rename_i hlen
            exact Or.inr (Or.inr (Or.inr (Or.inl
              ⟨len, rfl, state, rfl, hlen⟩)))
          · simp at hg
  | @refresh_store v userData =>
      obtain rfl : v = uuid7 := hpast
      exact Or.inr (Or.inl rfl)
  | @refresh_postProcess v =>
      obtain rfl : v = uuid7 := hpast
      exact Or.inr (Or.inl rfl)
  | store_postProcess => exact Or.inl hpast
  | postProcess_audit _ => exact Or.inl hpast
  | postProcess_load _ => exact Or.inl hpast
  | postProcess_config _ => exact Or.inl hpast
  | postProcess_fanout => exact Or.inl hpast.1
  | fanout_track _ _ => exact Or.inl hpast
  | fanout_skip => exact Or.inl hpast
  | fanout_send => exact Or.inl hpast
  | broadcast_fanout => exact absurd hpast.2 (by simp)
  | @fanout_nobody fo _ =>
      cases hst : fo.stage <;> rw [hst] at hpast <;> exact hpast.elim
  | sweep_first htodo =>
      obtain ⟨⟨entry, still⟩, hmem, hpost⟩ := hpast
      rw [htodo, SweepFrame.mem_drained_iff, AckTracker.mem_checkTimeouts_iff] at hmem
      exact Or.inr (Or.inr (Or.inr (Or.inr (Or.inr ⟨entry, hmem.1, hpost⟩))))
  | sweep_resendLoad htodo _ =>
      rcases hpast with hpost | hdrained
      · exact Or.inl ⟨_, by rw [htodo]; exact List.mem_cons_self .., hpost⟩
      · exact Or.inl (hdrained.of_tail htodo)
  | sweep_expire htodo _ hexp => exact Or.inl ((hexp.drainedPost hpast).of_tail htodo)
  | sweep_gone _ hexp => exact Or.inl (Or.inr (hexp.drainedPost hpast))
  | sweep_resendSend _ => exact Or.inl hpast
  | sweep_resendTrack _ => exact Or.inl hpast
  | sweep_unsent _ hexp => exact Or.inl (Or.inr (hexp.drainedPost hpast))
  | sweep_resent => exact Or.inl (Or.inr hpast)
  | resume_spawnReplay => exact Or.inr (Or.inr (Or.inr (Or.inr (Or.inl hpast))))
  | replay_spawn => exact Or.inl hpast
  | replay_next => exact Or.inl (List.mem_cons_of_mem _ hpast)
  | @replay_hold v point held =>
      cases point with
      | postProcess =>
          obtain rfl : v = uuid7 := hpast
          exact Or.inl (List.mem_cons_self ..)
      | _ => exact hpast.elim
  | _ => exact hpast.elim

theorem pastChain_of_hold
    (h : f.hold = some (uuid7, .postProcess)) :
    PastChain uuid7 f := by
  cases f with
  | postProcess f => cases f <;> simp_all [Frame.hold, PastChain]
  | broadcast f => cases f <;> simp [Frame.hold] at h
  | inProcess f => cases f <;> simp [Frame.hold] at h
  | _ => simp [Frame.hold] at h

theorem pastChain_of_tracks
    {entry : PendingAck} {now : Nat}
    (h : f.tracks now = some entry)
    (hpost : AwaitsPost uuid7 entry) :
    PastChain uuid7 f := by
  cases f with
  | fanout f =>
      cases f with
      | send => simp [Frame.tracks] at h
      | track fo moduleName todo =>
          obtain rfl := Option.some.inj h
          exact hpost
  | inProcess f =>
      cases f with
      | track v moduleName ackTimeoutMs =>
          obtain rfl := Option.some.inj h
          cases hpost.2
      | _ => simp [Frame.tracks] at h
  | sweep f =>
      cases f with
      | resendTrack sw x =>
          obtain rfl := Option.some.inj h
          exact Or.inl hpost
      | _ => simp [Frame.tracks] at h
  | _ => simp [Frame.tracks] at h

/-- What is on hold or pending past the chain after a step was so before, or the
frame that put it there was past the chain. -/
theorem awaited_before
    (h : (uuid7, .postProcess) ∈ (f.step e a).shared.pauseState.held ∨
      ∃ entry ∈ (f.step e a).shared.ackTracker.pending, AwaitsPost uuid7 entry) :
    PastChain uuid7 f ∨ (uuid7, .postProcess) ∈ e.pauseState.held ∨
      ∃ entry ∈ e.ackTracker.pending, AwaitsPost uuid7 entry := by
  rcases h with hheld | ⟨entry, hentry, hpost⟩
  · rcases Frame.mem_held_step e a hheld with hheld | hhold
    · exact Or.inr (Or.inl hheld)
    · exact Or.inl (pastChain_of_hold hhold)
  · rcases Frame.mem_pending_step e a hentry with ⟨x, hx, hxe⟩ | htracks
    · refine Or.inr (Or.inr ⟨x, hx, ?_⟩)
      rcases hxe with rfl | rfl | ⟨-, rfl⟩ <;> exact hpost
    · exact Or.inl (pastChain_of_tracks htracks hpost)

/-- A message that is past the chain after a step was past it before, or the step
takes it out of the chain. -/
theorem past_before
    (hi : s.threads[i]? = some (f :: rest))
    (hpast : Past uuid7 (afterRun s i a f rest)) :
    Past uuid7 s ∨ f = .advance (.refresh uuid7) ∨
      (∃ state, f = .inProcess (.config uuid7 state)) ∨
      ∃ len, f = .inProcess (.skip uuid7 len) := by
  have hf := mem_frames_of_getElem? hi (List.mem_cons_self ..)
  rcases hpast with ⟨g, hg, hgpast⟩ | hwaits
  · rcases mem_frames_after_run hi hg with hg | hg
    · rcases past_of_new hg hgpast with hfp | rfl | ⟨state, rfl, -⟩ | ⟨len, rfl, -⟩ |
        hwaits
      · exact Or.inl (Or.inl ⟨f, hf, hfp⟩)
      · exact Or.inr (Or.inl rfl)
      · exact Or.inr (Or.inr (Or.inl ⟨state, rfl⟩))
      · exact Or.inr (Or.inr (Or.inr ⟨len, rfl⟩))
      · exact Or.inl (Or.inr hwaits)
    · exact Or.inl (Or.inl ⟨g, hg, hgpast⟩)
  · rcases awaited_before hwaits with hfp | hwaits
    · exact Or.inl (Or.inl ⟨f, hf, hfp⟩)
    · exact Or.inl (Or.inr hwaits)

theorem userData_storeAudio
    (stage audioType : String) (audio : Bytes) (state : PipelineState) :
    (state.storeAudio stage audioType audio).userData = state.userData := by
  unfold PipelineState.storeAudio
  split <;> rfl

/-- The user data in memory changes when it is read again, and when the state of the
message is put there. -/
theorem userData_step
    {state' : PipelineState}
    (hinstalls : f.installs ≠ some uuid7)
    (hstate' : state' ∈ (f.step e a).shared.pipelineStates uuid7) :
    (∃ state ∈ e.pipelineStates uuid7, state'.userData = state.userData) ∨
      ∃ userData, f = .advance (.storeUserData uuid7 userData) ∧
        state'.userData = some userData := by
  by_cases hsub : f.stateSubject = some uuid7
  · cases hstate : e.pipelineStates uuid7 with
    | none =>
        rw [Frame.step_pipelineStates_none e a hstate hinstalls] at hstate'
        cases hstate'
    | some state =>
        cases f with
        | ingest f => cases f <;> simp_all [Frame.stateSubject, Frame.installs]
        | recovery f => cases f <;> simp_all [Frame.stateSubject, Frame.installs]
        | inProcess f =>
            cases f <;> simp only [Frame.stateSubject, Option.some.injEq,
              reduceCtorEq] at hsub
            all_goals
              subst hsub
              simp [Frame.step, InProcessFrame.step, Engine.putState, hstate] at hstate'
              subst hstate'
              exact Or.inl ⟨state, rfl, rfl⟩
        | postProcess f =>
            cases f <;> simp only [Frame.stateSubject, Option.some.injEq,
              reduceCtorEq] at hsub
            subst hsub
            simp [Frame.step, PostProcessFrame.step, Engine.putState, hstate] at hstate'
            subst hstate'
            exact Or.inl ⟨state, rfl, rfl⟩
        | terminal f =>
            cases f <;> simp only [Frame.stateSubject, Option.some.injEq,
              reduceCtorEq] at hsub
            rename_i ending
            subst hsub
            cases ending <;>
              simp [Frame.step, TerminalFrame.step, Engine.putState, hstate] at hstate'
        | reply f =>
            cases f <;> simp only [Frame.stateSubject, Option.some.injEq,
              reduceCtorEq] at hsub
            all_goals
              subst hsub
              simp [Frame.step, ReplyFrame.step, Engine.modifyState, Engine.putState,
                hstate] at hstate'
              subst hstate'
            · exact Or.inl ⟨state, rfl, rfl⟩
            · exact Or.inl ⟨state, rfl, userData_storeAudio ..⟩
        | advance f =>
            cases f <;> simp only [Frame.stateSubject, Option.some.injEq,
              reduceCtorEq] at hsub
            all_goals
              subst hsub
              simp [Frame.step, AdvanceFrame.step, Engine.modifyState, Engine.putState,
                Engine.logged, hstate] at hstate'
              subst hstate'
            · exact Or.inl ⟨state, rfl, rfl⟩
            · exact Or.inl ⟨state, rfl, rfl⟩
            · exact Or.inl ⟨state, rfl, rfl⟩
            · exact Or.inr ⟨_, rfl, rfl⟩
        | _ => simp [Frame.stateSubject] at hsub
  · rw [Frame.step_pipelineStates e a hsub] at hstate'
    exact Or.inl ⟨state', hstate', rfl⟩

/-- What is in memory stays read again until the state of the message is put back. -/
theorem Reread.step
    (h : Reread uuid7 since e)
    (hinstalls : f.installs ≠ some uuid7)
    (hstore : ∀ userData, f = .advance (.storeUserData uuid7 userData) →
      some userData ∈ since) :
    Reread uuid7 since (f.step e a).shared := by
  intro state' hstate'
  rcases userData_step hinstalls hstate' with ⟨state, hstate, hdata⟩ |
    ⟨userData, hf, hdata⟩
  · rw [hdata]
    exact h state hstate
  · rw [hdata]
    exact hstore userData hf

theorem reread_of_store
    {userData : UserData}
    (h : some userData ∈ since) :
    Reread uuid7 since
      ((Frame.advance (.storeUserData uuid7 userData)).step e a).shared := by
  intro state' hstate'
  cases hstate : e.pipelineStates uuid7 with
  | none =>
      simp [Frame.step, AdvanceFrame.step, Engine.modifyState, Engine.putState,
        hstate] at hstate'
  | some state =>
      obtain rfl : _ = state' := by
        simpa [Frame.step, AdvanceFrame.step, Engine.modifyState, Engine.putState,
          hstate] using hstate'
      exact h

theorem Reread.mono
    (hsub : ∀ userData ∈ since, userData ∈ since')
    (h : Reread uuid7 since e) :
    Reread uuid7 since' e :=
  fun state hstate => hsub _ (h state hstate)

theorem carriesReread_of_not_past
    (h : ¬ PastChain uuid7 f) :
    CarriesReread uuid7 since e f := by
  cases f with
  | advance f => cases f <;> exact fun hp => absurd hp h
  | postProcess f => cases f <;> exact fun hp => absurd hp h
  | fanout f => cases f <;> exact fun hp => absurd hp h
  | sweep f =>
      cases f with
      | resendSend =>
          exact ⟨fun hpost => absurd (Or.inl hpost) h, fun hp => absurd hp h⟩
      | _ => exact fun hp => absurd hp h
  | _ => exact fun hp => absurd hp h

theorem pastReread_of_not_past
    (h : ¬ Past uuid7 s) :
    PastReread uuid7 since s where
  tasks f hf := carriesReread_of_not_past fun hp => h (Or.inl ⟨f, hf, hp⟩)
  held hheld := absurd (Or.inr (Or.inl hheld)) h
  pending entry hentry hpost := absurd (Or.inr (Or.inr ⟨entry, hentry, hpost⟩)) h

theorem CarriesReread.mono
    (h : CarriesReread uuid7 since e f)
    (hsub : ∀ userData ∈ since, userData ∈ since')
    (hreread : Reread uuid7 since e → Reread uuid7 since' e') :
    CarriesReread uuid7 since' e' f := by
  cases f with
  | advance f =>
      cases f with
      | storeUserData => exact fun hv => hsub _ (h hv)
      | _ => exact fun hp => hreread (h hp)
  | postProcess f =>
      cases f with
      | config => exact fun hv => ⟨hsub _ (h hv).1, hreread (h hv).2⟩
      | _ => exact fun hp => hreread (h hp)
  | fanout f => cases f <;> exact fun hp => ⟨hsub _ (h hp).1, hreread (h hp).2⟩
  | sweep f =>
      cases f with
      | resendSend =>
          exact ⟨fun hpost => hsub _ (h.1 hpost), fun hp => hreread (h.2 hp)⟩
      | _ => exact fun hp => hreread (h hp)
  | _ => exact fun hp => hreread (h hp)

/-- A step of a frame past the chain leaves memory read again. -/
theorem CarriesReread.reread_step
    (h : CarriesReread uuid7 since e f)
    (hpast : PastChain uuid7 f) :
    Reread uuid7 since (f.step e a).shared := by
  cases f with
  | advance f =>
      cases f with
      | storeUserData v userData =>
          obtain rfl : v = uuid7 := hpast
          exact reread_of_store (h rfl)
      | _ => exact hpast.elim
  | postProcess f =>
      cases f with
      | config => exact Reread.step (h hpast).2 (by simp [Frame.installs]) (by simp)
      | _ => exact Reread.step (h hpast) (by simp [Frame.installs]) (by simp)
  | fanout f =>
      cases f <;> exact Reread.step (h hpast).2 (by simp [Frame.installs]) (by simp)
  | sweep f =>
      cases f with
      | resendSend => exact Reread.step (h.2 hpast) (by simp [Frame.installs]) (by simp)
      | _ => exact Reread.step (h hpast) (by simp [Frame.installs]) (by simp)
  | resume f => exact Reread.step (h hpast) (by simp [Frame.installs]) (by simp)
  | _ => exact hpast.elim

/-- A refresh leaves the message with what it has read. -/
theorem carriesReread_refresh
    (hg : g ∈ ((Frame.advance (.refresh uuid7)).step e a).new) :
    CarriesReread uuid7 (rereadUserData uuid7 e a :: since)
      ((Frame.advance (.refresh uuid7)).step e a).shared g := by
  simp only [Frame.step, AdvanceFrame.step] at hg ⊢
  generalize hfound : (e.pipelineStates uuid7).filter (·.userUuid7 ≠ "") = found at hg ⊢
  -- without a lookup that finds something the state keeps what it had
  have hkept (hnone : (found.bind fun _ => a.userData) = none) :
      Reread uuid7 (rereadUserData uuid7 e a :: since) e := by
    intro state hstate
    have hreread : rereadUserData uuid7 e a = state.userData := by
      rw [rereadUserData, hfound, hnone, Option.mem_def.mp hstate]
      rfl
    rw [hreread]
    exact List.mem_cons_self ..
  cases found with
  | none =>
      simp only [new_go, List.mem_singleton] at hg
      subst hg
      exact fun _ => hkept rfl
  | some found =>
      cases hdata : a.userData with
      | none =>
          simp only [hdata, new_go, List.mem_singleton] at hg
          subst hg
          exact fun _ => hkept hdata
      | some userData =>
          simp only [hdata, new_go, List.mem_singleton] at hg
          subst hg
          intro _
          have hreread : rereadUserData uuid7 e a = some userData := by
            rw [rereadUserData, hfound, hdata]
            rfl
          rw [hreread]
          exact List.mem_cons_self ..

/-- A step without a refresh takes past the chain only what has been read again. -/
theorem PastReread.reread_new
    (h : PastReread uuid7 since s)
    (hok : LeavesCurrent uuid7 since s a f)
    (hsent : dispatched uuid7 s.shared ≠ [])
    (hf : f ∈ s.frames)
    (hrefresh : f ≠ .advance (.refresh uuid7))
    (hinstalls : f.installs ≠ some uuid7)
    (hg : g ∈ (f.step s.shared a).new)
    (hpast : PastChain uuid7 g) :
    Reread uuid7 since (f.step s.shared a).shared := by
  have hstep (hreread : Reread uuid7 since s.shared) :
      Reread uuid7 since (f.step s.shared a).shared := by
    refine hreread.step hinstalls fun userData hstore => ?_
    subst hstore
    exact h.tasks _ hf rfl
  rcases past_of_new hg hpast with hfp | rfl | ⟨state, rfl, hnone⟩ |
    ⟨len, rfl, state, hstate, hlen⟩ | hheld | ⟨entry, hentry, hpost⟩
  · exact (h.tasks f hf).reread_step hfp
  · exact absurd rfl hrefresh
  · exact hstep (hok rfl hnone hsent)
  · exact hstep (hok rfl state hstate hlen hsent)
  · exact hstep (h.held hheld)
  · exact hstep (h.pending entry hentry hpost)

/-- A step without a refresh hands on what has been read again. -/
theorem PastReread.carries_new
    (h : PastReread uuid7 since s)
    (hok : LeavesCurrent uuid7 since s a f)
    (hsent : dispatched uuid7 s.shared ≠ [])
    (hf : f ∈ s.frames)
    (hrefresh : f ≠ .advance (.refresh uuid7))
    (hinstalls : f.installs ≠ some uuid7)
    (hg : g ∈ (f.step s.shared a).new) :
    CarriesReread uuid7 since (f.step s.shared a).shared g := by
  have hreread := h.reread_new hok hsent hf hrefresh hinstalls hg
  have hcarried := h.tasks f hf
  have hexpired {sw : Sweep} {entry : PendingAck} {still : Bool}
      (hexp : Expires sw entry still g) :
      CarriesReread uuid7 since (f.step s.shared a).shared g := by
    rcases hexp.shape with ⟨_, rfl, -⟩ | ⟨_, rfl⟩ | rfl | ⟨_, rfl⟩ | rfl <;>
      exact hreread
  cases Frame.leads hg with
  | @refresh_store v userData =>
      rintro rfl
      exact absurd rfl hrefresh
  | @postProcess_config v state hstate =>
      rintro rfl
      exact ⟨hcarried rfl state hstate, hreread rfl⟩
  | postProcess_fanout => exact fun hp => ⟨(hcarried hp.1).1, hreread hp⟩
  | broadcast_fanout => exact fun hp => absurd hp.2 (by simp)
  | fanout_track _ _ => exact fun hp => ⟨(hcarried hp).1, hreread hp⟩
  | fanout_skip => exact fun hp => ⟨(hcarried hp).1, hreread hp⟩
  | fanout_send => exact fun hp => ⟨(hcarried hp).1, hreread hp⟩
  | @fanout_nobody fo _ => cases hst : fo.stage <;> rw [hst] at hreread <;> exact hreread
  | @sweep_resendSend sw entry still state hstate =>
      refine ⟨fun hpost => ?_, hreread⟩
      have hdata : (state.resendContainer entry.uuid7 entry.stage).userData =
          state.userData := by
        rw [hpost.2]
        rfl
      rw [hdata]
      exact hcarried (Or.inl hpost) state (by rw [← hpost.1]; exact hstate)
  | sweep_expire _ _ hexp => exact hexpired hexp
  | sweep_gone _ hexp => exact hexpired hexp
  | sweep_unsent _ hexp => exact hexpired hexp
  | @replay_hold v point held => cases point <;> exact hreread
  | _ => exact hreread

/-- What had been read again stays so after a step that puts no state back. -/
theorem PastReread.after
    (h : PastReread uuid7 since s)
    (hi : s.threads[i]? = some (f :: rest))
    (hsub : ∀ userData ∈ since, userData ∈ since')
    (hinstalls : f.installs ≠ some uuid7)
    (hnew : ∀ g ∈ (f.step s.shared a).new,
      CarriesReread uuid7 since' (f.step s.shared a).shared g) :
    PastReread uuid7 since' (afterRun s i a f rest) := by
  have hf := mem_frames_of_getElem? hi (List.mem_cons_self ..)
  have hstep (hreread : Reread uuid7 since s.shared) :
      Reread uuid7 since' (f.step s.shared a).shared :=
    Reread.mono hsub (hreread.step hinstalls fun userData hstore => by
      subst hstore
      exact h.tasks _ hf rfl)
  have hwaits
      (hwait : (uuid7, .postProcess) ∈ (f.step s.shared a).shared.pauseState.held ∨
        ∃ entry ∈ (f.step s.shared a).shared.ackTracker.pending,
          AwaitsPost uuid7 entry) :
      Reread uuid7 since' (f.step s.shared a).shared := by
    rcases awaited_before hwait with hfp | hheld | ⟨entry, hentry, hpost⟩
    · exact Reread.mono hsub ((h.tasks f hf).reread_step hfp)
    · exact hstep (h.held hheld)
    · exact hstep (h.pending entry hentry hpost)
  refine ⟨fun g hg => ?_, fun hheld => hwaits (Or.inl hheld),
    fun entry hentry hpost => hwaits (Or.inr ⟨entry, hentry, hpost⟩)⟩
  rcases mem_frames_after_run hi hg with hg | hg
  · exact hnew g hg
  · exact (h.tasks g hg).mono hsub hstep

/-- A message that is not past the chain stays so but for a refresh and the two exits
of `start_in_process`. -/
theorem not_past_after
    (h : ¬ Past uuid7 s)
    (hi : s.threads[i]? = some (f :: rest))
    (hrefresh : f ≠ .advance (.refresh uuid7))
    (hconfig : ∀ state, f ≠ .inProcess (.config uuid7 state))
    (hskip : ∀ len, f ≠ .inProcess (.skip uuid7 len)) :
    ¬ Past uuid7 (afterRun s i a f rest) := by
  intro hpast
  rcases past_before hi hpast with hpast | hf | ⟨state, hf⟩ | ⟨len, hf⟩
  · exact h hpast
  · exact hrefresh hf
  · exact hconfig state hf
  · exact hskip len hf

/-- No step starts a fanout of the in-process stage. -/
theorem noFanout_run
    (h : s.total (fansOut uuid7 .inProcess) = 0)
    (hi : s.threads[i]? = some (f :: rest)) :
    (afterRun s i a f rest).total (fansOut uuid7 .inProcess) = 0 := by
  have htotal := total_fire_run_le (P := engine) (fansOut uuid7 .inProcess)
    (o := f.step s.shared a) hi
  have hnew : ((f.step s.shared a).new.map (fansOut uuid7 .inProcess)).sum ≤
      fansOut uuid7 .inProcess f := by
    refine fansOut_new ?_
    cases f with
    | broadcast f => cases f <;> simp [StartsFanout]
    | postProcess f => cases f <;> simp [StartsFanout]
    | _ => exact id
  simp only [afterRun]
  omega

/-- The first dispatch to a module of the chain is made before the message is past
it. -/
theorem CurrentPast.sent_before
    (h : CurrentPast uuid7 since s)
    (hok : LeavesCurrent uuid7 since s a f)
    (hi : s.threads[i]? = some (f :: rest))
    (hsent : dispatched uuid7 (f.step s.shared a).shared ≠ []) :
    dispatched uuid7 s.shared ≠ [] ∨ ¬ Past uuid7 (afterRun s i a f rest) := by
  by_cases hsend : ∃ state m timeout len,
      f = .inProcess (.send uuid7 state m timeout len)
  · obtain ⟨state, m, timeout, len, rfl⟩ := hsend
    by_cases hout : a.permitted = true ∧ a.outcome = .sent
    · by_cases hpast : Past uuid7 s
      · exact Or.inl (hok rfl hout.1 hout.2 hpast)
      · exact Or.inr (not_past_after hpast hi (by simp) (by simp) (by simp))
    · have hsame : (Frame.step s.shared a
          (.inProcess (.send uuid7 state m timeout len))).shared = s.shared := by
        simp [Frame.step, InProcessFrame.step, hout]
      exact Or.inl (hsame ▸ hsent)
  · push Not at hsend
    have hfans : fansOut uuid7 .inProcess f = 0 := by
      have hle := le_total (fansOut uuid7 .inProcess)
        (mem_frames_of_getElem? hi (List.mem_cons_self ..))
      have hapart := h.apart
      omega
    exact Or.inl (dispatched_step hfans hsend ▸ hsent)

theorem CurrentPast.run
    (h : CurrentPast uuid7 since s)
    (hok : LeavesCurrent uuid7 since s a f)
    (hi : s.threads[i]? = some (f :: rest)) :
    CurrentPast uuid7 (noteReread uuid7 s (.run i a) since) (afterRun s i a f rest) := by
  refine ⟨noFanout_run h.apart hi, fun hsent' => ?_⟩
  have hf := mem_frames_of_getElem? hi (List.mem_cons_self ..)
  rcases h.sent_before hok hi hsent' with hsent | hnot
  · have hpast := h.past hsent
    rw [noteReread_run hi]
    by_cases hnotes : notesIn uuid7 f = true
    · obtain ⟨len, rfl⟩ := eq_of_notesIn hnotes
      have hnot : ¬ Past uuid7 s := fun hp => hsent (hok rfl hp)
      exact pastReread_of_not_past
        (not_past_after hnot hi (by simp) (by simp) (by simp))
    · rw [if_neg hnotes]
      by_cases hrefresh : refreshes uuid7 f = true
      · obtain rfl := eq_of_refreshes hrefresh
        rw [if_pos hrefresh]
        exact hpast.after hi (fun _ => List.mem_cons_of_mem _) (by simp [Frame.installs])
          fun g hg => carriesReread_refresh hg
      · rw [if_neg hrefresh]
        have hne : f ≠ .advance (.refresh uuid7) := by
          rintro rfl
          simp [refreshes] at hrefresh
        by_cases hinstalls : f.installs = some uuid7
        · have hnot : ¬ Past uuid7 s := by
            intro hp
            cases f with
            | ingest f =>
                cases f <;> simp only [Frame.installs, Option.some.injEq,
                  reduceCtorEq] at hinstalls
                exact hsent (hok hinstalls hp)
            | recovery f =>
                cases f <;> simp only [Frame.installs, Option.some.injEq,
                  reduceCtorEq] at hinstalls
                exact hsent (hok hinstalls hp)
            | _ => simp [Frame.installs] at hinstalls
          exact pastReread_of_not_past (not_past_after hnot hi hne
            (by rintro state rfl; simp [Frame.installs] at hinstalls)
            (by rintro len rfl; simp [Frame.installs] at hinstalls))
        · exact hpast.after hi (fun _ => id) hinstalls
            fun g hg => hpast.carries_new hok hsent hf hne hinstalls hg
  · exact pastReread_of_not_past hnot

/-- A move of the world takes no message past the chain. -/
theorem CurrentPast.world
    {ev : WorldEvent}
    (h : CurrentPast uuid7 since s) :
    CurrentPast uuid7 since
      { shared := ev.effect s.shared, threads := s.threads ++ ev.starts } := by
  have hlog : (ev.effect s.shared).log = s.shared.log := by cases ev <;> rfl
  have hreread (hbefore : Reread uuid7 since s.shared) :
      Reread uuid7 since (ev.effect s.shared) := by
    cases ev <;> exact hbefore
  constructor
  · have hsum : (ev.starts.flatten.map (fansOut uuid7 .inProcess)).sum = 0 := by
      refine List.sum_eq_zero fun n hn => ?_
      obtain ⟨g, hg, rfl⟩ := List.mem_map.mp hn
      cases opens_of_mem hg <;> rfl
    rw [total_fire_world (r := (ev.effect s.shared, ev.starts)), hsum, Nat.add_zero]
    exact h.apart
  · intro hsent
    have hpast := h.past (by simpa only [dispatched, hlog] using hsent)
    refine ⟨fun g hg => ?_, fun hheld => hreread (hpast.held ?_),
      fun entry hentry hpost => hreread (hpast.pending entry ?_ hpost)⟩
    · rcases mem_frames_after_world (r := (ev.effect s.shared, ev.starts)) hg with hg | hg
      · exact (hpast.tasks g hg).mono (fun _ => id) hreread
      · cases opens_of_mem hg <;> exact False.elim
    · cases ev <;> exact hheld
    · cases ev <;> exact hentry

theorem CurrentPast.fire
    {s' : EnginePool} {l : EngineLabel}
    (h : CurrentPast uuid7 since s)
    (hok : OnRun (LeavesCurrent uuid7 since) s l)
    (hfire : engine.fire s l = some s') :
    CurrentPast uuid7 (noteReread uuid7 s l since) s' := by
  cases l with
  | world ev =>
      obtain ⟨r, hr, rfl⟩ := fire_world_cases hfire
      obtain rfl := engine_event_eq hr
      exact h.world
  | run i a =>
      obtain ⟨f, rest, o, hi, ho, rfl⟩ := fire_run_cases hfire
      obtain rfl := engine_step_eq ho
      exact h.run (hok.top hi) hi

end Steps

/-- The container that the frame is sending to post-process modules of the message. -/
def Frame.postContainer (uuid7 : String) : Frame → Option ContainerForModule
  | .fanout (.send fo _) =>
      if fo.uuid7 = uuid7 ∧ fo.stage = .postProcess then some fo.container else none
  | .sweep (.resendSend _ entry _ container) =>
      if AwaitsPost uuid7 entry then some container else none
  | _ => none

theorem CarriesReread.container
    {uuid7 : String} {since : List (Option UserData)} {e : Engine} {f : Frame}
    {container : ContainerForModule}
    (h : CarriesReread uuid7 since e f)
    (hsends : f.postContainer uuid7 = some container) :
    container.userData ∈ since := by
  cases f with
  | fanout f =>
      cases f with
      | send fo todo =>
          simp only [Frame.postContainer, Option.ite_none_right_eq_some,
            Option.some.injEq] at hsends
          obtain ⟨hp, rfl⟩ := hsends
          exact (h hp).1
      | track => simp [Frame.postContainer] at hsends
  | sweep f =>
      cases f with
      | resendSend sw entry still c =>
          simp only [Frame.postContainer, Option.ite_none_right_eq_some,
            Option.some.injEq] at hsends
          obtain ⟨hpost, rfl⟩ := hsends
          exact h.1 hpost
      | _ => simp [Frame.postContainer] at hsends
  | _ => simp [Frame.postContainer] at hsends

/-- **Main theorem.**  In a run that leaves the chain with current user data, what is
sent to post-process carries user data that was read again after the last module of
the chain had finished. -/
theorem postProcess_refreshed
    (uuid7 : String)
    (e : Engine)
    (hboot : e.log = [])
    {since : List (Option UserData)} {s : EnginePool}
    (hs : Ghosted engine (noteReread uuid7)
      (fun since => OnRun (LeavesCurrent uuid7 since)) [] (boot e) since s) :
    ∀ f ∈ s.frames, ∀ container ∈ f.postContainer uuid7,
      dispatched uuid7 s.shared ≠ [] → container.userData ∈ since := by
  have hstart : CurrentPast uuid7 [] (boot e) :=
    ⟨rfl, fun hsent => absurd (by simp [dispatched, boot, hboot]) hsent⟩
  have hend := hs.invariant hstart CurrentPast.fire
  intro f hf container hsends hsent
  exact ((hend.past hsent).tasks f hf).container hsends

/-- The score that the module of the chain has left the user with. -/
def scored : UserData :=
  { uuid := "u", username := "ann", cssProperties := [("--score", "7")] }

/-- The message is sent to the only module of the chain, which answers; the display
is not told that it has got it, and gets it again. -/
def answeredOnce : List EngineLabel :=
  .world (.ingest { uuid7 := "m", rawMessage := "hi", userUuid7 := "u" }) ::
    List.replicate 13 (.run 0 {}) ++
  .world (.reply { uuid7 := "m", moduleName := "a", stage := .inProcess }) ::
    List.replicate 7 (.run 1 {}) ++
  .run 1 { userData := some scored } :: List.replicate 8 (.run 1 {}) ++
  .world (.tick 100000) :: .world .sweep :: List.replicate 5 (.run 2 {})

/-- What the display gets again has the score that the chain has left. -/
theorem postProcess_refreshed_answeredOnce :
    ∃ s, engine.exec (boot
          { config := { inProcessModules := ["a"], postProcessModules := ["display"] } })
        answeredOnce = some s ∧
      ∃ f ∈ s.frames, ∃ container ∈ f.postContainer "m",
        container.userData = some scored := by
  obtain ⟨s, hrun, ⟨f, hf, hsome⟩, hsent⟩ := exec_any (P := engine)
    (Q := fun s => (∃ f ∈ s.frames, (f.postContainer "m").isSome) ∧
      dispatched "m" s.shared ≠ [])
    (boot { config := { inProcessModules := ["a"], postProcessModules := ["display"] } })
    answeredOnce (by decide +kernel)
  obtain ⟨container, hsends⟩ := Option.isSome_iff_exists.mp hsome
  have hreread := postProcess_refreshed "m" _ rfl
    (ghosted_of_allGhosted answeredOnce .start (by decide +kernel) hrun)
    f hf container hsends hsent
  have hsince : engine.ghost (noteReread "m") (boot
      { config := { inProcessModules := ["a"], postProcessModules := ["display"] } })
      [] answeredOnce = [some scored] := by decide +kernel
  rw [hsince, List.mem_singleton] at hreread
  exact ⟨s, hrun, f, hf, container, hsends, hreread⟩

/-- The first of two modules answers; the second is not connected. -/
def secondNotConnected : List EngineLabel :=
  .world (.ingest { uuid7 := "m", rawMessage := "hi", userUuid7 := "u" }) ::
    List.replicate 13 (.run 0 {}) ++
  .world (.reply { uuid7 := "m", moduleName := "a", stage := .inProcess }) ::
    List.replicate 11 (.run 1 {}) ++
  .run 1 { outcome := .notConnected } :: List.replicate 5 (.run 1 {})

/-- The message goes on to post-process with the user data of its ingest. -/
theorem secondNotConnected_not_refreshed :
    ¬ ∀ (uuid7 : String) (e : Engine) (ls : List EngineLabel) (s : EnginePool),
      e.log = [] →
      engine.exec (boot e) ls = some s →
      ∀ f ∈ s.frames, ∀ container ∈ f.postContainer uuid7,
        dispatched uuid7 s.shared ≠ [] →
        container.userData ∈ engine.ghost (noteReread uuid7) (boot e) [] ls := by
  intro h
  obtain ⟨s, hrun, ⟨f, hf, hsome⟩, hsent⟩ := exec_any (P := engine)
    (Q := fun s => (∃ f ∈ s.frames, (f.postContainer "m").isSome) ∧
      dispatched "m" s.shared ≠ [])
    (boot { config := { inProcessModules := ["a", "b"] } }) secondNotConnected
    (by decide +kernel)
  obtain ⟨container, hsends⟩ := Option.isSome_iff_exists.mp hsome
  have hreread := h "m" _ secondNotConnected s rfl hrun f hf container hsends hsent
  have hsince : engine.ghost (noteReread "m")
      (boot { config := { inProcessModules := ["a", "b"] } }) [] secondNotConnected =
        [] := by decide +kernel
  rw [hsince] at hreread
  cases hreread

end CockatielEngine
