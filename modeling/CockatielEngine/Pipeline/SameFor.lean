import CockatielEngine.Concurrency.Returns
import CockatielEngine.Pipeline.AuditFinal
import CockatielEngine.Pipeline.SweepErrors

/-!
# Pipeline: one message of many

The frames that drive a message read and write what the shared state holds of
that message, and nothing of the others.  So a call that drives a message comes
to the same in any two states that are the same for it, and leaves every other
message as it was.
-/

namespace CockatielEngine

open TaskPool

section Views

/-- Two states that are the same for one message. -/
structure SameFor (uuid7 : String) (e₁ e₂ : Engine) : Prop where
  clock : e₁.clock = e₂.clock
  config : e₁.config = e₂.config
  registry : e₁.commandRegistry = e₂.commandRegistry
  gate : e₁.pauseState.isGated = e₂.pauseState.isGated
  state : e₁.pipelineStates uuid7 = e₂.pipelineStates uuid7
  row : e₁.timeline.row? uuid7 = e₂.timeline.row? uuid7
  entries : e₁.ackTracker.entries uuid7 = e₂.ackTracker.entries uuid7

namespace SameFor

variable {u v : String} {e e₁ e₂ e₃ : Engine}

theorem refl (e : Engine) : SameFor u e e :=
  ⟨rfl, rfl, rfl, rfl, rfl, rfl, rfl⟩

theorem symm (h : SameFor u e₁ e₂) : SameFor u e₂ e₁ :=
  ⟨h.clock.symm, h.config.symm, h.registry.symm, h.gate.symm, h.state.symm, h.row.symm,
    h.entries.symm⟩

theorem trans (h : SameFor u e₁ e₂) (h' : SameFor u e₂ e₃) : SameFor u e₁ e₃ :=
  ⟨h.clock.trans h'.clock, h.config.trans h'.config, h.registry.trans h'.registry,
    h.gate.trans h'.gate, h.state.trans h'.state, h.row.trans h'.row,
    h.entries.trans h'.entries⟩

theorem now (h : SameFor u e₁ e₂) : e₁.now = e₂.now :=
  congrArg Clock.now h.clock

theorem isAudited (h : SameFor u e₁ e₂) :
    e₁.timeline.isAudited u = e₂.timeline.isAudited u := by
  simp [Timeline.isAudited, h.row]

theorem logged_left (h : SameFor u e₁ e₂) (ev : Event) :
    SameFor u (e₁.logged ev) e₂ :=
  ⟨h.clock, h.config, h.registry, h.gate, h.state, h.row, h.entries⟩

theorem logged_right (h : SameFor u e₁ e₂) (ev : Event) :
    SameFor u e₁ (e₂.logged ev) :=
  (h.symm.logged_left ev).symm

theorem gated
    (h : SameFor u e₁ e₂) {s₁ s₂ : PauseState}
    (hs₁ : s₁.isGated = e₁.pauseState.isGated)
    (hs₂ : s₂.isGated = e₂.pauseState.isGated) :
    SameFor u { e₁ with pauseState := s₁ } { e₂ with pauseState := s₂ } :=
  { h with gate := by rw [hs₁, hs₂, h.gate] }

theorem putState (h : SameFor u e₁ e₂) (s : Option PipelineState) :
    SameFor u (e₁.putState u s) (e₂.putState u s) :=
  { h with state := by simp [Engine.putState] }

theorem modifyState (h : SameFor u e₁ e₂) (f : PipelineState → PipelineState) :
    SameFor u (e₁.modifyState u f) (e₂.modifyState u f) := by
  unfold Engine.modifyState
  rw [h.state]
  exact h.putState _

theorem written (h : SameFor u e₁ e₂) (f : Row → Row) :
    SameFor u { e₁ with timeline := e₁.timeline.update u f }
      { e₂ with timeline := e₂.timeline.update u f } :=
  { h with row := by simp [h.row] }

theorem tracked
    (h : SameFor u e₁ e₂) {t₁ t₂ : AckTracker}
    (hentries : t₁.entries u = t₂.entries u) :
    SameFor u { e₁ with ackTracker := t₁ } { e₂ with ackTracker := t₂ } :=
  { h with entries := hentries }

end SameFor

end Views

section Entries

variable (t : AckTracker) (u v : String)

/-- A new entry comes last among those of its message. -/
theorem entries_append (x : PendingAck) :
    AckTracker.entries { pending := t.pending ++ [x] } u =
      t.entries u ++ if x.uuid7 = u then [x] else [] := by
  simp [AckTracker.entries, List.filter_append, List.filter_singleton]

theorem entries_track (now : Nat) (stage : Stage) (moduleName : String) (ms : Nat) :
    (t.track now v stage moduleName ms).entries u =
      t.entries u ++
        if v = u then [⟨v, stage, moduleName, now, ms, false, 0⟩] else [] :=
  entries_append t u _

theorem entries_reTrack (now : Nat) (x : PendingAck) :
    (t.reTrack now x).entries u =
      t.entries u ++ if x.uuid7 = u then [AckTracker.freshEntry now x] else [] :=
  entries_append t u _

theorem entries_ack :
    (t.ack v).entries u = if v = u then [] else t.entries u := by
  unfold AckTracker.entries AckTracker.ack
  split
  · rename_i hv
    simp [hv]
  · rename_i hv
    rw [List.filter_filter]
    refine List.filter_congr fun x _ => ?_
    by_cases hx : x.uuid7 = u
    · simp [hx, Ne.symm hv]
    · simp [hx]

end Entries

section Steps

variable {u v : String} {e e₁ e₂ : Engine} {a : Answer} {f g : Frame}

/-- A frame that drives a message leaves frames that drive it. -/
theorem drives_works_new
    (hf : f.drives = true)
    (hw : WorksOn u f)
    (hg : g ∈ (f.step e a).new) :
    g.drives = true ∧ WorksOn u g := by
  cases Frame.leads hg with
  | @fanout_nobody fo _ =>
      cases hstage : fo.stage <;> exact ⟨rfl, hw⟩
  | _ => first | exact ⟨rfl, hw⟩ | simp [Frame.drives] at hf

namespace SameFor

/-- The two steps go on alike, in states that are the same for the message. -/
def Alike (u : String) (o₁ o₂ : Outcome Engine Frame) : Prop :=
  o₁.next = o₂.next ∧ SameFor u o₁.shared o₂.shared

theorem broadcast_alike
    {f : BroadcastFrame}
    (h : SameFor u e₁ e₂)
    (hw : WorksOn u (.broadcast f)) :
    Alike u ((Frame.broadcast f).step e₁ a) ((Frame.broadcast f).step e₂ a) := by
  cases f with
  | enter w =>
      simp only [Frame.step, BroadcastFrame.step, PauseState.holdIfGated, h.gate]
      cases e₂.pauseState.isGated with
      | true => exact ⟨rfl, h.gated rfl rfl⟩
      | false => exact ⟨rfl, h⟩
  | load w =>
      obtain rfl : w = u := hw
      simp only [Frame.step, BroadcastFrame.step, h.state]
      split <;> exact ⟨rfl, h⟩
  | config w state =>
      simp only [Frame.step, BroadcastFrame.step, h.config, h.registry]
      exact ⟨rfl, h⟩

theorem fanout_alike
    {f : FanoutFrame}
    (h : SameFor u e₁ e₂) :
    Alike u ((Frame.fanout f).step e₁ a) ((Frame.fanout f).step e₂ a) := by
  have hnow := h.now
  cases f with
  | send fo todo =>
      cases todo with
      | nil =>
          simp only [Frame.step, FanoutFrame.step]
          split
          · exact ⟨rfl, h⟩
          · exact ⟨rfl, (h.logged_left _).logged_right _⟩
      | cons moduleName todo =>
          simp only [Frame.step, FanoutFrame.step]
          split
          · exact ⟨rfl, (h.logged_left _).logged_right _⟩
          · exact ⟨rfl, h⟩
  | track fo moduleName todo =>
      refine ⟨rfl, h.tracked ?_⟩
      rw [entries_track, entries_track, h.entries, hnow]

theorem inProcess_alike
    {f : InProcessFrame}
    (h : SameFor u e₁ e₂)
    (hw : WorksOn u (.inProcess f)) :
    Alike u ((Frame.inProcess f).step e₁ a) ((Frame.inProcess f).step e₂ a) := by
  have hnow := h.now
  have haudited := h.isAudited
  cases f with
  | enter w =>
      simp only [Frame.step, InProcessFrame.step, PauseState.holdIfGated, h.gate]
      cases e₂.pauseState.isGated with
      | true => exact ⟨rfl, h.gated rfl rfl⟩
      | false => exact ⟨rfl, h⟩
  | audit w =>
      obtain rfl : w = u := hw
      simp only [Frame.step, InProcessFrame.step, haudited]
      split
      · split <;> exact ⟨rfl, h⟩
      · exact ⟨rfl, h⟩
  | load w =>
      obtain rfl : w = u := hw
      simp only [Frame.step, InProcessFrame.step, h.state]
      split
      · exact ⟨rfl, h⟩
      · exact ⟨rfl, h.putState _⟩
  | config w state =>
      simp only [Frame.step, InProcessFrame.step, h.config, h.registry]
      split
      · exact ⟨rfl, h⟩
      · split <;> exact ⟨rfl, h⟩
  | send w state moduleName ackTimeoutMs len =>
      simp only [Frame.step, InProcessFrame.step]
      split
      · exact ⟨rfl, (h.logged_left _).logged_right _⟩
      · exact ⟨rfl, h⟩
  | track w moduleName ackTimeoutMs =>
      refine ⟨rfl, h.tracked ?_⟩
      rw [entries_track, entries_track, h.entries, hnow]
  | skip w len =>
      obtain rfl : w = u := hw
      simp only [Frame.step, InProcessFrame.step, h.state]
      split
      · exact ⟨rfl, h⟩
      · exact ⟨rfl, h.putState _⟩

theorem postProcess_alike
    {f : PostProcessFrame}
    (h : SameFor u e₁ e₂)
    (hw : WorksOn u (.postProcess f)) :
    Alike u ((Frame.postProcess f).step e₁ a) ((Frame.postProcess f).step e₂ a) := by
  have haudited := h.isAudited
  cases f with
  | enter w =>
      simp only [Frame.step, PostProcessFrame.step, PauseState.holdIfGated, h.gate]
      cases e₂.pauseState.isGated with
      | true => exact ⟨rfl, h.gated rfl rfl⟩
      | false => exact ⟨rfl, h⟩
  | audit w =>
      obtain rfl : w = u := hw
      simp only [Frame.step, PostProcessFrame.step, haudited]
      split
      · split <;> exact ⟨rfl, h⟩
      · exact ⟨rfl, h⟩
  | load w =>
      obtain rfl : w = u := hw
      simp only [Frame.step, PostProcessFrame.step, h.state]
      split
      · exact ⟨rfl, h⟩
      · exact ⟨rfl, h.putState _⟩
  | config w state =>
      simp only [Frame.step, PostProcessFrame.step, h.config, h.registry]
      exact ⟨rfl, h⟩

theorem terminal_alike
    {f : TerminalFrame}
    (h : SameFor u e₁ e₂)
    (hw : WorksOn u (.terminal f)) :
    Alike u ((Frame.terminal f).step e₁ a) ((Frame.terminal f).step e₂ a) := by
  have hnow := h.now
  have haudited := h.isAudited
  cases f with
  | check w ending =>
      obtain rfl : w = u := hw
      simp only [Frame.step, TerminalFrame.step, haudited]
      split
      · split <;> exact ⟨rfl, h⟩
      · exact ⟨rfl, h⟩
  | snapshot w =>
      obtain rfl : w = u := hw
      simp only [Frame.step, TerminalFrame.step, h.state]
      exact ⟨rfl, h⟩
  | writeHeld w result =>
      obtain rfl : w = u := hw
      simp only [Frame.step, TerminalFrame.step, hnow]
      split
      · exact ⟨rfl, h.written _⟩
      · exact ⟨rfl, h⟩
  | take w ending =>
      obtain rfl : w = u := hw
      simp only [Frame.step, TerminalFrame.step, h.state]
      split
      · exact ⟨rfl, h⟩
      · exact ⟨rfl, h⟩
      · exact ⟨rfl, h.putState _⟩
  | write w ending result =>
      obtain rfl : w = u := hw
      simp only [Frame.step, TerminalFrame.step, hnow]
      split
      · exact ⟨rfl, h.written _⟩
      · exact ⟨rfl, h⟩
  | ack w =>
      refine ⟨rfl, ((h.tracked ?_).logged_left _).logged_right _⟩
      rw [entries_ack, entries_ack, h.entries]

theorem advance_alike
    {f : AdvanceFrame}
    (h : SameFor u e₁ e₂)
    (hw : WorksOn u (.advance f)) :
    Alike u ((Frame.advance f).step e₁ a) ((Frame.advance f).step e₂ a) := by
  have hnow := h.now
  cases f with
  | notePre w =>
      obtain rfl : w = u := hw
      simp only [Frame.step, AdvanceFrame.step, hnow]
      exact ⟨rfl, ((h.modifyState _).logged_left _).logged_right _⟩
  | noteIn w len =>
      obtain rfl : w = u := hw
      simp only [Frame.step, AdvanceFrame.step, hnow]
      exact ⟨rfl, h.modifyState _⟩
  | nextIndex w len =>
      obtain rfl : w = u := hw
      simp only [Frame.step, AdvanceFrame.step, h.state]
      split
      · exact ⟨rfl, h⟩
      · exact ⟨rfl, h.putState _⟩
  | refresh w =>
      obtain rfl : w = u := hw
      simp only [Frame.step, AdvanceFrame.step, h.state]
      split <;> exact ⟨rfl, h⟩
  | storeUserData w userData =>
      obtain rfl : w = u := hw
      exact ⟨rfl, h.modifyState _⟩

/-- What drives a message does the same in states that are the same for it. -/
theorem step
    (h : SameFor u e₁ e₂)
    (hf : f.drives = true)
    (hw : WorksOn u f) :
    (f.step e₁ a).next = (f.step e₂ a).next ∧
      SameFor u (f.step e₁ a).shared (f.step e₂ a).shared := by
  cases f with
  | broadcast f => exact h.broadcast_alike hw
  | fanout f => exact h.fanout_alike
  | inProcess f => exact h.inProcess_alike hw
  | postProcess f => exact h.postProcess_alike hw
  | terminal f => exact h.terminal_alike hw
  | advance f => exact h.advance_alike hw
  | _ => simp [Frame.drives] at hf

/-- What drives another message leaves a state the same for this one. -/
theorem other
    (hf : f.drives = true)
    (hw : ¬ WorksOn u f) :
    SameFor u (f.step e a).shared e where
  clock := by simp
  config := by simp
  registry := by simp
  gate := by
    cases htouch : f.touchesGate with
    | false => rw [Frame.step_pauseState e a htouch]
    | true =>
        rcases Frame.touchesGate_cases htouch with ⟨v, point, hhold⟩ | ⟨t, rfl⟩
        · rw [Frame.step_pauseState_hold e a hhold, PauseState.isGated_holdIfGated]
        · simp [Frame.drives] at hf
  state := Frame.step_pipelineStates e a (stateSubject_ne hw)
  row := by
    rcases Frame.step_row e a f u with hrow | ⟨msg, rfl, -⟩ | ⟨-, g, hg, -⟩
    · exact hrow
    · simp [Frame.drives] at hf
    · obtain ⟨f', rfl⟩ := rowUpdate_of_not_worksOn hw hg
      simp [Frame.drives] at hf
  entries := by
    cases htouch : f.touchesAcks with
    | false => rw [Frame.step_ackTracker e a htouch]
    | true =>
        cases f with
        | fanout f =>
            cases f with
            | send => simp [Frame.touchesAcks] at htouch
            | track fo moduleName todo =>
                simp [Frame.step, FanoutFrame.step, entries_track,
                  show fo.uuid7 ≠ u from hw]
        | inProcess f =>
            cases f with
            | track v moduleName ackTimeoutMs =>
                simp [Frame.step, InProcessFrame.step, entries_track,
                  show v ≠ u from hw]
            | _ => simp [Frame.touchesAcks] at htouch
        | terminal f =>
            cases f with
            | ack v =>
                simp [Frame.step, TerminalFrame.step, Engine.logged, entries_ack,
                  show v ≠ u from hw]
            | _ => simp [Frame.touchesAcks] at htouch
        | broadcast f => simp [Frame.touchesAcks] at htouch
        | postProcess f => simp [Frame.touchesAcks] at htouch
        | advance f => simp [Frame.touchesAcks] at htouch
        | _ => simp [Frame.drives] at hf

end SameFor

end Steps

section Drives

variable {world : Frame → Answer} {u v : String} {e e' e₁ e₂ e₁' e₂' : Engine} {f : Frame}

/-- What drives a message works on no other. -/
theorem worksOn_drives_iff
    (hf : f.drives = true)
    (hw : WorksOn u f) :
    WorksOn v f ↔ u = v := by
  cases f with
  | broadcast f => cases f <;> exact hw ▸ Iff.rfl
  | fanout f => cases f <;> exact hw ▸ Iff.rfl
  | inProcess f => cases f <;> exact hw ▸ Iff.rfl
  | postProcess f => cases f <;> exact hw ▸ Iff.rfl
  | terminal f => cases f <;> exact hw ▸ Iff.rfl
  | advance f => cases f <;> exact hw ▸ Iff.rfl
  | _ => simp [Frame.drives] at hf

/-- The frames of a drive, one step on. -/
theorem drives_works_next
    {o : Outcome Engine Frame} {fs : List Frame}
    (hf : f.drives = true ∧ WorksOn u f)
    (hstep : engine.step e f (world f) = some o)
    (hnext : o.next = some fs) :
    ∀ g ∈ fs, g.drives = true ∧ WorksOn u g := by
  intro g hg
  obtain rfl := engine_step_eq hstep
  refine drives_works_new (e := e) (a := world f) hf.1 hf.2 ?_
  simp [Outcome.new, hnext, hg]

/-- Driving a message leaves every other as it was. -/
theorem returns_other
    (h : Returns engine world e [f] e')
    (hf : f.drives = true)
    (hw : WorksOn v f)
    (hne : v ≠ u) :
    SameFor u e' e := by
  refine h.invariant (fun g => g.drives = true ∧ WorksOn v g) (SameFor u · e) ?_
    (by simp [hf, hw]) (.refl e)
  intro s g o fs hg hsame hstep hnext
  refine ⟨drives_works_next hg hstep hnext, ?_⟩
  obtain rfl := engine_step_eq hstep
  have hother : ¬ WorksOn u g := fun hu => hne ((worksOn_drives_iff hg.1 hg.2).mp hu)
  exact (SameFor.other hg.1 hother).trans hsame

/-- Driving a message comes to the same in states that are the same for it. -/
theorem returns_same
    (h₁ : Returns engine world e₁ [f] e₁')
    (h₂ : Returns engine world e₂ [f] e₂')
    (hf : f.drives = true)
    (hw : WorksOn u f)
    (hsame : SameFor u e₁ e₂) :
    SameFor u e₁' e₂' := by
  refine h₁.related (fun g => g.drives = true ∧ WorksOn u g) (SameFor u) ?_ h₂
    (by simp [hf, hw]) hsame
  intro s t g o o' fs hg hst hstep hstep' hnext
  refine ⟨drives_works_next hg hstep hnext, ?_⟩
  obtain rfl := engine_step_eq hstep
  obtain rfl := engine_step_eq hstep'
  have hboth := hst.step (a := world g) hg.1 hg.2
  exact ⟨hboth.1 ▸ hnext, hboth.2⟩

/-- Driving a message installs no state. -/
theorem returns_none
    (h : Returns engine world e [f] e')
    (hf : f.drives = true)
    (hnone : e.pipelineStates u = none) :
    e'.pipelineStates u = none := by
  refine h.invariant (·.drives = true) (·.pipelineStates u = none) ?_ (by simp [hf]) hnone
  intro s g o fs hg hs hstep hnext
  obtain rfl := engine_step_eq hstep
  refine ⟨fun g' hg' => drives_new (e := s) (a := world g) hg ?_, ?_⟩
  · simp [Outcome.new, hnext, hg']
  · refine Frame.step_pipelineStates_none s _ hs ?_
    cases g <;> simp [Frame.drives] at hg <;> simp [Frame.installs]

/-- The stage that a sweep took the message out of. -/
def Event.takesOut (u : String) : Event → Option Stage
  | .sweptOut v stage => if v = u then some stage else none
  | _ => none

/-- The stage that a sweep sent the message to once more. -/
def Event.sendsAgain (u : String) : Event → Option Stage
  | .resent v stage _ _ => if v = u then some stage else none
  | _ => none

/-- The stages that sweeps took the message out of, newest first. -/
def Engine.takenOut (e : Engine) (u : String) : List Stage :=
  e.log.filterMap (Event.takesOut u)

/-- The stages that sweeps sent the message to once more, newest first. -/
def Engine.sentAgain (e : Engine) (u : String) : List Stage :=
  e.log.filterMap (Event.sendsAgain u)

theorem takenOut_logged (ev : Event) :
    (e.logged ev).takenOut u = (ev.takesOut u).toList ++ e.takenOut u := by
  cases h : ev.takesOut u <;> simp [Engine.takenOut, Engine.logged, h]

theorem sentAgain_logged (ev : Event) :
    (e.logged ev).sentAgain u = (ev.sendsAgain u).toList ++ e.sentAgain u := by
  cases h : ev.sendsAgain u <;> simp [Engine.sentAgain, Engine.logged, h]

/-- Driving a message is no sweep. -/
theorem returns_records
    (h : Returns engine world e [f] e')
    (hf : f.drives = true) :
    e'.takenOut u = e.takenOut u ∧ e'.sentAgain u = e.sentAgain u := by
  refine h.invariant (·.drives = true)
    (fun s => s.takenOut u = e.takenOut u ∧ s.sentAgain u = e.sentAgain u) ?_
    (by simp [hf]) ⟨rfl, rfl⟩
  intro s g o fs hg hs hstep hnext
  obtain rfl := engine_step_eq hstep
  refine ⟨fun g' hg' => drives_new (e := s) (a := world g) hg ?_, ?_⟩
  · simp [Outcome.new, hnext, hg']
  · obtain ⟨evs, hlog, hevs⟩ := Frame.records s (world g) g
    have hnone : ∀ ev ∈ evs, ev.takesOut u = none ∧ ev.sendsAgain u = none := by
      intro ev hev
      cases hevs ev hev with
      | resent _ => simp [Frame.drives] at hg
      | sweptOut hsweep _ =>
          rcases hsweep with ⟨_, rfl⟩ | rfl | ⟨_, rfl⟩ <;> simp [Frame.drives] at hg
      | _ => exact ⟨rfl, rfl⟩
    have htaken : evs.filterMap (Event.takesOut u) = [] :=
      List.filterMap_eq_nil_iff.mpr fun ev hev => (hnone ev hev).1
    have hsent : evs.filterMap (Event.sendsAgain u) = [] :=
      List.filterMap_eq_nil_iff.mpr fun ev hev => (hnone ev hev).2
    simp only [Engine.takenOut, Engine.sentAgain] at hs ⊢
    rwa [hlog, List.filterMap_append, List.filterMap_append, htaken, hsent,
      List.nil_append, List.nil_append]

end Drives

end CockatielEngine
