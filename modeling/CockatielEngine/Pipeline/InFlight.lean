import CockatielEngine.Pipeline.AlikeFor

/-!
# Pipeline: a message in flight, handler by handler

While a handler works on a message, the frame it stands at says what the message
can be owed: nothing on its way to a stage, entries of one stage only once it has
been sent there.  So a message that the gate holds owes no answer, and its row is
claimed by its in-memory state.

**Main result.**  A handler that finds a message tidy leaves it tidy.
-/

namespace CockatielEngine

open TaskPool

section Defs

variable (u : String) (e : Engine)

/-- Recovery passes over the message: it has a state, or no queued row. -/
def PassedOver : Prop :=
  e.pipelineStates u = none → e.timeline.loadQueuedMessage u = none

/-- The row of the message is there, and not for recovery to take. -/
structure Claimed : Prop where
  row : (e.timeline.row? u).isSome = true
  state : PassedOver u e

/-- Entries of one stage; the in-process stage has one at a time. -/
def OneStage (owed : List (Stage × String)) : Prop :=
  ∃ stage, (∀ x ∈ owed, x.1 = stage) ∧ (stage = .inProcess → owed.length ≤ 1)

/-- A message that no handler works on. -/
structure Tidy : Prop where
  oneStage : OneStage (e.ackTracker.owed u)
  claimed : e.ackTracker.owed u ≠ [] → Claimed u e

/-- A message that owes no answer and waits for nobody but the gate. -/
structure Waits : Prop where
  owed : e.ackTracker.owed u = []
  claimed : Claimed u e

/-- A message in a fanout. -/
structure FansOut (fo : Fanout) : Prop where
  stage : fo.stage ≠ .inProcess
  owed : ∀ x ∈ e.ackTracker.owed u, x.1 = fo.stage
  first : fo.sentAny = false → e.ackTracker.owed u = []
  claimed : Claimed u e

/-- A message that owes answers of one stage. -/
structure InStage : Prop where
  oneStage : OneStage (e.ackTracker.owed u)
  claimed : Claimed u e

/-- The message whose handler stands at the frame. -/
def TidyAt : Frame → Prop
  | .ingest (.insertEvent _) => Tidy u e
  | .ingest _ =>
      e.ackTracker.owed u = [] ∧ (e.timeline.row? u).isSome = true
  | .recovery (.insertState _ _) =>
      e.ackTracker.owed u = [] ∧ (e.timeline.row? u).isSome = true
  | .broadcast _ => Waits u e
  | .fanout (.send fo _) => FansOut u e fo
  | .fanout (.track fo _ _) => FansOut u e fo ∧ fo.sentAny = true
  | .inProcess _ => Waits u e
  | .postProcess _ => Waits u e
  | .terminal (.write _ _ _) =>
      OneStage (e.ackTracker.owed u) ∧ (e.timeline.row? u).isSome = true
  | .terminal _ => InStage u e
  | .reply (.check _) => Tidy u e
  | .reply _ => InStage u e
  | .advance _ => Waits u e
  | .audit _ => Tidy u e
  | _ => False

/-- The handler has the message in hand: it has found it in the engine, or has
brought it there. -/
def Frame.inHand : Frame → Bool
  | .ingest (.insertEvent _) => false
  | .reply (.check _) => false
  | .audit _ => false
  | _ => true

end Defs

section Facts

variable {u : String} {e e₁ e₂ : Engine}

theorem OneStage.nil : OneStage [] :=
  ⟨.preProcess, by simp, by simp⟩

theorem OneStage.filter
    {owed : List (Stage × String)} (h : OneStage owed)
    (p : Stage × String → Bool) :
    OneStage (owed.filter p) := by
  obtain ⟨stage, hstage, hone⟩ := h
  exact ⟨stage, fun x hx => hstage x (List.mem_filter.mp hx).1,
    fun hin => (List.length_filter_le _ _).trans (hone hin)⟩

theorem PassedOver.alike
    (h : PassedOver u e₁)
    (halike : AlikeFor u e₁ e₂) :
    PassedOver u e₂ := by
  intro hstate
  rw [← halike.state] at hstate
  rw [← halike.loadQueuedMessage]
  exact h hstate

theorem Claimed.alike (h : Claimed u e₁) (halike : AlikeFor u e₁ e₂) : Claimed u e₂ where
  row := halike.isSome_row ▸ h.row
  state := h.state.alike halike

theorem Tidy.alike (h : Tidy u e₁) (halike : AlikeFor u e₁ e₂) : Tidy u e₂ where
  oneStage := halike.owed ▸ h.oneStage
  claimed howed := (h.claimed (halike.owed ▸ howed)).alike halike

theorem Waits.alike (h : Waits u e₁) (halike : AlikeFor u e₁ e₂) : Waits u e₂ where
  owed := halike.owed ▸ h.owed
  claimed := h.claimed.alike halike

theorem Waits.inStage (h : Waits u e) : InStage u e where
  oneStage := h.owed ▸ OneStage.nil
  claimed := h.claimed

theorem InStage.tidy (h : InStage u e) : Tidy u e where
  oneStage := h.oneStage
  claimed _ := h.claimed

theorem loadQueuedMessage_eq_none_iff :
    e.timeline.loadQueuedMessage u = none ↔
      ∀ row, e.timeline.row? u = some row → row.pipelineStatus ≠ .queued := by
  cases hrow : e.timeline.row? u <;> simp [Timeline.loadQueuedMessage, hrow]

/-- A message with a row is claimed by its state. -/
theorem claimed_putState
    (hrow : (e.timeline.row? u).isSome = true)
    (s : PipelineState) :
    Claimed u (e.putState u (some s)) where
  row := hrow
  state hstate := by simp [Engine.putState] at hstate

theorem Claimed.modifyState (h : Claimed u e) (f : PipelineState → PipelineState) :
    Claimed u (e.modifyState u f) where
  row := h.row
  state hstate := h.state (by simpa [Engine.modifyState, Engine.putState] using hstate)

/-- Writing a row does not put it back into the queue. -/
theorem Claimed.written
    (h : Claimed u e) {g : Row → Row}
    (hg : ∀ row, (g row).pipelineStatus = .queued → row.pipelineStatus = .queued) :
    Claimed u { e with timeline := e.timeline.update u g } where
  row := by simpa using h.row
  state hstate := by
    have hnone := loadQueuedMessage_eq_none_iff.mp (h.state hstate)
    refine loadQueuedMessage_eq_none_iff.mpr fun row' hrow' hqueued => ?_
    obtain ⟨row, hrow, rfl⟩ : ∃ row, e.timeline.row? u = some row ∧ g row = row' := by
      simpa using hrow'
    exact hnone row hrow (hg row hqueued)

/-- A row that has left the queue is not for recovery. -/
theorem claimed_of_written
    (hrow : (e.timeline.row? u).isSome = true) {g : Row → Row}
    (hg : ∀ row, (g row).pipelineStatus ≠ .queued) :
    Claimed u { e with timeline := e.timeline.update u g } where
  row := by simpa using hrow
  state _ := by
    refine loadQueuedMessage_eq_none_iff.mpr fun row' hrow' => ?_
    obtain ⟨row, -, rfl⟩ : ∃ row, e.timeline.row? u = some row ∧ g row = row' := by
      simpa using hrow'
    exact hg row

theorem status_writeTerminalOutcome_ending
    (ending : Ending) (result : PipelineResult) (now : Nat) (row : Row) :
    (row.writeTerminalOutcome ending.outcome result now).pipelineStatus ≠ .queued := by
  cases ending with
  | complete =>
      by_cases haudit : row.pipelineStatus = .audit <;>
        simp [Row.writeTerminalOutcome, Ending.outcome, PipelineOutcome.status, haudit]
  | _ => simp [Row.writeTerminalOutcome, Ending.outcome, PipelineOutcome.status]

end Facts

section Steps

variable (u : String)

/-- What the step of a frame leaves of the message. -/
def LeavesTidy (f : Frame) (o : Outcome Engine Frame) : Prop :=
  ∀ fs, o.next = some fs →
    (∀ g ∈ fs, TidyAt u o.shared g) ∧
      (fs = [] → Tidy u o.shared ∧ (f.inHand = true → Claimed u o.shared))

variable {u}
variable {e : Engine} {a : Answer} {f g : Frame}

theorem leavesTidy_fail : LeavesTidy u f (fail e) := by
  intro fs hfs
  cases hfs

theorem leavesTidy_one (h : TidyAt u e g) : LeavesTidy u f (go e [g]) := by
  rintro fs ⟨⟩
  exact ⟨by simpa using h, by simp⟩

theorem leavesTidy_nil (h : InStage u e) : LeavesTidy u f (go e []) := by
  rintro fs ⟨⟩
  exact ⟨by simp, fun _ => ⟨h.tidy, fun _ => h.claimed⟩⟩

/-- A handler that has not got hold of the message leaves it as it was. -/
theorem leavesTidy_unheld
    (h : Tidy u e)
    (hf : f.inHand = false) :
    LeavesTidy u f (go e []) := by
  rintro fs ⟨⟩
  exact ⟨by simp, fun _ => ⟨h, by simp [hf]⟩⟩

/-- A row that is updated is still there. -/
theorem isSome_row_update
    {t : Timeline} {v : String} {g : Row → Row}
    (h : (t.row? u).isSome = true) :
    ((t.update v g).row? u).isSome = true := by
  rw [Timeline.row?_update]
  split
  · simpa using h
  · exact h

theorem leavesTidy_afterCommand
    {msg : PipelineMessage}
    (howed : e.ackTracker.owed u = [])
    (hrow : (e.timeline.row? u).isSome = true) :
    LeavesTidy u f (go e (IngestFrame.afterCommand msg)) := by
  unfold IngestFrame.afterCommand
  split
  · exact leavesTidy_one ⟨howed, hrow⟩
  · exact leavesTidy_one ⟨howed, hrow⟩

theorem IngestFrame.leavesTidy
    {f : IngestFrame}
    (hf : (Frame.ingest f).about = some u)
    (h : TidyAt u e (.ingest f)) :
    LeavesTidy u (.ingest f) (f.step e a) := by
  cases f with
  | insertEvent msg =>
      obtain rfl : msg.uuid7 = u := Option.some.inj hf
      simp only [IngestFrame.step]
      split
      · cases hins : e.timeline.insertEvent msg.uuid7 (IngestFrame.row msg) with
        | none => exact leavesTidy_fail
        | some t =>
            have hnone : (e.timeline.row? msg.uuid7).isSome = false := by
              by_contra hsome
              simp [Timeline.insertEvent, hsome] at hins
            have howed : e.ackTracker.owed msg.uuid7 = [] := by
              by_contra howed
              simp [(h.claimed howed).row] at hnone
            have hrow : (t.row? msg.uuid7).isSome = true := by
              simp [Timeline.row?_insertEvent hins]
            dsimp only
            split
            · exact leavesTidy_one ⟨howed, hrow⟩
            · exact leavesTidy_afterCommand howed hrow
      · exact leavesTidy_fail
  | setCommand msg command =>
      obtain ⟨howed, hrow⟩ := h
      simp only [IngestFrame.step]
      split
      · exact leavesTidy_afterCommand howed (isSome_row_update hrow)
      · exact leavesTidy_fail
  | setUserUuid msg =>
      obtain ⟨howed, hrow⟩ := h
      simp only [IngestFrame.step]
      split
      · exact leavesTidy_one ⟨howed, isSome_row_update hrow⟩
      · exact leavesTidy_fail
  | insertState msg =>
      obtain rfl : msg.uuid7 = u := Option.some.inj hf
      exact leavesTidy_one ⟨h.1, claimed_putState h.2 _⟩

theorem BroadcastFrame.leavesTidy
    {f : BroadcastFrame}
    (h : Waits u e) :
    LeavesTidy u (.broadcast f) (f.step e) := by
  cases f with
  | enter v =>
      simp only [BroadcastFrame.step]
      split
      · exact leavesTidy_nil ⟨h.owed ▸ OneStage.nil, h.claimed.row, h.claimed.state⟩
      · exact leavesTidy_one h
  | load v =>
      simp only [BroadcastFrame.step]
      split
      · exact leavesTidy_nil h.inStage
      · exact leavesTidy_one h
  | config v state =>
      refine leavesTidy_one ⟨?_, ?_, ?_, ?_⟩
      · exact Stage.noConfusion
      · simp [h.owed]
      · simp [h.owed]
      · exact h.claimed

theorem FansOut.inStage {fo : Fanout} (h : FansOut u e fo) : InStage u e where
  oneStage := ⟨fo.stage, h.owed, fun hin => absurd hin h.stage⟩
  claimed := h.claimed

theorem FanoutFrame.leavesTidy
    {f : FanoutFrame}
    (hf : (Frame.fanout f).about = some u)
    (h : TidyAt u e (.fanout f)) :
    LeavesTidy u (.fanout f) (f.step e a) := by
  cases f with
  | send fo todo =>
      have hfans : FansOut u e fo := h
      cases todo with
      | nil =>
          simp only [FanoutFrame.step]
          split
          · exact leavesTidy_nil hfans.inStage
          · rename_i hnone
            have hwaits : Waits u (e.logged (.left fo.uuid7 fo.stage)) :=
              ⟨hfans.first (by simpa using hnone), hfans.claimed.row, hfans.claimed.state⟩
            refine leavesTidy_one ?_
            obtain ⟨v, stage, container, ackTimeoutMs, sentAny⟩ := fo
            cases stage with
            | preProcess => exact hwaits
            | inProcess => exact absurd rfl hfans.stage
            | postProcess => exact hwaits.inStage
      | cons moduleName todo =>
          simp only [FanoutFrame.step]
          split
          · exact leavesTidy_one ⟨⟨hfans.stage, hfans.owed, by simp,
              hfans.claimed.row, hfans.claimed.state⟩, rfl⟩
          · exact leavesTidy_one hfans
  | track fo moduleName todo =>
      obtain rfl : fo.uuid7 = u := Option.some.inj hf
      obtain ⟨hfans, hsent⟩ := h
      refine leavesTidy_one ⟨hfans.stage, ?_, by simp [hsent],
        hfans.claimed.row, hfans.claimed.state⟩
      intro x hx
      rw [owed_track, if_pos rfl] at hx
      rcases List.mem_append.mp hx with hx | hx
      · exact hfans.owed x hx
      · rw [List.mem_singleton.mp hx]

theorem InProcessFrame.leavesTidy
    {f : InProcessFrame}
    (hf : (Frame.inProcess f).about = some u)
    (h : Waits u e) :
    LeavesTidy u (.inProcess f) (f.step e a) := by
  cases f with
  | enter v =>
      simp only [InProcessFrame.step]
      split
      · exact leavesTidy_nil ⟨h.owed ▸ OneStage.nil, h.claimed.row, h.claimed.state⟩
      · exact leavesTidy_one h
  | audit v =>
      simp only [InProcessFrame.step]
      split
      · split
        · exact leavesTidy_nil h.inStage
        · exact leavesTidy_one h
      · exact leavesTidy_fail
  | load v =>
      obtain rfl : v = u := Option.some.inj hf
      simp only [InProcessFrame.step]
      split
      · exact leavesTidy_nil h.inStage
      · exact leavesTidy_one ⟨h.owed, claimed_putState h.claimed.row _⟩
  | config v state =>
      simp only [InProcessFrame.step]
      split
      · exact leavesTidy_one h
      · split
        · exact leavesTidy_one h
        · exact leavesTidy_one h
  | send v state moduleName ackTimeoutMs len =>
      simp only [InProcessFrame.step]
      split
      · exact leavesTidy_one ⟨h.owed, h.claimed.row, h.claimed.state⟩
      · exact leavesTidy_one h
  | track v moduleName ackTimeoutMs =>
      refine leavesTidy_nil ⟨?_, h.claimed.row, h.claimed.state⟩
      rw [owed_track, h.owed]
      split
      · exact ⟨.inProcess, by simp, by simp⟩
      · exact OneStage.nil
  | skip v len =>
      obtain rfl : v = u := Option.some.inj hf
      simp only [InProcessFrame.step]
      split
      · exact leavesTidy_nil h.inStage
      · split <;> exact leavesTidy_one ⟨h.owed, claimed_putState h.claimed.row _⟩

theorem PostProcessFrame.leavesTidy
    {f : PostProcessFrame}
    (hf : (Frame.postProcess f).about = some u)
    (h : Waits u e) :
    LeavesTidy u (.postProcess f) (f.step e a) := by
  cases f with
  | enter v =>
      simp only [PostProcessFrame.step]
      split
      · exact leavesTidy_nil ⟨h.owed ▸ OneStage.nil, h.claimed.row, h.claimed.state⟩
      · exact leavesTidy_one h
  | audit v =>
      simp only [PostProcessFrame.step]
      split
      · split
        · exact leavesTidy_nil h.inStage
        · exact leavesTidy_one h
      · exact leavesTidy_fail
  | load v =>
      obtain rfl : v = u := Option.some.inj hf
      simp only [PostProcessFrame.step]
      split
      · exact leavesTidy_nil h.inStage
      · exact leavesTidy_one ⟨h.owed, claimed_putState h.claimed.row _⟩
  | config v state =>
      refine leavesTidy_one ⟨?_, ?_, ?_, ?_⟩
      · exact Stage.noConfusion
      · simp [h.owed]
      · simp [h.owed]
      · exact h.claimed

theorem TerminalFrame.leavesTidy
    {f : TerminalFrame}
    (hf : (Frame.terminal f).about = some u)
    (h : TidyAt u e (.terminal f)) :
    LeavesTidy u (.terminal f) (f.step e a) := by
  cases f with
  | check v ending =>
      simp only [TerminalFrame.step]
      split
      · split
        · exact leavesTidy_one h
        · exact leavesTidy_one h
      · exact leavesTidy_fail
  | snapshot v => exact leavesTidy_one h
  | writeHeld v result =>
      obtain rfl : v = u := Option.some.inj hf
      simp only [TerminalFrame.step]
      split
      · refine leavesTidy_nil ⟨h.oneStage, h.claimed.written fun row hqueued => ?_⟩
        simpa [Row.writeTerminalOutcome, PipelineOutcome.status] using hqueued
      · exact leavesTidy_fail
  | take v ending =>
      obtain rfl : v = u := Option.some.inj hf
      simp only [TerminalFrame.step]
      split
      · exact leavesTidy_nil h
      · exact leavesTidy_one ⟨h.oneStage, h.claimed.row⟩
      · exact leavesTidy_one ⟨h.oneStage, h.claimed.row⟩
  | write v ending result =>
      obtain rfl : v = u := Option.some.inj hf
      obtain ⟨hstage, hrow⟩ := h
      simp only [TerminalFrame.step]
      split
      · exact leavesTidy_one ⟨hstage, claimed_of_written hrow fun row =>
          status_writeTerminalOutcome_ending ending result e.now row⟩
      · exact leavesTidy_fail
  | ack v =>
      obtain rfl : v = u := Option.some.inj hf
      refine leavesTidy_nil ⟨?_, h.claimed.row, h.claimed.state⟩
      simp [Engine.logged, owed_ack, OneStage.nil]

/-- The module that owes the in-process answer owes the only one. -/
theorem OneStage.filter_eq_nil
    {owed : List (Stage × String)} {moduleName : String} {x : Stage × String}
    (h : OneStage owed)
    (hfind : owed.find? (·.2 = moduleName) = some x)
    (hin : x.1 = .inProcess) :
    owed.filter (·.2 ≠ moduleName) = [] := by
  obtain ⟨stage, hstage, hone⟩ := h
  have hx := List.mem_of_find?_eq_some hfind
  have hlength := hone ((hstage x hx).symm.trans hin)
  obtain ⟨y, rfl⟩ : ∃ y, owed = [y] := by
    refine List.length_eq_one_iff.mp (le_antisymm hlength ?_)
    exact List.length_pos_of_mem hx
  obtain rfl := List.mem_singleton.mp hx
  simpa using List.find?_some hfind

theorem leavesTidy_ackModule
    {moduleName : String} {len : Nat}
    (h : InStage u e) :
    LeavesTidy u f ((ReplyFrame.ackModule u moduleName len).step e) := by
  have hanswer := ackModule_answer e.ackTracker e.now u moduleName
  have howed := owed_ackModule e.ackTracker e.now u u moduleName
  rw [if_pos rfl] at howed
  simp only [ReplyFrame.step]
  rcases hack : e.ackTracker.ackModule e.now u moduleName with
    ⟨_ | ⟨stage, elapsed, still⟩, t⟩
  · exact leavesTidy_nil h
  · rw [hack] at hanswer howed
    obtain ⟨x, hfind, hx⟩ := Option.map_eq_some_iff.mp hanswer.symm
    obtain ⟨hstage, hstill⟩ := Prod.mk.inj hx
    have hacked (log : List Event) :
        InStage u { e with ackTracker := t, log := log } :=
      ⟨howed ▸ h.oneStage.filter _, h.claimed.row, h.claimed.state⟩
    cases stage with
    | preProcess =>
        cases still with
        | true => exact leavesTidy_nil (hacked _)
        | false =>
            have hnone : t.owed u = [] := by
              rw [howed]
              simpa using hstill
            exact leavesTidy_one ⟨hnone, h.claimed.row, h.claimed.state⟩
    | inProcess =>
        exact leavesTidy_one ⟨howed.trans (h.oneStage.filter_eq_nil hfind hstage),
          h.claimed.row, h.claimed.state⟩
    | postProcess =>
        cases still with
        | true => exact leavesTidy_nil (hacked _)
        | false => exact leavesTidy_one (hacked _)

theorem ReplyFrame.leavesTidy
    {f : ReplyFrame}
    (hf : (Frame.reply f).about = some u)
    (h : TidyAt u e (.reply f)) :
    LeavesTidy u (.reply f) (f.step e) := by
  cases f with
  | check r =>
      obtain rfl : r.uuid7 = u := Option.some.inj hf
      have hsame : Tidy r.uuid7 (e.logged (.replyTaken r.uuid7 r.stage r.moduleName
          (e.ackTracker.isPendingFor r.uuid7 r.moduleName r.stage))) :=
        ⟨h.oneStage, fun howed => ⟨(h.claimed howed).row, (h.claimed howed).state⟩⟩
      simp only [ReplyFrame.step]
      split
      · rename_i howns
        have howed : e.ackTracker.owed r.uuid7 ≠ [] :=
          List.ne_nil_of_mem (isPendingFor_iff_owed.mp howns)
        exact leavesTidy_one ⟨hsame.oneStage, hsame.claimed howed⟩
      · exact leavesTidy_unheld hsame rfl
  | record r =>
      obtain rfl : r.uuid7 = u := Option.some.inj hf
      exact leavesTidy_one ⟨h.oneStage, h.claimed.modifyState _⟩
  | audio r =>
      obtain rfl : r.uuid7 = u := Option.some.inj hf
      have hstored : InStage r.uuid7 (e.modifyState r.uuid7
          (PipelineState.storeAudio r.stage.audioStage r.audioType r.audio)) :=
        ⟨h.oneStage, h.claimed.modifyState _⟩
      simp only [ReplyFrame.step]
      split
      · exact leavesTidy_one hstored
      · exact leavesTidy_one hstored
  | ackConfig v moduleName => exact leavesTidy_one h
  | ackModule v moduleName len =>
      obtain rfl : v = u := Option.some.inj hf
      exact leavesTidy_ackModule h
  | receipt v moduleName => cases hf

theorem AdvanceFrame.leavesTidy
    {f : AdvanceFrame}
    (hf : (Frame.advance f).about = some u)
    (h : Waits u e) :
    LeavesTidy u (.advance f) (f.step e a) := by
  cases f with
  | notePre v =>
      obtain rfl : v = u := Option.some.inj hf
      have hnoted := h.claimed.modifyState fun s =>
        { s with preProcessCompletedAt := some e.now }
      exact leavesTidy_one ⟨h.owed, hnoted.row, hnoted.state⟩
  | noteIn v len =>
      obtain rfl : v = u := Option.some.inj hf
      exact leavesTidy_one ⟨h.owed, h.claimed.modifyState _⟩
  | nextIndex v len =>
      obtain rfl : v = u := Option.some.inj hf
      simp only [AdvanceFrame.step]
      split
      · exact leavesTidy_nil h.inStage
      · split <;> exact leavesTidy_one ⟨h.owed, claimed_putState h.claimed.row _⟩
  | refresh v =>
      simp only [AdvanceFrame.step]
      split <;> exact leavesTidy_one h
  | storeUserData v userData =>
      obtain rfl : v = u := Option.some.inj hf
      exact leavesTidy_one ⟨h.owed, h.claimed.modifyState _⟩

theorem AuditFrame.leavesTidy
    {f : AuditFrame}
    (hf : (Frame.audit f).about = some u)
    (h : Tidy u e) :
    LeavesTidy u (.audit f) (f.step e a) := by
  cases f with
  | flag v reason =>
      simp only [AuditFrame.step]
      split
      · exact leavesTidy_unheld h rfl
      · exact leavesTidy_one h
  | mark v reason =>
      obtain rfl : v = u := Option.some.inj hf
      simp only [AuditFrame.step]
      split
      · refine leavesTidy_unheld ⟨h.oneStage, fun howed => ?_⟩ rfl
        have hmarked := (h.claimed howed).written
          (g := Row.writeTerminalOutcome (.audit reason) {} e.now)
          fun row hqueued => by
            simp [Row.writeTerminalOutcome, PipelineOutcome.status] at hqueued
        exact ⟨hmarked.row, hmarked.state⟩
      · exact leavesTidy_unheld h rfl
  | release v approve =>
      obtain rfl : v = u := Option.some.inj hf
      simp only [AuditFrame.step]
      split
      · split
        · refine leavesTidy_unheld ⟨h.oneStage, fun howed => ?_⟩ rfl
          have hreleased := (h.claimed howed).written
            (g := Row.releaseAudit approve e.now) fun row hqueued => by
              by_cases haudit : row.pipelineStatus = .audit
              · cases approve <;> simp [Row.releaseAudit, haudit] at hqueued
              · simpa [Row.releaseAudit, haudit] using hqueued
          exact ⟨hreleased.row, hreleased.state⟩
        · exact leavesTidy_unheld h rfl
      · exact leavesTidy_unheld h rfl

/-- A handler that finds a message tidy leaves it tidy, step by step. -/
theorem leavesTidy_step
    (hf : f.about = some u)
    (h : TidyAt u e f) :
    LeavesTidy u f (f.step e a) := by
  cases f with
  | ingest f => exact IngestFrame.leavesTidy hf h
  | recovery f =>
      cases f with
      | insertState v msg =>
          obtain rfl : v = u := Option.some.inj hf
          exact leavesTidy_one ⟨h.1, claimed_putState h.2 _⟩
      | _ => exact h.elim
  | broadcast f => exact BroadcastFrame.leavesTidy h
  | fanout f => exact FanoutFrame.leavesTidy hf h
  | inProcess f => exact InProcessFrame.leavesTidy hf h
  | postProcess f => exact PostProcessFrame.leavesTidy hf h
  | terminal f => exact TerminalFrame.leavesTidy hf h
  | reply f => exact ReplyFrame.leavesTidy hf h
  | advance f => exact AdvanceFrame.leavesTidy hf h
  | audit f => exact AuditFrame.leavesTidy hf h
  | _ => cases hf

/-- A handler that has the message in hand keeps it in hand. -/
theorem inHand_new
    (hf : f.about = some u)
    (hhand : f.inHand = true)
    (hg : g ∈ (f.step e a).new) :
    g.inHand = true := by
  cases Frame.leads hg with
  | @fanout_nobody fo _ => cases hstage : fo.stage <;> rfl
  | _ =>
      first
        | rfl
        | (cases hf; done)
        | simp [Frame.inHand] at hhand

/-- What works on a message leaves one frame at most. -/
theorem next_of_about
    {fs : List Frame}
    (hf : f.about = some u)
    (hnext : (f.step e a).next = some fs) :
    fs = [] ∨ ∃ g ∈ (f.step e a).new, fs = [g] := by
  refine next_of_no_loop (fun g hg hloop => ?_) hnext
  have habout := about_new hf hg
  cases g with
  | sweep => cases habout
  | resume => cases habout
  | recovery f => cases f <;> simp_all [Frame.about, Frame.IsLoop]
  | _ => exact hloop

end Steps

section Calls

variable {world : Frame → Answer} {u : String} {e e' : Engine} {f : Frame}

/-- A handler that finds a message tidy leaves it tidy, and what it has in
hand it leaves claimed. -/
theorem returns_tidy
    (h : Returns engine world e [f] e')
    (hf : f.about = some u)
    (hin : TidyAt u e f) :
    Tidy u e' ∧ (f.inHand = true → Claimed u e') := by
  have hinit : f.about = some u ∧ TidyAt u e f ∧
      (f.inHand = true → f.inHand = true) :=
    ⟨hf, hin, id⟩
  refine h.solo
    (fun s g => g.about = some u ∧ TidyAt u s g ∧ (f.inHand = true → g.inHand = true))
    (fun s => Tidy u s ∧ (f.inHand = true → Claimed u s)) ?_ hinit
  rintro s g o fs ⟨hg, hat, hhand⟩ hstep hnext
  obtain rfl := engine_step_eq hstep
  obtain ⟨hleaves, hends⟩ := leavesTidy_step (a := world g) hg hat fs hnext
  rcases next_of_about hg hnext with rfl | ⟨g', hg', rfl⟩
  · obtain ⟨htidy, hclaimed⟩ := hends rfl
    exact Or.inl ⟨rfl, htidy, fun hf => hclaimed (hhand hf)⟩
  · exact Or.inr ⟨g', rfl, about_new hg hg', hleaves g' (List.mem_singleton_self _),
      fun hf => inHand_new hg (hhand hf) hg'⟩

end Calls

end CockatielEngine
