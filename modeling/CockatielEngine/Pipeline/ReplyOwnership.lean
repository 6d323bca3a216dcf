import CockatielEngine.Pipeline.Successors

/-!
# Pipeline: no reply is lost

A module's receipt and its stage reply are matched against the table of pending
acks, which the dispatching task fills only after its send has completed.

**Main result.**  When a receipt or a reply that is due is handled after its
dispatch was tracked, and no ack, terminal path or sweep takes the entry or the
state that a module's reply still needs, then every receipt and reply that is due
is accepted, what a reply brings is recorded on the message's state, and a module
that has replied leaves no entry behind.
-/

namespace CockatielEngine

open TaskPool

/-- What an event says about the debt of a module for a stage message: a
dispatch creates it, a reply settles it. -/
def Event.debt (uuid7 : String) (stage : Stage) (moduleName : String) :
    Event → Option Bool
  | .sent v st m _ =>
      if v = uuid7 ∧ st = stage ∧ m = moduleName then some true else none
  | .replyTaken v st m _ =>
      if v = uuid7 ∧ st = stage ∧ m = moduleName then some false else none
  | _ => none

/-- The module has been sent the stage message and has not replied since. -/
def Owes (log : List Event) (uuid7 : String) (stage : Stage)
    (moduleName : String) : Bool :=
  (log.findSome? (Event.debt uuid7 stage moduleName)).getD false

/-- The ending is that of a message which a module has abandoned. -/
def Ending.isDrop : Ending → Bool
  | .dropped _ => true
  | .complete => false
  | .failed _ => false

namespace Frame

/-- The dispatch that a task has sent and is about to track. -/
def untracked : Frame → Option (String × Stage × String)
  | .fanout (.track fo moduleName _) => some (fo.uuid7, fo.stage, moduleName)
  | .inProcess (.track uuid7 moduleName _) => some (uuid7, .inProcess, moduleName)
  | _ => none

/-- The frame is handling a reply of the module, to the point where the pending
entry goes. -/
def handlesReply (uuid7 moduleName : String) : Frame → Bool
  | .reply (.record r) => r.uuid7 = uuid7 && r.moduleName = moduleName
  | .reply (.audio r) => r.uuid7 = uuid7 && r.moduleName = moduleName
  | .reply (.ackConfig v m) => v = uuid7 && m = moduleName
  | .reply (.ackModule v m _) => v = uuid7 && m = moduleName
  | .terminal (.check v (.dropped _)) => v = uuid7
  | .terminal (.take v (.dropped _)) => v = uuid7
  | .terminal (.write v (.dropped _) _) => v = uuid7
  | .terminal (.ack v) => v = uuid7
  | _ => false

/-- The frame goes on to send the message from the state that it has read, or to
record a reply on its state. -/
def usesState (uuid7 : String) : Frame → Bool
  | .broadcast (.config v _) => v = uuid7
  | .fanout (.send fo _) => fo.uuid7 = uuid7
  | .fanout (.track fo _ _) => fo.uuid7 = uuid7
  | .inProcess (.config v _) => v = uuid7
  | .inProcess (.send v _ _ _ _) => v = uuid7
  | .inProcess (.track v _ _) => v = uuid7
  | .postProcess (.config v _) => v = uuid7
  | .reply (.record r) => r.uuid7 = uuid7
  | .reply (.audio r) => r.uuid7 = uuid7
  | _ => false

/-- The frame belongs to a sweep that has drained an entry of the message. -/
def sweeps (uuid7 : String) : Frame → Bool
  | .sweep (.next sw) => sw.todo.any fun x => x.1.uuid7 = uuid7
  | .sweep (.resendLoad sw entry _) =>
      entry.uuid7 = uuid7 || sw.todo.any fun x => x.1.uuid7 = uuid7
  | .sweep (.resendSend sw entry _ _) =>
      entry.uuid7 = uuid7 || sw.todo.any fun x => x.1.uuid7 = uuid7
  | .sweep (.resendTrack sw entry) =>
      entry.uuid7 = uuid7 || sw.todo.any fun x => x.1.uuid7 = uuid7
  | _ => false

end Frame

/-- Some task stands between the send to a module and its `track`. -/
def Dispatching (s : EnginePool) (uuid7 : String) (stage : Stage)
    (moduleName : String) : Prop :=
  s.AtTop fun f => f.untracked = some (uuid7, stage, moduleName)

/-- Some task is handling a reply of the module. -/
def Handling (s : EnginePool) (uuid7 moduleName : String) : Prop :=
  s.AtTop fun f => f.handlesReply uuid7 moduleName = true

/-- Some task is sending the message, or recording a reply to it. -/
def UsingState (s : EnginePool) (uuid7 : String) : Prop :=
  s.AtTop fun f => f.usesState uuid7 = true

/-- No entry of the message is that of a module that still owes its reply. -/
def NoneOwed (uuid7 : String) (e : Engine) : Prop :=
  ∀ entry ∈ e.ackTracker.pending, entry.uuid7 = uuid7 →
    Owes e.log uuid7 entry.stage entry.moduleName = false

/-- A receipt or reply that is due comes after its dispatch was tracked, a reply
that is let through although it is not due finds the state there; an ack and a
terminal path take only entries of modules that have replied; a terminal path
takes the state only when nobody owes a reply or is at work with the state; a drop
goes through; and no sweep expires an entry of the message. -/
def HandledInOrder (uuid7 : String) (s : EnginePool) (a : Answer) :
    Frame → Prop
  | .reply (.check r) =>
      r.uuid7 = uuid7 →
        (Owes s.shared.log uuid7 r.stage r.moduleName = true →
          ¬ Dispatching s uuid7 r.stage r.moduleName) ∧
        (Owes s.shared.log uuid7 r.stage r.moduleName = false →
          s.shared.ackTracker.isPendingFor uuid7 r.moduleName r.stage = true →
          s.shared.pipelineStates uuid7 ≠ none)
  | .reply (.receipt v m) =>
      v = uuid7 → ∀ stage, Owes s.shared.log uuid7 stage m = true →
        ¬ Dispatching s uuid7 stage m
  | .reply (.ackModule v m _) =>
      v = uuid7 → ∀ entry ∈ s.shared.ackTracker.pending,
        entry.isFor uuid7 m = true →
        Owes s.shared.log uuid7 entry.stage m = false
  | .terminal (.check v (.dropped _)) =>
      v = uuid7 → a.dbOk = true ∧ s.shared.timeline.isAudited uuid7 = false
  | .terminal (.take v ending) =>
      v = uuid7 → NoneOwed uuid7 s.shared ∧ ¬ UsingState s uuid7 ∧
        (ending.isDrop = true → s.shared.pipelineStates uuid7 ≠ none)
  | .terminal (.write v (.dropped _) _) => v = uuid7 → a.dbOk = true
  | .terminal (.ack v) => v = uuid7 → NoneOwed uuid7 s.shared
  | .sweep (.drain _) =>
      ∀ entry ∈ s.shared.ackTracker.pending,
        entry.uuid7 = uuid7 → entry.expired s.shared.now = false
  | _ => True

/-- The state has the audio that a reply brings, under the type the reply gives
or the default one. -/
def PipelineState.HasAudio (r : StageReply) (state : PipelineState) : Prop :=
  state.audio = r.audio ∧ state.audioStage = r.stage.audioStage ∧
    state.audioType = (if r.audioType = "" then "audio/mpeg" else r.audioType) ∧
    "audio_type=" ++ state.audioType ∈ state.audioTypeMarkers

/-- A reply that is due goes on to be recorded; its text and then its audio are
put on the message's state, and the handler goes on to the ack or to the abandon;
an ack leaves no entry of its module; and a receipt that is due marks an entry of
its module. -/
def Accepts (uuid7 : String) (s : EnginePool) (a : Answer) : Frame → Prop
  | .reply (.check r) =>
      r.uuid7 = uuid7 →
        Owes s.shared.log uuid7 r.stage r.moduleName = true →
        .reply (.record r) ∈ ((Frame.reply (.check r)).step s.shared a).new
  | .reply (.record r) =>
      r.uuid7 = uuid7 →
        (∃ state ∈ ((Frame.reply (.record r)).step s.shared a).shared.pipelineStates
            uuid7, state.processedMessage = r.processedMessage) ∧
          .reply (.audio r) ∈ ((Frame.reply (.record r)).step s.shared a).new
  | .reply (.audio r) =>
      r.uuid7 = uuid7 →
        (∃ before ∈ s.shared.pipelineStates uuid7,
          ∃ state ∈ ((Frame.reply (.audio r)).step s.shared a).shared.pipelineStates
              uuid7,
            state.processedMessage = before.processedMessage ∧
              (r.audio ≠ [] → state.HasAudio r)) ∧
          (.reply (.ackConfig uuid7 r.moduleName) ∈
              ((Frame.reply (.audio r)).step s.shared a).new ∨
            .terminal (.check uuid7 (.dropped (abandonReason r.moduleName))) ∈
              ((Frame.reply (.audio r)).step s.shared a).new)
  | .reply (.ackModule v m len) =>
      v = uuid7 → ∀ entry ∈
        ((Frame.reply (.ackModule v m len)).step s.shared a).shared.ackTracker.pending,
          entry.isFor uuid7 m = false
  | .reply (.receipt v m) =>
      v = uuid7 → (∃ stage, Owes s.shared.log uuid7 stage m = true) →
        ∃ entry ∈
          ((Frame.reply (.receipt v m)).step s.shared a).shared.ackTracker.pending,
          entry.isFor uuid7 m = true ∧ entry.receiptReceived = true
  | _ => True

instance (s : EnginePool) (uuid7 : String) (stage : Stage) (m : String) :
    Decidable (Dispatching s uuid7 stage m) :=
  inferInstanceAs (Decidable (s.AtTop _))

instance (s : EnginePool) (uuid7 : String) : Decidable (UsingState s uuid7) :=
  inferInstanceAs (Decidable (s.AtTop _))

instance (uuid7 : String) (e : Engine) : Decidable (NoneOwed uuid7 e) :=
  inferInstanceAs (Decidable (∀ entry ∈ e.ackTracker.pending, _ → _))

instance (r : StageReply) : DecidablePred (PipelineState.HasAudio r) := fun _ =>
  inferInstanceAs (Decidable (_ ∧ _))

instance (uuid7 : String) (s : EnginePool) (a : Answer) (f : Frame) :
    Decidable (HandledInOrder uuid7 s a f) :=
  match f with
  | .terminal (.check _ (.dropped _)) => inferInstanceAs (Decidable (_ → _))
  | .terminal (.check _ .complete) => instDecidableTrue
  | .terminal (.check _ (.failed _)) => instDecidableTrue
  | .terminal (.take _ _) => inferInstanceAs (Decidable (_ → _ ∧ _))
  | .terminal (.write _ (.dropped _) _) => inferInstanceAs (Decidable (_ → _))
  | .terminal (.write _ .complete _) => instDecidableTrue
  | .terminal (.write _ (.failed _) _) => instDecidableTrue
  | .terminal (.ack _) => by unfold HandledInOrder; infer_instance
  | .reply (.check _) => by unfold HandledInOrder; infer_instance
  | .reply (.ackModule _ _ _) => by unfold HandledInOrder; infer_instance
  | .reply (.receipt _ _) => by unfold HandledInOrder; infer_instance
  | .sweep (.drain _) => by unfold HandledInOrder; infer_instance
  | .ingest _ | .recovery _ | .broadcast _ | .fanout _ | .inProcess _
  | .postProcess _ | .terminal (.snapshot _) | .terminal (.writeHeld _ _)
  | .reply (.record _) | .reply (.audio _) | .reply (.ackConfig _ _) | .advance _
  | .sweep .start | .sweep .config | .sweep (.next _) | .sweep (.resendLoad _ _ _)
  | .sweep (.resendSend _ _ _ _) | .sweep (.resendTrack _ _) | .gate _ | .resume _
  | .audit _ => instDecidableTrue

instance (uuid7 : String) (s : EnginePool) (a : Answer) (f : Frame) :
    Decidable (Accepts uuid7 s a f) := by
  unfold Accepts
  split <;> infer_instance

/-- A module that has replied leaves no entry behind: what is still pending is
owed, or its reply is being handled. -/
def NoneLeftBehind (uuid7 : String) (s : EnginePool) : Prop :=
  ∀ entry ∈ s.shared.ackTracker.pending, entry.uuid7 = uuid7 →
    Owes s.shared.log uuid7 entry.stage entry.moduleName = true ∨
      Handling s uuid7 entry.moduleName

/-- The invariant of an orderly run. -/
structure Orderly (uuid7 : String) (s : EnginePool) : Prop where
  waiting : s.Waiting Frame.IsLoop
  due : ∀ stage m, Owes s.shared.log uuid7 stage m = true →
    s.shared.ackTracker.isPendingFor uuid7 m stage = true ∨
      Dispatching s uuid7 stage m
  untracked : ∀ stage m, Dispatching s uuid7 stage m →
    Owes s.shared.log uuid7 stage m = true
  entries : NoneLeftBehind uuid7 s
  unswept : ∀ f ∈ s.frames, f.sweeps uuid7 = false
  inMemory : ∀ stage m, Owes s.shared.log uuid7 stage m = true →
    s.shared.pipelineStates uuid7 ≠ none
  inUse : UsingState s uuid7 → s.shared.pipelineStates uuid7 ≠ none

section Debts

variable {uuid7 : String} {stage : Stage} {m : String} {log : List Event}

/-- Events that neither dispatch nor reply leave the debts alone. -/
theorem owes_append
    {evs : List Event}
    (h : ∀ ev ∈ evs, ev.debt uuid7 stage m = none) :
    Owes (evs ++ log) uuid7 stage m = Owes log uuid7 stage m := by
  have hnone : evs.findSome? (Event.debt uuid7 stage m) = none :=
    List.findSome?_eq_none_iff.mpr h
  simp [Owes, List.findSome?_append, hnone]

theorem owes_sent
    (v : String) (st : Stage) (m' : String) (c : ContainerForModule) :
    Owes (.sent v st m' c :: log) uuid7 stage m =
      (decide (v = uuid7 ∧ st = stage ∧ m' = m) || Owes log uuid7 stage m) := by
  by_cases h : v = uuid7 ∧ st = stage ∧ m' = m <;>
    simp [Owes, Event.debt, h]

theorem owes_replyTaken
    (v : String) (st : Stage) (m' : String) (accepted : Bool) :
    Owes (.replyTaken v st m' accepted :: log) uuid7 stage m =
      (!decide (v = uuid7 ∧ st = stage ∧ m' = m) && Owes log uuid7 stage m) := by
  by_cases h : v = uuid7 ∧ st = stage ∧ m' = m <;>
    simp [Owes, Event.debt, h]

end Debts

section Steps

variable {uuid7 : String} {e : Engine} {a : Answer}

/-- Everything a step can do to a debt: leave it, create it by a send, or
settle it by a reply. -/
theorem owes_step (uuid7 : String) (f : Frame) (stage : Stage) (m : String) :
    Owes (f.step e a).shared.log uuid7 stage m = Owes e.log uuid7 stage m ∨
    (Owes (f.step e a).shared.log uuid7 stage m = true ∧
      ∃ g, (f.step e a).next = some [g] ∧
        g.untracked = some (uuid7, stage, m)) ∨
    (∃ r, f = .reply (.check r) ∧ r.uuid7 = uuid7 ∧ r.stage = stage ∧
      r.moduleName = m ∧
      Owes (f.step e a).shared.log uuid7 stage m = false) := by
  obtain ⟨evs, hlog, hevs⟩ := f.records e a
  by_cases hnone : ∀ ev ∈ evs, ev.debt uuid7 stage m = none
  · exact Or.inl (by rw [hlog, owes_append hnone])
  · push Not at hnone
    obtain ⟨ev, hev, hdebt⟩ := hnone
    cases hevs ev hev with
    | @fanout_sent fo moduleName todo hp hs =>
        obtain ⟨rfl, rfl, rfl⟩ : fo.uuid7 = uuid7 ∧ fo.stage = stage ∧
            moduleName = m := by
          by_contra hne
          simp [Event.debt, hne] at hdebt
        refine Or.inr (Or.inl ⟨?_,
          .fanout (.track { fo with sentAny := true } moduleName todo), ?_, rfl⟩)
        · simp [Frame.step, FanoutFrame.step, hp, hs, Engine.logged, owes_sent]
        · simp [Frame.step, FanoutFrame.step, hp, hs, go]
    | @inProcess_sent v state moduleName timeout len hp hs =>
        obtain ⟨rfl, rfl, rfl⟩ : v = uuid7 ∧ Stage.inProcess = stage ∧
            moduleName = m := by
          by_contra hne
          simp [Event.debt, hne] at hdebt
        refine Or.inr (Or.inl ⟨?_,
          .inProcess (.track v moduleName timeout), ?_, rfl⟩)
        · simp [Frame.step, InProcessFrame.step, hp, hs, Engine.logged, owes_sent]
        · simp [Frame.step, InProcessFrame.step, hp, hs, go]
    | @replyTaken r =>
        obtain ⟨hu, hst, hm⟩ : r.uuid7 = uuid7 ∧ r.stage = stage ∧
            r.moduleName = m := by
          by_contra hne
          simp [Event.debt, hne] at hdebt
        refine Or.inr (Or.inr ⟨r, rfl, hu, hst, hm, ?_⟩)
        simp [Frame.step, ReplyFrame.step, Engine.logged, owes_replyTaken, hu, hst,
          hm]
    | _ => simp [Event.debt] at hdebt

/-- An entry goes only by its module's ack, by the message's terminal path or
by a sweep that finds it expired. -/
theorem isPendingFor_step
    {f : Frame} {stage : Stage} {m : String}
    (h : e.ackTracker.isPendingFor uuid7 m stage = true) :
    (f.step e a).shared.ackTracker.isPendingFor uuid7 m stage = true ∨
    (∃ entry ∈ e.ackTracker.pending,
      entry.uuid7 = uuid7 ∧ entry.moduleName = m ∧ entry.stage = stage ∧
      ((∃ len, f = .reply (.ackModule uuid7 m len)) ∨
        f = .terminal (.ack uuid7) ∨
        (∃ cfg, f = .sweep (.drain cfg) ∧ entry.expired e.now = true))) := by
  obtain ⟨entry, hmem, hu, hm, hst⟩ := (AckTracker.isPendingFor_iff ..).mp h
  rcases Frame.mem_pending_of_mem e a (f := f) hmem with
    ⟨y, hy, hyx⟩ | hgone
  · refine Or.inl ((AckTracker.isPendingFor_iff ..).mpr ⟨y, hy, ?_⟩)
    rcases hyx with rfl | rfl | rfl <;> exact ⟨hu, hm, hst⟩
  · rw [hu, hm] at hgone
    exact Or.inr ⟨entry, hmem, hu, hm, hst, hgone⟩

theorem not_untracked_of_isLoop
    {d : String × Stage × String} :
    ∀ g : Frame, g.IsLoop → ¬ g.untracked = some d := by
  intro g hg h
  cases g with
  | fanout f => exact hg
  | inProcess f => exact hg
  | _ => simp [Frame.untracked] at h

/-- A frame that has a dispatch to track tracks it. -/
theorem isPendingFor_of_untracked
    {f : Frame} {stage : Stage} {m : String}
    (h : f.untracked = some (uuid7, stage, m)) :
    (f.step e a).shared.ackTracker.isPendingFor uuid7 m stage = true := by
  cases f with
  | fanout f =>
      cases f with
      | send => simp [Frame.untracked] at h
      | track fo moduleName todo =>
          obtain ⟨rfl, rfl, rfl⟩ : fo.uuid7 = uuid7 ∧ fo.stage = stage ∧
              moduleName = m := by simpa [Frame.untracked] using h
          refine (AckTracker.isPendingFor_iff ..).mpr
            ⟨_, (AckTracker.mem_track_iff ..).mpr (Or.inr rfl), rfl, rfl, rfl⟩
  | inProcess f =>
      cases f with
      | track v moduleName timeout =>
          obtain ⟨rfl, rfl, rfl⟩ : v = uuid7 ∧ Stage.inProcess = stage ∧
              moduleName = m := by simpa [Frame.untracked] using h
          refine (AckTracker.isPendingFor_iff ..).mpr
            ⟨_, (AckTracker.mem_track_iff ..).mpr (Or.inr rfl), rfl, rfl, rfl⟩
      | _ => simp [Frame.untracked] at h
  | _ => simp [Frame.untracked] at h

theorem usesState_of_untracked
    {f : Frame} {stage : Stage} {m : String}
    (h : f.untracked = some (uuid7, stage, m)) :
    f.usesState uuid7 = true := by
  cases f with
  | fanout f =>
      cases f with
      | send => simp [Frame.untracked] at h
      | track fo moduleName todo =>
          simpa [Frame.usesState] using (Prod.mk.inj (Option.some.inj h)).1
  | inProcess f =>
      cases f with
      | track v moduleName timeout =>
          simpa [Frame.usesState] using (Prod.mk.inj (Option.some.inj h)).1
      | _ => simp [Frame.untracked] at h
  | _ => simp [Frame.untracked] at h

theorem not_usesState_of_isLoop :
    ∀ g : Frame, g.IsLoop → ¬ g.usesState uuid7 = true := by
  intro g hg h
  cases g with
  | broadcast f => exact hg
  | fanout f => exact hg
  | inProcess f => exact hg
  | postProcess f => exact hg
  | reply f => exact hg
  | _ => simp [Frame.usesState] at h

theorem Expires.usesState
    {sw : Sweep} {entry : PendingAck} {still : Bool} {g : Frame}
    (h : Expires sw entry still g) :
    g.usesState uuid7 = false := by
  rcases h.shape with ⟨_, rfl, _⟩ | ⟨_, rfl⟩ | rfl | ⟨_, rfl⟩ | rfl <;> rfl

/-- What is at work with the state was so before, has just read the state, or is
a reply that was let through. -/
theorem usesState_new
    {f g : Frame}
    (hg : g ∈ (f.step e a).new)
    (h : g.usesState uuid7 = true) :
    f.usesState uuid7 = true ∨
    ((∃ state, e.pipelineStates uuid7 = some state) ∧
      ∀ ending, f ≠ .terminal (.take uuid7 ending)) ∨
    ∃ r, f = .reply (.check r) ∧ r.uuid7 = uuid7 ∧
      e.ackTracker.isPendingFor uuid7 r.moduleName r.stage = true := by
  have hread {v : String} {state : PipelineState}
      (hstate : e.pipelineStates v = some state) (hv : v = uuid7) :
      ∃ state, e.pipelineStates uuid7 = some state := ⟨state, hv ▸ hstate⟩
  cases Frame.leads hg with
  | broadcast_config hstate =>
      exact Or.inr (Or.inl ⟨hread hstate (by simpa [Frame.usesState] using h), by simp⟩)
  | inProcess_config hstate =>
      exact Or.inr (Or.inl ⟨hread hstate (by simpa [Frame.usesState] using h), by simp⟩)
  | postProcess_config hstate =>
      exact Or.inr (Or.inl ⟨hread hstate (by simpa [Frame.usesState] using h), by simp⟩)
  | reply_record howns =>
      have hr := of_decide_eq_true h
      exact Or.inr (Or.inr ⟨_, rfl, hr, hr ▸ howns⟩)
  | @fanout_nobody fo _ =>
      cases hstage : fo.stage <;>
        simp [FanoutFrame.nobody, hstage, Frame.usesState] at h
  | @replay_hold _ point _ =>
      cases point <;> simp [replayHold, Frame.usesState] at h
  | sweep_expire _ _ hexp => simp [hexp.usesState] at h
  | sweep_gone _ hexp => simp [hexp.usesState] at h
  | sweep_unsent _ hexp => simp [hexp.usesState] at h
  | _ => first | exact Or.inl h | simp [Frame.usesState] at h

theorem Expires.untracked
    {sw : Sweep} {entry : PendingAck} {still : Bool} {g : Frame}
    (h : Expires sw entry still g) :
    g.untracked = none := by
  rcases h.shape with ⟨_, rfl, _⟩ | ⟨_, rfl⟩ | rfl | ⟨_, rfl⟩ | rfl <;> rfl

theorem Expires.sweeps
    {sw : Sweep} {entry : PendingAck} {still : Bool} {g : Frame}
    (h : Expires sw entry still g)
    (hsw : (sw.todo.any fun x => x.1.uuid7 = uuid7) = false) :
    g.sweeps uuid7 = false := by
  rcases h.shape with ⟨sw', rfl, htodo⟩ | ⟨_, rfl⟩ | rfl | ⟨_, rfl⟩ | rfl
  · simpa [Frame.sweeps, htodo] using hsw
  all_goals rfl

/-- A dispatch that is to be tracked was sent from the state. -/
theorem usesState_of_untracked_new
    {f g : Frame} {stage : Stage} {m : String}
    (hg : g ∈ (f.step e a).new)
    (h : g.untracked = some (uuid7, stage, m)) :
    f.usesState uuid7 = true := by
  cases Frame.leads hg with
  | fanout_track =>
      have huses := usesState_of_untracked h
      exact huses
  | inProcess_track =>
      have huses := usesState_of_untracked h
      exact huses
  | @fanout_nobody fo _ =>
      cases hstage : fo.stage <;>
        simp [FanoutFrame.nobody, hstage, Frame.untracked] at h
  | @replay_hold _ point _ =>
      cases point <;> simp [replayHold, Frame.untracked] at h
  | sweep_expire _ _ hexp => simp [hexp.untracked] at h
  | sweep_gone _ hexp => simp [hexp.untracked] at h
  | sweep_unsent _ hexp => simp [hexp.untracked] at h
  | _ => simp [Frame.untracked] at h

/-- Only a send leaves a dispatch to be tracked. -/
theorem owes_of_untracked_new
    {f g : Frame} {stage : Stage} {m : String}
    (hg : g ∈ (f.step e a).new)
    (h : g.untracked = some (uuid7, stage, m)) :
    Owes (f.step e a).shared.log uuid7 stage m = true := by
  cases Frame.leads hg with
  | @fanout_track fo moduleName todo hp hs =>
      obtain ⟨rfl, rfl, rfl⟩ : fo.uuid7 = uuid7 ∧ fo.stage = stage ∧
          moduleName = m := by simpa [Frame.untracked] using h
      simp [Frame.step, FanoutFrame.step, hp, hs, Engine.logged, owes_sent]
  | @inProcess_track v state moduleName timeout len hp hs =>
      obtain ⟨rfl, rfl, rfl⟩ : v = uuid7 ∧ Stage.inProcess = stage ∧
          moduleName = m := by simpa [Frame.untracked] using h
      simp [Frame.step, InProcessFrame.step, hp, hs, Engine.logged, owes_sent]
  | sweep_expire _ _ hexp => simp [hexp.untracked] at h
  | sweep_gone _ hexp => simp [hexp.untracked] at h
  | sweep_unsent _ hexp => simp [hexp.untracked] at h
  | @fanout_nobody fo _ =>
      cases hstage : fo.stage <;>
        simp [FanoutFrame.nobody, hstage, Frame.untracked] at h
  | @replay_hold _ point _ =>
      cases point <;> simp [replayHold, Frame.untracked] at h
  | _ => simp [Frame.untracked] at h

/-- A sweep that drains no entry of the message goes on without one. -/
theorem sweeps_new
    {f g : Frame}
    (hf : f.sweeps uuid7 = false)
    (hdrain : ∀ cfg, f = .sweep (.drain cfg) →
      ∀ entry ∈ e.ackTracker.pending,
        entry.uuid7 = uuid7 → entry.expired e.now = false)
    (hg : g ∈ (f.step e a).new) :
    g.sweeps uuid7 = false := by
  have htail {sw : Sweep} {x : PendingAck × Bool}
      {todo : List (PendingAck × Bool)}
      (htodo : sw.todo = x :: todo)
      (h : (Frame.sweep (.next sw)).sweeps uuid7 = false) :
      ¬ x.1.uuid7 = uuid7 ∧ (todo.any fun x => x.1.uuid7 = uuid7) = false := by
    simpa [Frame.sweeps, htodo] using h
  cases Frame.leads hg with
  | sweep_first htodo =>
      simp only [Frame.sweeps, List.any_eq_false, decide_eq_true_eq]
      intro x hx hu
      rw [htodo, SweepFrame.mem_drained_iff] at hx
      obtain ⟨hmem, hexp, -⟩ := (AckTracker.mem_checkTimeouts_iff ..).mp hx
      simp [hdrain _ rfl x.1 hmem hu] at hexp
  | sweep_resendLoad htodo _ =>
      obtain ⟨hx, hrest⟩ := htail htodo hf
      simpa [Frame.sweeps, hx] using hrest
  | sweep_expire htodo _ hexp =>
      exact hexp.sweeps (htail htodo hf).2
  | sweep_gone _ hexp =>
      exact hexp.sweeps (by simp_all [Frame.sweeps])
  | sweep_unsent _ hexp =>
      exact hexp.sweeps (by simp_all [Frame.sweeps])
  | sweep_resendSend _ => exact hf
  | sweep_resendTrack _ => exact hf
  | sweep_resent => simp_all [Frame.sweeps]
  | @fanout_nobody fo _ => cases fo.stage <;> rfl
  | @replay_hold _ point _ => cases point <;> rfl
  | _ => rfl

end Steps

section Invariant

variable {uuid7 : String} {s : EnginePool} {i : Nat} {a : Answer} {f : Frame}
variable {rest : List Frame}

/-- What is due stays pending or on its way to the table. -/
theorem Orderly.due_run
    (h : Orderly uuid7 s)
    (hok : HandledInOrder uuid7 s a f)
    (hi : s.threads[i]? = some (f :: rest))
    (stage : Stage) (m : String)
    (howes : Owes (f.step s.shared a).shared.log uuid7 stage m = true) :
    (f.step s.shared a).shared.ackTracker.isPendingFor uuid7 m stage = true ∨
      Dispatching (afterRun s i a f rest) uuid7 stage m := by
  rcases owes_step (e := s.shared) (a := a) uuid7 f stage m with
    hsame | ⟨-, g, hnext, hg⟩ | ⟨r, -, -, -, -, hfalse⟩
  · rw [hsame] at howes
    rcases h.due stage m howes with hpending | hdisp
    · rcases isPendingFor_step hpending with hpending | ⟨entry, hmem, hu, hm, hst, hgone⟩
      · exact Or.inl hpending
      · -- an entry that is owed is not taken in an orderly run
        rcases hgone with ⟨len, rfl⟩ | rfl | ⟨cfg, rfl, hexp⟩
        · have hfree := hok rfl entry hmem (decide_eq_true ⟨hu, hm⟩)
          rw [hst, howes] at hfree
          cases hfree
        · have hfree := hok rfl entry hmem hu
          rw [hst, hm, howes] at hfree
          cases hfree
        · have hlive := hok entry hmem hu
          rw [hexp] at hlive
          cases hlive
    · by_cases hf : f.untracked = some (uuid7, stage, m)
      · exact Or.inl (isPendingFor_of_untracked hf)
      · exact Or.inr (Pool.AtTop.run hdisp hi hf)
  · exact Or.inr (atTop_of_next hi hnext hg)
  · rw [hfalse] at howes
    cases howes

/-- A dispatch that is still to be tracked is owed. -/
theorem Orderly.untracked_run
    (h : Orderly uuid7 s)
    (hok : HandledInOrder uuid7 s a f)
    (hi : s.threads[i]? = some (f :: rest))
    (stage : Stage) (m : String)
    (hdisp : Dispatching (afterRun s i a f rest) uuid7 stage m) :
    Owes (f.step s.shared a).shared.log uuid7 stage m = true := by
  rcases atTop_after_run h.waiting not_untracked_of_isLoop hi hdisp with
    hold | ⟨g, hg, hun⟩
  · have howes := h.untracked stage m hold
    rcases owes_step (e := s.shared) (a := a) uuid7 f stage m with
      hsame | ⟨htrue, -⟩ | ⟨r, rfl, hu, rfl, rfl, -⟩
    · rwa [hsame]
    · exact htrue
    · exact absurd hold ((hok hu).1 howes)
  · exact owes_of_untracked_new hg hun

/-- An ack leaves no entry of its module. -/
theorem not_isFor_of_ackModule
    {v m : String} {len : Nat} {y : PendingAck}
    (hy : y ∈
      ((Frame.reply (.ackModule v m len)).step s.shared a).shared.ackTracker.pending) :
    y.isFor v m = false := by
  rcases s.shared.ackTracker.ackModule_cases s.shared.now v m with
    ⟨hack, hnone⟩ | ⟨entry, -, tracker, -, -, htracker, hack⟩
  · have hmem : y ∈ s.shared.ackTracker.pending := by
      simpa [Frame.step, ReplyFrame.step, hack] using hy
    exact hnone y hmem
  · have hmem : y ∈ tracker.pending := by
      cases hstage : entry.stage <;>
        simp only [Frame.step, ReplyFrame.step, hack, hstage] at hy
      · exact hy
      · exact hy
      · split at hy <;> exact hy
    rw [htracker, List.mem_filter] at hmem
    simpa using hmem.2

/-- The handling of a reply goes on until no entry of the module is left. -/
theorem handlesReply_step
    {m : String}
    (hok : HandledInOrder uuid7 s a f)
    (hf : f.handlesReply uuid7 m = true) :
    (∃ g, (f.step s.shared a).next = some [g] ∧
      g.handlesReply uuid7 m = true) ∨
    ∀ y ∈ (f.step s.shared a).shared.ackTracker.pending,
      ¬ (y.uuid7 = uuid7 ∧ y.moduleName = m) := by
  cases f with
  | reply f =>
      cases f with
      | record r => exact Or.inl ⟨_, rfl, hf⟩
      | audio r =>
          have hr : r.uuid7 = uuid7 ∧ r.moduleName = m := by
            simpa [Frame.handlesReply] using hf
          refine Or.inl ?_
          simp only [Frame.step, ReplyFrame.step]
          split
          · exact ⟨_, rfl, by simp [Frame.handlesReply, hr.1]⟩
          · exact ⟨_, rfl, hf⟩
      | ackConfig v m' => exact Or.inl ⟨_, rfl, hf⟩
      | ackModule v m' len =>
          obtain ⟨rfl, rfl⟩ : v = uuid7 ∧ m' = m := by
            simpa [Frame.handlesReply] using hf
          exact Or.inr fun y hy => of_decide_eq_false (not_isFor_of_ackModule hy)
      | check r => simp [Frame.handlesReply] at hf
      | receipt v m' => simp [Frame.handlesReply] at hf
  | terminal f =>
      cases f with
      | check v ending =>
          cases ending with
          | dropped reason =>
              obtain ⟨hdb, haudit⟩ := hok (by simpa [Frame.handlesReply] using hf)
              have hv : v = uuid7 := by simpa [Frame.handlesReply] using hf
              refine Or.inl ⟨.terminal (.take v (.dropped reason)), ?_, hf⟩
              simp [Frame.step, TerminalFrame.step, hdb, hv, haudit, go]
          | _ => simp [Frame.handlesReply] at hf
      | take v ending =>
          cases ending with
          | dropped reason =>
              have hv : v = uuid7 := by simpa [Frame.handlesReply] using hf
              obtain ⟨state, hstate⟩ :=
                Option.ne_none_iff_exists'.mp ((hok hv).2.2 rfl)
              refine Or.inl
                ⟨.terminal (.write v (.dropped reason) state.result), ?_, hf⟩
              simp [Frame.step, TerminalFrame.step, hv, hstate, go]
          | _ => simp [Frame.handlesReply] at hf
      | write v ending result =>
          cases ending with
          | dropped reason =>
              have hv : v = uuid7 := by simpa [Frame.handlesReply] using hf
              refine Or.inl ⟨.terminal (.ack v), ?_, hf⟩
              simp [Frame.step, TerminalFrame.step, hok hv, go]
          | _ => simp [Frame.handlesReply] at hf
      | ack v =>
          obtain rfl : v = uuid7 := by simpa [Frame.handlesReply] using hf
          refine Or.inr fun y hy hym => ?_
          exact ((AckTracker.mem_ack_iff ..).mp hy).2 hym.1
      | _ => simp [Frame.handlesReply] at hf
  | _ => simp [Frame.handlesReply] at hf

/-- A frame that tracks an entry of the message tracks a dispatch. -/
theorem untracked_of_tracks
    {y : PendingAck} {now : Nat}
    (htracks : f.tracks now = some y)
    (hu : y.uuid7 = uuid7)
    (hf : f.sweeps uuid7 = false) :
    f.untracked = some (uuid7, y.stage, y.moduleName) := by
  cases f with
  | fanout f =>
      cases f with
      | send => simp [Frame.tracks] at htracks
      | track fo moduleName todo =>
          obtain rfl := Option.some.inj htracks
          simp only [Frame.untracked, ← hu]
  | inProcess f =>
      cases f with
      | track v moduleName timeout =>
          obtain rfl := Option.some.inj htracks
          simp only [Frame.untracked, ← hu]
      | _ => simp [Frame.tracks] at htracks
  | sweep f =>
      cases f with
      | resendTrack sw entry =>
          obtain rfl := Option.some.inj htracks
          have hentry : entry.uuid7 = uuid7 := hu
          simp [Frame.sweeps, hentry] at hf
      | _ => simp [Frame.tracks] at htracks
  | _ => simp [Frame.tracks] at htracks

/-- While a module owes its reply, no terminal path takes the state. -/
theorem Orderly.not_take_of_owes
    {stage : Stage} {m : String}
    (h : Orderly uuid7 s)
    (hok : HandledInOrder uuid7 s a f)
    (howes : Owes s.shared.log uuid7 stage m = true)
    (ending : Ending) :
    f ≠ .terminal (.take uuid7 ending) := by
  rintro rfl
  obtain ⟨hnone, hunused, -⟩ := hok rfl
  rcases h.due stage m howes with hpending | ⟨t, ht, g, hg, huntracked⟩
  · obtain ⟨entry, hmem, hu, rfl, rfl⟩ := (AckTracker.isPendingFor_iff ..).mp hpending
    rw [hnone entry hmem hu] at howes
    cases howes
  · exact hunused ⟨t, ht, g, hg, usesState_of_untracked huntracked⟩

/-- The state stays while a module owes its reply. -/
theorem Orderly.inMemory_run
    (h : Orderly uuid7 s)
    (hok : HandledInOrder uuid7 s a f)
    (hi : s.threads[i]? = some (f :: rest))
    (stage : Stage) (m : String)
    (howes : Owes (f.step s.shared a).shared.log uuid7 stage m = true) :
    (f.step s.shared a).shared.pipelineStates uuid7 ≠ none := by
  rcases owes_step (e := s.shared) (a := a) uuid7 f stage m with
    hsame | ⟨-, g, hnext, hg⟩ | ⟨r, -, -, -, -, hfalse⟩
  · rw [hsame] at howes
    exact state_step_some (h.inMemory stage m howes) (h.not_take_of_owes hok howes)
  · have huses : f.usesState uuid7 = true :=
      usesState_of_untracked_new (a := a) (e := s.shared)
        (by simp [Outcome.new, hnext]) hg
    refine state_step_some (h.inUse (atTop_of_getElem? hi huses)) ?_
    rintro ending rfl
    cases huses
  · rw [hfalse] at howes
    cases howes

/-- The state stays while a task is at work with it. -/
theorem Orderly.inUse_run
    (h : Orderly uuid7 s)
    (hok : HandledInOrder uuid7 s a f)
    (hi : s.threads[i]? = some (f :: rest))
    (huse : UsingState (afterRun s i a f rest) uuid7) :
    (f.step s.shared a).shared.pipelineStates uuid7 ≠ none := by
  have hkept (hbefore : UsingState s uuid7) :
      (f.step s.shared a).shared.pipelineStates uuid7 ≠ none := by
    refine state_step_some (h.inUse hbefore) ?_
    rintro ending rfl
    exact (hok rfl).2.1 hbefore
  rcases atTop_after_run h.waiting not_usesState_of_isLoop hi huse with
    hold | ⟨g, hg, hguse⟩
  · exact hkept hold
  · rcases usesState_new hg hguse with hf | ⟨⟨state, hstate⟩, htake⟩ | ⟨r, rfl, hr, howns⟩
    · exact hkept (atTop_of_getElem? hi hf)
    · exact state_step_some (by simp [hstate]) htake
    · refine state_step_some ?_ (by simp)
      cases howes : Owes s.shared.log uuid7 r.stage r.moduleName with
      | true => exact h.inMemory r.stage r.moduleName howes
      | false => exact (hok hr).2 howes howns

theorem Orderly.entries_run
    (h : Orderly uuid7 s)
    (hok : HandledInOrder uuid7 s a f)
    (hi : s.threads[i]? = some (f :: rest)) :
    NoneLeftBehind uuid7 (afterRun s i a f rest) := by
  intro y hy hu
  have hmem := mem_frames_of_getElem? hi (List.mem_cons_self ..)
  rcases Frame.mem_pending_step s.shared a hy with ⟨x, hx, hyx⟩ | htracks
  · obtain ⟨hxu, hxst, hxm⟩ : x.uuid7 = uuid7 ∧ x.stage = y.stage ∧
        x.moduleName = y.moduleName := by
      rcases hyx with rfl | rfl | ⟨-, rfl⟩ <;> exact ⟨hu, rfl, rfl⟩
    rcases h.entries x hx hxu with howes | hhandling
    · rw [hxst, hxm] at howes
      rcases owes_step (e := s.shared) (a := a) uuid7 f y.stage
          y.moduleName with hsame | ⟨htrue, -⟩ | ⟨r, rfl, hru, hrst, hrm, -⟩
      · exact Or.inl (hsame.trans howes)
      · exact Or.inl htrue
      · -- the reply that settles the debt is accepted
        have howns : s.shared.ackTracker.isPendingFor r.uuid7 r.moduleName
            r.stage = true :=
          (AckTracker.isPendingFor_iff ..).mpr ⟨x, hx, hxu.trans hru.symm,
            hxm.trans hrm.symm, hxst.trans hrst.symm⟩
        have hnext : ((Frame.reply (.check r)).step s.shared a).next =
            some [.reply (.record r)] := by
          simp [Frame.step, ReplyFrame.step, howns, go]
        exact Or.inr (atTop_of_next hi hnext (by simp [Frame.handlesReply, hru, hrm]))
    · rw [hxm] at hhandling
      by_cases hf : f.handlesReply uuid7 y.moduleName = true
      · rcases handlesReply_step hok hf with ⟨g, hnext, hg⟩ | hgone
        · exact Or.inr (atTop_of_next hi hnext hg)
        · exact absurd ⟨hu, rfl⟩ (hgone y hy)
      · exact Or.inr (Pool.AtTop.run hhandling hi hf)
  · have hun := untracked_of_tracks htracks hu (h.unswept f hmem)
    have howes := h.untracked y.stage y.moduleName (atTop_of_getElem? hi hun)
    rcases owes_step (e := s.shared) (a := a) uuid7 f y.stage
        y.moduleName with hsame | ⟨htrue, -⟩ | ⟨r, rfl, -⟩
    · exact Or.inl (hsame.trans howes)
    · exact Or.inl htrue
    · simp [Frame.untracked] at hun

theorem Orderly.fire
    {s' : EnginePool} {l : EngineLabel}
    (h : Orderly uuid7 s)
    (hok : OnRun (HandledInOrder uuid7) s l)
    (hfire : engine.fire s l = some s') :
    Orderly uuid7 s' := by
  have hwait := h.waiting.fire engine_leavesWaiting hfire
  cases l with
  | world ev =>
      obtain ⟨r, hr, rfl⟩ := fire_world_cases hfire
      obtain rfl := engine_event_eq hr
      have hlog : (ev.effect s.shared).log = s.shared.log := by cases ev <;> rfl
      have hacks : (ev.effect s.shared).ackTracker = s.shared.ackTracker := by
        cases ev <;> rfl
      have hstates : (ev.effect s.shared).pipelineStates = s.shared.pipelineStates := by
        cases ev <;> rfl
      refine ⟨hwait, fun stage m howes => ?_, fun stage m hdisp => ?_,
        fun entry hentry hu => ?_, fun f hf => ?_, fun stage m howes => ?_,
        fun huse => ?_⟩
      · simp only [hlog, hacks] at howes ⊢
        exact (h.due stage m howes).imp id fun hdisp =>
          Pool.AtTop.world (r := (ev.effect s.shared, ev.starts)) hdisp
      · simp only [hlog]
        rcases atTop_after_world hdisp with hdisp | ⟨g, hg, hun⟩
        · exact h.untracked stage m hdisp
        · cases opens_of_mem hg <;> simp [Frame.untracked] at hun
      · simp only [hlog, hacks] at hentry ⊢
        exact (h.entries entry hentry hu).imp id fun hhandling =>
          Pool.AtTop.world (r := (ev.effect s.shared, ev.starts)) hhandling
      · rcases mem_frames_after_world hf with hf | hf
        · exact h.unswept f hf
        · cases opens_of_mem hf <;> rfl
      · simp only [hlog, hstates] at howes ⊢
        exact h.inMemory stage m howes
      · simp only [hstates]
        rcases atTop_after_world huse with huse | ⟨g, hg, huses⟩
        · exact h.inUse huse
        · cases opens_of_mem hg <;> simp [Frame.usesState] at huses
  | run i a =>
      obtain ⟨f, rest, o, hi, ho, rfl⟩ := fire_run_cases hfire
      obtain rfl := engine_step_eq ho
      have hokf := hok.top hi
      have hmem := mem_frames_of_getElem? hi (List.mem_cons_self ..)
      refine ⟨hwait, h.due_run hokf hi, h.untracked_run hokf hi,
        h.entries_run hokf hi, fun g hg => ?_, h.inMemory_run hokf hi,
        h.inUse_run hokf hi⟩
      rcases mem_frames_after_run hi hg with hg | hg
      · refine sweeps_new (h.unswept f hmem) ?_ hg
        rintro cfg rfl
        exact hokf
      · exact h.unswept g hg

/-- Empty audio changes nothing, other audio is put on the state. -/
theorem storeAudio_recorded (r : StageReply) (state : PipelineState) :
    (state.storeAudio r.stage.audioStage r.audioType r.audio).processedMessage =
        state.processedMessage ∧
      (r.audio ≠ [] →
        (state.storeAudio r.stage.audioStage r.audioType r.audio).HasAudio r) := by
  unfold PipelineState.storeAudio
  split
  · rename_i hempty
    exact ⟨rfl, fun hne => absurd (List.isEmpty_iff.mp hempty) hne⟩
  · refine ⟨rfl, fun _ => ⟨rfl, rfl, rfl, ?_⟩⟩
    dsimp only
    generalize (if r.audioType = "" then "audio/mpeg" else r.audioType) = mime
    split
    · rename_i hin
      exact List.contains_iff_mem.mp hin
    · exact List.mem_append_right _ (List.mem_singleton_self _)

/-- What is due and tracked is accepted, and what is accepted is recorded. -/
theorem Orderly.accepts
    (h : Orderly uuid7 s)
    (hok : HandledInOrder uuid7 s a f)
    (hf : f ∈ s.top i) :
    Accepts uuid7 s a f := by
  cases f with
  | reply f =>
      cases f with
      | check r =>
          intro hu howes
          have howns : s.shared.ackTracker.isPendingFor r.uuid7 r.moduleName
              r.stage = true := by
            rw [hu]
            exact (h.due r.stage r.moduleName howes).resolve_right ((hok hu).1 howes)
          simp [Frame.step, ReplyFrame.step, howns]
      | record r =>
          rintro rfl
          obtain ⟨state, hstate⟩ := Option.ne_none_iff_exists'.mp
            (h.inUse (atTop_of_top hf (by simp [Frame.usesState])))
          simp [Frame.step, ReplyFrame.step, Engine.modifyState, Engine.putState, hstate]
      | audio r =>
          rintro rfl
          obtain ⟨state, hstate⟩ := Option.ne_none_iff_exists'.mp
            (h.inUse (atTop_of_top hf (by simp [Frame.usesState])))
          refine ⟨⟨state, hstate, _, ?_, storeAudio_recorded r state⟩, ?_⟩
          · simp [Frame.step, ReplyFrame.step, Engine.modifyState, Engine.putState,
              hstate]
          · simp only [Frame.step, ReplyFrame.step, new_go]
            split
            · exact Or.inr (List.mem_singleton_self _)
            · exact Or.inl (List.mem_singleton_self _)
      | ackModule v m len =>
          rintro rfl entry hentry
          exact not_isFor_of_ackModule hentry
      | receipt v m =>
          rintro rfl ⟨stage, howes⟩
          have hpending : s.shared.ackTracker.isPendingFor v m stage = true :=
            (h.due stage m howes).resolve_right (hok rfl stage howes)
          obtain ⟨entry, hmem, hu, hm, -⟩ :=
            (AckTracker.isPendingFor_iff ..).mp hpending
          obtain ⟨_, hmarked, y, -, hfor, rfl⟩ :=
            AckTracker.exists_marked_markFirst hmem
              (p := PendingAck.isFor v m) (decide_eq_true ⟨hu, hm⟩)
          exact ⟨_, hmarked, hfor, rfl⟩
      | _ => trivial
  | _ => trivial

end Invariant

/-- **Main theorem.**  In a run that handles the replies of a message in order,
every receipt and reply that is due is accepted, every reply that is accepted is
recorded on the message's state, and in every state a module that has replied has
no entry left unless its reply is still being handled. -/
theorem no_lost_reply
    (uuid7 : String)
    (e : Engine)
    (hlog : e.log = [])
    (hacks : e.ackTracker = .new)
    {s : EnginePool} {l : EngineLabel}
    (hs : Reachable engine (OnRun (HandledInOrder uuid7)) (boot e) s)
    (hok : OnRun (HandledInOrder uuid7) s l) :
    OnRun (Accepts uuid7) s l ∧ NoneLeftBehind uuid7 s := by
  have horderly : Orderly uuid7 s := by
    refine hs.invariant ⟨boot_waiting e, ?_, ?_, ?_, ?_, ?_, ?_⟩ Orderly.fire
    · intro stage m howes
      simp [boot, hlog, Owes] at howes
    · rintro stage m ⟨t, ht, -⟩
      simp [boot] at ht
    · intro entry hentry
      simp [boot, hacks, AckTracker.new] at hentry
    · intro f hf
      simp [boot, Pool.frames] at hf
    · intro stage m howes
      simp [boot, hlog, Owes] at howes
    · rintro ⟨t, ht, -⟩
      simp [boot] at ht
  refine ⟨?_, horderly.entries⟩
  cases l with
  | world ev => trivial
  | run i a => exact fun f hf => horderly.accepts (hok f hf) hf

/-- A module replies with text and audio after its dispatch was tracked, and its
reply has been let through. -/
def repliedAfterTrack : List EngineLabel :=
  .world (.ingest { uuid7 := "m", rawMessage := "hi" }) ::
    List.replicate 12 (.run 0 {}) ++
  .world (.reply
    { uuid7 := "m", moduleName := "bot", stage := .inProcess
      processedMessage := "hello", audio := [1] }) ::
    List.replicate 2 (.run 1 {})

theorem no_lost_reply_repliedAfterTrack :
    ∃ s, engine.exec (boot { config := { inProcessModules := ["bot"] } })
        repliedAfterTrack = some s ∧
      (∃ state ∈ s.shared.pipelineStates "m", state.processedMessage = "hello") ∧
      OnRun (Accepts "m") s (.run 1 {} : EngineLabel) ∧ NoneLeftBehind "m" s := by
  refine ⟨_, rfl, ?_, no_lost_reply "m" { config := { inProcessModules := ["bot"] } }
    rfl rfl (reachable_of_allSteps repliedAfterTrack .start ?_ rfl) ?_⟩
  · decide
  · decide
  · decide

/-- A module replies between the send and its `track`. -/
def repliedBeforeTrack : List EngineLabel :=
  .world (.ingest { uuid7 := "m", rawMessage := "hi" }) ::
    List.replicate 11 (.run 0 {}) ++
  [.world (.reply { uuid7 := "m", moduleName := "bot", stage := .inProcess })]

/-- The reply is discarded as not the module's to make. -/
theorem reply_lost_before_track :
    ¬ ∀ (uuid7 : String) (e : Engine) (ls : List EngineLabel)
        (s : EnginePool) (l : EngineLabel),
      e.log = [] →
      e.ackTracker = .new →
      engine.exec (boot e) ls = some s →
      OnRun (Accepts uuid7) s l := by
  intro h
  exact absurd
    (h "m" { config := { inProcessModules := ["bot"] } } repliedBeforeTrack _
      (.run 1 {}) rfl rfl rfl)
    (by decide)

end CockatielEngine
