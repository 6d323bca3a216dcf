import CockatielEngine.Concurrency.Ghost
import CockatielEngine.Pipeline.RecoveryClaim

/-!
# Pipeline: failing database calls

Ingest and the terminal paths go to the database several times, and an error
ends them where they stand.  What they had taken out of memory, or had not yet
put there, is not put back.

The state that a terminal path takes out of memory is a ghost here: what the run of
the message had accumulated can be compared with what its row gets.

**Main result.**  When none of the calls between the row and the state fails, no
terminal write fails or is turned away by a hold, and no earlier result of the
message is still to be written when its state is taken, a call that fails leaves
the message in memory as it was, without a row, or with what its run had
accumulated on a row that has ended.
-/

namespace CockatielEngine

open TaskPool

section Defs

variable (uuid7 : String)

/-- The frame calls the database for the message, on behalf of
`insert_and_start` or of a terminal path. -/
def CallsDatabase : Frame → Prop
  | .ingest (.insertEvent msg) => msg.uuid7 = uuid7
  | .ingest (.setCommand msg _) => msg.uuid7 = uuid7
  | .ingest (.setUserUuid msg) => msg.uuid7 = uuid7
  | .terminal (.check v _) => v = uuid7
  | .terminal (.writeHeld v _) => v = uuid7
  | .terminal (.write v _ _) => v = uuid7
  | _ => False

/-- A terminal path takes the message out of memory. -/
def takes : Frame → Bool
  | .terminal (.take v _) => v = uuid7
  | _ => false

/-- The state that the last terminal path took out of memory. -/
def noteTaken (s : EnginePool) :
    EngineLabel → Option PipelineState → Option PipelineState
  | .run i _, taken =>
      if (s.top i).any (takes uuid7) then (s.shared.pipelineStates uuid7).or taken
      else taken
  | .world _, taken => taken

/-- The result has all that the run had accumulated in the state. -/
structure PipelineResult.Carries (result : PipelineResult) (state : PipelineState) :
    Prop where
  text : result.processedMessage = some state.processedMessage
  pre : result.preProcessCompletedAt = state.preProcessCompletedAt
  inProcess : result.inProcessCompletedAt = state.inProcessCompletedAt
  audio : state.audio ≠ [] → result.audio = some (state.audioType, state.audio)
  markers : result.audioTypeMarkers = state.audioTypeMarkers

/-- The row has what the run had accumulated in the state.  The markers are not part
of it: an audit flag writes over the column they are in. -/
structure Row.Carries (r : Row) (state : PipelineState) : Prop where
  text : r.processedMessage = some state.processedMessage
  pre : ∀ t ∈ state.preProcessCompletedAt, r.preProcessCompletedAt = some t
  inProcess : ∀ t ∈ state.inProcessCompletedAt, r.inProcessCompletedAt = some t
  audio : state.audio ≠ [] → r.dataBlob = some state.audio

/-- The row has a terminal status and what was taken out of memory. -/
def Row.Landed (taken : Option PipelineState) (r : Row) : Prop :=
  r.pipelineStatus ≠ .queued ∧ r.pipelineStatus ≠ .processing ∧
    ∃ state ∈ taken, r.Carries state

/-- The frame holds what the message will be driven with, or what was taken out of
memory. -/
def HoldsResult (taken : Option PipelineState) : Frame → Prop
  | .terminal (.write v _ result) => v = uuid7 ∧ ∃ state ∈ taken, result.Carries state
  | f => Claims uuid7 f

/-- After a step from `s` to `s'` the message has no row, or is in memory as it was,
or a task holds it, or what was taken out of memory is on its row. -/
def Kept (taken : Option PipelineState) (s s' : EnginePool) : Prop :=
  s'.shared.timeline.row? uuid7 = none ∨
    ∃ r ∈ s'.shared.timeline.row? uuid7,
      (∃ state ∈ s.shared.pipelineStates uuid7,
        s'.shared.pipelineStates uuid7 = some state) ∨
      s'.AtTop (HoldsResult uuid7 taken) ∨ r.Landed taken

/-- A result of the message is still to be written. -/
def WritesResult : Frame → Prop
  | .terminal (.write v _ result) => v = uuid7 ∧ result ≠ {}
  | _ => False

/-- The calls between the row and the state succeed, and so does the terminal
write, which for a completion finds the row not held; the state is taken when no
result of the message is still to be written, and the result of a held message is
written while the message is in memory. -/
def KeepsMessage (s : EnginePool) (a : Answer) : Frame → Prop
  | .ingest (.setCommand msg _) => msg.uuid7 = uuid7 → a.dbOk = true
  | .ingest (.setUserUuid msg) => msg.uuid7 = uuid7 → a.dbOk = true
  | .terminal (.take v _) => v = uuid7 → ∀ f ∈ s.frames, ¬ WritesResult uuid7 f
  | .terminal (.writeHeld v result) =>
      v = uuid7 → result ≠ {} → s.shared.pipelineStates uuid7 ≠ none
  | .terminal (.write v ending _) =>
      v = uuid7 → a.dbOk = true ∧
        (ending = .complete → s.shared.timeline.isAudited uuid7 = false)
  | _ => True

/-- The world does not ingest the message under the key of a row that an earlier
process left: ingest generates the key. -/
def FreshKey (e : Engine) : WorldEvent → Prop
  | .ingest msg => msg.uuid7 = uuid7 → e.timeline.row? uuid7 = none
  | _ => True

/-- The side condition of a run from boot with `e`. -/
def KeepsMessages (e : Engine) (s : EnginePool) : EngineLabel → Prop
  | .run i a => OnRun (KeepsMessage uuid7) s (.run i a : EngineLabel)
  | .world ev => FreshKey uuid7 e ev

instance (result : PipelineResult) (state : PipelineState) :
    Decidable (result.Carries state) :=
  decidable_of_iff
    (result.processedMessage = some state.processedMessage ∧
      result.preProcessCompletedAt = state.preProcessCompletedAt ∧
      result.inProcessCompletedAt = state.inProcessCompletedAt ∧
      (state.audio ≠ [] → result.audio = some (state.audioType, state.audio)) ∧
      result.audioTypeMarkers = state.audioTypeMarkers)
    ⟨fun ⟨h₁, h₂, h₃, h₄, h₅⟩ => ⟨h₁, h₂, h₃, h₄, h₅⟩,
      fun ⟨h₁, h₂, h₃, h₄, h₅⟩ => ⟨h₁, h₂, h₃, h₄, h₅⟩⟩

instance (r : Row) (state : PipelineState) : Decidable (r.Carries state) :=
  decidable_of_iff
    (r.processedMessage = some state.processedMessage ∧
      (∀ t ∈ state.preProcessCompletedAt, r.preProcessCompletedAt = some t) ∧
      (∀ t ∈ state.inProcessCompletedAt, r.inProcessCompletedAt = some t) ∧
      (state.audio ≠ [] → r.dataBlob = some state.audio))
    ⟨fun ⟨h₁, h₂, h₃, h₄⟩ => ⟨h₁, h₂, h₃, h₄⟩, fun ⟨h₁, h₂, h₃, h₄⟩ => ⟨h₁, h₂, h₃, h₄⟩⟩

instance (taken : Option PipelineState) : DecidablePred (Row.Landed taken) := fun _ =>
  inferInstanceAs (Decidable (_ ∧ _ ∧ ∃ state ∈ taken, _))

instance (taken : Option PipelineState) : DecidablePred (HoldsResult uuid7 taken) :=
  fun f =>
    match f with
    | .terminal (.write _ _ _) => inferInstanceAs (Decidable (_ ∧ ∃ state ∈ taken, _))
    | .terminal (.check v ending) =>
        inferInstanceAs (Decidable (Claims uuid7 (.terminal (.check v ending))))
    | .terminal (.snapshot v) =>
        inferInstanceAs (Decidable (Claims uuid7 (.terminal (.snapshot v))))
    | .terminal (.writeHeld v result) =>
        inferInstanceAs (Decidable (Claims uuid7 (.terminal (.writeHeld v result))))
    | .terminal (.take v ending) =>
        inferInstanceAs (Decidable (Claims uuid7 (.terminal (.take v ending))))
    | .terminal (.ack v) =>
        inferInstanceAs (Decidable (Claims uuid7 (.terminal (.ack v))))
    | .ingest f => inferInstanceAs (Decidable (Claims uuid7 (.ingest f)))
    | .recovery f => inferInstanceAs (Decidable (Claims uuid7 (.recovery f)))
    | .broadcast f => inferInstanceAs (Decidable (Claims uuid7 (.broadcast f)))
    | .fanout f => inferInstanceAs (Decidable (Claims uuid7 (.fanout f)))
    | .inProcess f => inferInstanceAs (Decidable (Claims uuid7 (.inProcess f)))
    | .postProcess f => inferInstanceAs (Decidable (Claims uuid7 (.postProcess f)))
    | .reply f => inferInstanceAs (Decidable (Claims uuid7 (.reply f)))
    | .advance f => inferInstanceAs (Decidable (Claims uuid7 (.advance f)))
    | .sweep f => inferInstanceAs (Decidable (Claims uuid7 (.sweep f)))
    | .gate t => inferInstanceAs (Decidable (Claims uuid7 (.gate t)))
    | .resume f => inferInstanceAs (Decidable (Claims uuid7 (.resume f)))
    | .audit f => inferInstanceAs (Decidable (Claims uuid7 (.audit f)))

instance (taken : Option PipelineState) (s s' : EnginePool) :
    Decidable (Kept uuid7 taken s s') :=
  inferInstanceAs (Decidable (_ ∨ ∃ r ∈ s'.shared.timeline.row? uuid7,
    (∃ state ∈ s.shared.pipelineStates uuid7, _) ∨ _))

instance : DecidablePred (WritesResult uuid7) := fun f =>
  match f with
  | .terminal (.write _ _ _) => inferInstanceAs (Decidable (_ ∧ _ ≠ _))
  | .terminal (.check _ _) | .terminal (.snapshot _) | .terminal (.writeHeld _ _)
  | .terminal (.take _ _) | .terminal (.ack _) | .ingest _ | .recovery _
  | .broadcast _ | .fanout _ | .inProcess _ | .postProcess _ | .reply _ | .advance _
  | .sweep _ | .gate _ | .resume _ | .audit _ => instDecidableFalse

instance (s : EnginePool) (a : Answer) (f : Frame) :
    Decidable (KeepsMessage uuid7 s a f) :=
  match f with
  | .ingest (.setCommand _ _) => inferInstanceAs (Decidable (_ → _))
  | .ingest (.setUserUuid _) => inferInstanceAs (Decidable (_ → _))
  | .terminal (.take _ _) => inferInstanceAs (Decidable (_ → ∀ f ∈ s.frames, _))
  | .terminal (.writeHeld _ _) => inferInstanceAs (Decidable (_ → _ ≠ _ → _))
  | .terminal (.write _ _ _) => inferInstanceAs (Decidable (_ → _))
  | .ingest (.insertEvent _) | .ingest (.insertState _) | .recovery _ | .broadcast _
  | .fanout _ | .inProcess _ | .postProcess _ | .terminal (.check _ _)
  | .terminal (.snapshot _) | .terminal (.ack _) | .reply _ | .advance _ | .sweep _
  | .gate _ | .resume _ | .audit _ => instDecidableTrue

instance (e : Engine) (ev : WorldEvent) : Decidable (FreshKey uuid7 e ev) := by
  unfold FreshKey
  split <;> infer_instance

instance (e : Engine) (s : EnginePool) (l : EngineLabel) :
    Decidable (KeepsMessages uuid7 e s l) :=
  match l with
  | .run i a =>
      inferInstanceAs (Decidable (OnRun (KeepsMessage uuid7) s (.run i a : EngineLabel)))
  | .world ev => inferInstanceAs (Decidable (FreshKey uuid7 e ev))

/-- Audio on a state has a marker, so the terminal write lands it. -/
def PipelineState.Marked (state : PipelineState) : Prop :=
  state.audio ≠ [] → state.audioTypeMarkers ≠ []

/-- The invariant of such a run. -/
structure Keeping (e : Engine) (taken : Option PipelineState) (s : EnginePool) :
    Prop where
  fresh : ∀ msg, .ingest (.insertEvent msg) ∈ s.frames → msg.uuid7 = uuid7 →
    e.timeline.row? uuid7 = none
  kept : Forgotten uuid7 s ∨ Owned uuid7 (Row.Landed taken) s
  unborn : e.timeline.row? uuid7 = none →
    s.shared.timeline.row? uuid7 = none ∨ Owned uuid7 (Row.Landed taken) s
  marked : ∀ state, s.shared.pipelineStates uuid7 = some state → state.Marked
  written : ∀ ending result, .terminal (.write uuid7 ending result) ∈ s.frames →
    result = {} ∨ ∃ state ∈ taken, state.Marked ∧ result.Carries state

end Defs

section Rows

variable {state : PipelineState} {r : Row} {result : PipelineResult}
variable {outcome : PipelineOutcome} {now : Nat}

theorem result_carries (state : PipelineState) :
    state.result.Carries state where
  text := rfl
  pre := rfl
  inProcess := rfl
  audio h := by simp [PipelineState.result, h]
  markers := rfl

/-- A terminal write that lands has the row carry what its result carries. -/
theorem carries_of_write
    (hmarked : state.Marked)
    (hresult : result.Carries state)
    (hlands : ¬ (outcome = .complete ∧ r.pipelineStatus = .audit)) :
    (r.writeTerminalOutcome outcome result now).Carries state := by
  unfold Row.writeTerminalOutcome
  rw [if_neg hlands]
  constructor
  · simp [hresult.text]
  · intro t ht
    simp [hresult.pre, Option.mem_def.mp ht]
  · intro t ht
    simp [hresult.inProcess, Option.mem_def.mp ht]
  · intro haudio
    simp [PipelineResult.storedAudio, hresult.audio haudio, hresult.markers,
      Option.filter, haudio, hmarked haudio]

/-- A terminal write without a result leaves what the row carries. -/
theorem Row.Carries.write_empty
    (h : r.Carries state) :
    (r.writeTerminalOutcome outcome {} now).Carries state := by
  unfold Row.writeTerminalOutcome
  split
  · exact h
  · exact ⟨by simp [h.text], fun t ht => by simp [h.pre t ht],
      fun t ht => by simp [h.inProcess t ht],
      fun haudio => by simp [PipelineResult.storedAudio, h.audio haudio]⟩

/-- A terminal write of what the row carries leaves it there, turned away or not. -/
theorem Row.Carries.write
    (h : r.Carries state)
    (hmarked : state.Marked)
    (hresult : result.Carries state) :
    (r.writeTerminalOutcome outcome result now).Carries state := by
  by_cases hlands : outcome = .complete ∧ r.pipelineStatus = .audit
  · unfold Row.writeTerminalOutcome
    rwa [if_pos hlands]
  · exact carries_of_write hmarked hresult hlands

/-- Storing audio marks it. -/
theorem marked_storeAudio
    (h : state.Marked)
    (stage audioType : String) (audio : Bytes) :
    (state.storeAudio stage audioType audio).Marked := by
  unfold PipelineState.storeAudio
  split
  · exact h
  · intro _
    dsimp only
    generalize (if audioType = "" then "audio/mpeg" else audioType) = mime
    split
    · rename_i hin
      exact List.ne_nil_of_mem (List.contains_iff_mem.mp hin)
    · simp

end Rows

section Steps

variable {uuid7 : String} {e : Engine} {a : Answer} {s : EnginePool}
variable {i : Nat} {f : Frame} {rest : List Frame} {taken : Option PipelineState}

/-- Every state that a step puts into memory is marked, if the one before was. -/
theorem marked_step
    {state : PipelineState}
    (h : ∀ state, e.pipelineStates uuid7 = some state → state.Marked)
    (hstate : (f.step e a).shared.pipelineStates uuid7 = some state) :
    state.Marked := by
  by_cases hsub : f.stateSubject = some uuid7
  · cases f with
    | ingest f =>
        cases f <;> simp only [Frame.stateSubject, Option.some.injEq,
          reduceCtorEq] at hsub
        subst hsub
        obtain rfl : PipelineState.ofMessage _ = state := by
          simpa [Frame.step, IngestFrame.step, Engine.putState] using hstate
        exact fun haudio => absurd rfl haudio
    | recovery f =>
        cases f <;> simp only [Frame.stateSubject, Option.some.injEq,
          reduceCtorEq] at hsub
        subst hsub
        obtain rfl : PipelineState.ofQueued _ _ = state := by
          simpa [Frame.step, RecoveryFrame.step, Engine.putState] using hstate
        exact fun haudio => absurd rfl haudio
    | inProcess f =>
        cases f <;> simp only [Frame.stateSubject, Option.some.injEq,
          reduceCtorEq] at hsub
        all_goals
          subst hsub
          simp only [Frame.step, InProcessFrame.step] at hstate
          split at hstate
          · simp_all
          · rename_i before hbefore
            obtain rfl := by simpa [Engine.putState] using hstate
            exact h before hbefore
    | postProcess f =>
        cases f <;> simp only [Frame.stateSubject, Option.some.injEq,
          reduceCtorEq] at hsub
        subst hsub
        simp only [Frame.step, PostProcessFrame.step] at hstate
        split at hstate
        · simp_all
        · rename_i before hbefore
          obtain rfl := by simpa [Engine.putState] using hstate
          exact h before hbefore
    | terminal f =>
        cases f <;> simp only [Frame.stateSubject, Option.some.injEq,
          reduceCtorEq] at hsub
        subst hsub
        simp only [Frame.step, TerminalFrame.step] at hstate
        split at hstate <;> simp_all [Engine.putState]
    | reply f =>
        cases f <;> simp only [Frame.stateSubject, Option.some.injEq,
          reduceCtorEq] at hsub
        all_goals
          subst hsub
          obtain ⟨before, hbefore, rfl⟩ := by
            simpa [Frame.step, ReplyFrame.step, Engine.modifyState,
              Engine.putState] using hstate
        · exact h before hbefore
        · exact marked_storeAudio (h before hbefore) _ _ _
    | advance f =>
        cases f <;> simp only [Frame.stateSubject, Option.some.injEq,
          reduceCtorEq] at hsub
        case nextIndex =>
          subst hsub
          simp only [Frame.step, AdvanceFrame.step] at hstate
          split at hstate
          · simp_all
          · rename_i before hbefore
            obtain rfl := by simpa [Engine.putState] using hstate
            exact h before hbefore
        all_goals
          subst hsub
          obtain ⟨before, hbefore, rfl⟩ := by
            simpa [Frame.step, AdvanceFrame.step, Engine.modifyState,
              Engine.putState, Engine.logged] using hstate
          exact h before hbefore
    | _ => simp [Frame.stateSubject] at hsub
  · rw [Frame.step_pipelineStates e a hsub] at hstate
    exact h state hstate

theorem noteTaken_run (hi : s.threads[i]? = some (f :: rest)) :
    noteTaken uuid7 s (.run i a) taken =
      if takes uuid7 f then (s.shared.pipelineStates uuid7).or taken else taken := by
  simp [noteTaken, Pool.top, hi]

/-- Only a terminal path that takes the state goes on to write. -/
theorem takes_of_write_new
    {ending : Ending} {result : PipelineResult}
    (hg : .terminal (.write uuid7 ending result) ∈ (f.step e a).new) :
    f = .terminal (.take uuid7 ending) ∧
      result = ((e.pipelineStates uuid7).map PipelineState.result).getD {} := by
  generalize hw : Frame.terminal (.write uuid7 ending result) = w at hg
  have hexpired {sw : Sweep} {entry : PendingAck} {still : Bool} {g : Frame}
      (hexp : Expires sw entry still g) : .terminal (.write uuid7 ending result) ≠ g := by
    rcases hexp.shape with ⟨_, rfl, _⟩ | ⟨_, rfl⟩ | rfl | ⟨_, rfl⟩ | rfl <;> simp
  cases Frame.leads hg with
  | terminal_write =>
      obtain ⟨rfl, rfl, rfl⟩ : uuid7 = _ ∧ ending = _ ∧ result = _ := by simpa using hw
      exact ⟨rfl, rfl⟩
  | @fanout_nobody fo _ => cases hst : fo.stage <;> simp [FanoutFrame.nobody, hst] at hw
  | @replay_hold _ point _ => cases point <;> simp [replayHold] at hw
  | sweep_expire _ _ hexp => exact absurd hw (hexpired hexp)
  | sweep_gone _ hexp => exact absurd hw (hexpired hexp)
  | sweep_unsent _ hexp => exact absurd hw (hexpired hexp)
  | _ => simp at hw

/-- No statement takes what was taken out of memory off its row, as long as no
other result is written. -/
theorem landed_update
    {now : Nat} {g : Row → Row} {r : Row}
    (hg : f.rowUpdate now = some (uuid7, g))
    (hheld : ∀ result, f = .terminal (.writeHeld uuid7 result) → result = {})
    (hwritten : ∀ ending result, f = .terminal (.write uuid7 ending result) →
      result = {} ∨ ∃ state ∈ taken, state.Marked ∧ result.Carries state)
    (h : r.Landed taken) :
    (g r).Landed taken := by
  obtain ⟨hqueued, hprocessing, state, hstate, hcarries⟩ := h
  refine ⟨status_update_ne_queued hg hqueued, ?_⟩
  have hstatus (outcome : PipelineOutcome) (result : PipelineResult) :
      (r.writeTerminalOutcome outcome result now).pipelineStatus ≠ .processing := by
    unfold Row.writeTerminalOutcome
    split
    · exact hprocessing
    · cases outcome <;> simp [PipelineOutcome.status, hprocessing]
  cases f with
  | ingest f =>
      cases f <;> simp only [Frame.rowUpdate, Option.some.injEq, Prod.mk.injEq,
        reduceCtorEq] at hg
      all_goals
        obtain ⟨-, rfl⟩ := hg
        exact ⟨hprocessing, state, hstate, hcarries.text, hcarries.pre,
          hcarries.inProcess, hcarries.audio⟩
  | terminal f =>
      cases f <;> simp only [Frame.rowUpdate, Option.some.injEq, Prod.mk.injEq,
        reduceCtorEq] at hg
      · obtain ⟨rfl, rfl⟩ := hg
        obtain rfl := hheld _ rfl
        exact ⟨hstatus _ _, state, hstate, hcarries.write_empty⟩
      · obtain ⟨rfl, rfl⟩ := hg
        refine ⟨hstatus _ _, state, hstate, ?_⟩
        rcases hwritten _ _ rfl with rfl | ⟨state', hstate', hmarked, hresult⟩
        · exact hcarries.write_empty
        · obtain rfl : state = state' :=
            Option.some.inj ((Option.mem_def.mp hstate).symm.trans hstate')
          exact hcarries.write hmarked hresult
  | audit f =>
      cases f with
      | flag => simp [Frame.rowUpdate] at hg
      | mark v reason =>
          obtain ⟨-, rfl⟩ := by simpa [Frame.rowUpdate] using hg
          exact ⟨hstatus _ _, state, hstate, hcarries.write_empty⟩
      | release v approve =>
          obtain ⟨-, rfl⟩ := by simpa [Frame.rowUpdate] using hg
          have hkept : (r.releaseAudit approve now).Carries state := by
            unfold Row.releaseAudit
            repeat' split
            all_goals exact ⟨hcarries.text, hcarries.pre, hcarries.inProcess,
              hcarries.audio⟩
          refine ⟨?_, state, hstate, hkept⟩
          unfold Row.releaseAudit
          repeat' split
          all_goals simp [hprocessing]
  | _ => simp [Frame.rowUpdate] at hg

theorem not_ingestFails
    (hok : KeepsMessage uuid7 s a f) :
    ¬ IngestFails uuid7 a f := by
  intro hfails
  cases f with
  | ingest f =>
      cases f with
      | setCommand msg command =>
          exact absurd (hok hfails.1) (by simp [hfails.2])
      | setUserUuid msg =>
          exact absurd (hok hfails.1) (by simp [hfails.2])
      | _ => exact hfails
  | _ => exact hfails

/-- A terminal write that succeeds lands what was taken out of memory, unless it
completes a held row. -/
theorem landed_write
    {ending : Ending} {result : PipelineResult} {state : PipelineState} {now : Nat}
    {r : Row}
    (hstate : state ∈ taken)
    (hmarked : state.Marked)
    (hresult : result.Carries state)
    (hheld : ending = .complete → r.pipelineStatus ≠ .audit) :
    (r.writeTerminalOutcome ending.outcome result now).Landed taken := by
  have hlands : ¬ (ending.outcome = .complete ∧ r.pipelineStatus = .audit) := by
    rintro ⟨hcomplete, haudit⟩
    refine absurd haudit (hheld ?_)
    cases ending <;> simp [Ending.outcome] at hcomplete ⊢
  refine ⟨status_write_ne_queued _ _ _ _, ?_, state, hstate,
    carries_of_write hmarked hresult hlands⟩
  unfold Row.writeTerminalOutcome
  rw [if_neg hlands]
  cases ending <;> simp [Ending.outcome, PipelineOutcome.status]

/-- Taking the state out of memory hands it to the frame that writes it. -/
theorem owned_of_take
    {ending : Ending} {state : PipelineState} {r : Row}
    (hstate : s.shared.pipelineStates uuid7 = some state)
    (hr : s.shared.timeline.row? uuid7 = some r)
    (hi : s.threads[i]? = some (.terminal (.take uuid7 ending) :: rest))
    (done : Row → Prop) :
    Owned uuid7 done (afterRun s i a (.terminal (.take uuid7 ending)) rest) := by
  have hnext : ((Frame.terminal (.take uuid7 ending)).step s.shared a).next =
      some [.terminal (.write uuid7 ending state.result)] := by
    simp [Frame.step, TerminalFrame.step, hstate, go]
  refine ⟨r, ?_, Or.inr (Or.inl (atTop_of_next hi hnext ⟨rfl, rfl⟩))⟩
  simpa [Frame.step, TerminalFrame.step, hstate, Engine.putState] using hr

/-- Under the side condition an owned message stays owned. -/
theorem Owned.keeps
    (h : Owned uuid7 (Row.Landed taken) s)
    (hok : KeepsMessage uuid7 s a f)
    (hwritten : ∀ ending result, .terminal (.write uuid7 ending result) ∈ s.frames →
      result = {} ∨ ∃ state ∈ taken, state.Marked ∧ result.Carries state)
    (hi : s.threads[i]? = some (f :: rest)) :
    Owned uuid7 (Row.Landed (noteTaken uuid7 s (.run i a) taken))
      (afterRun s i a f rest) := by
  have hf := mem_frames_of_getElem? hi (List.mem_cons_self ..)
  rw [noteTaken_run hi]
  cases htakes : takes uuid7 f with
  | true =>
      obtain ⟨ending, rfl⟩ : ∃ ending, f = .terminal (.take uuid7 ending) := by
        unfold takes at htakes
        split at htakes
        · exact ⟨_, by rw [of_decide_eq_true htakes]⟩
        · cases htakes
      cases hstate : s.shared.pipelineStates uuid7 with
      | some state =>
          obtain ⟨r, hr, -⟩ := h
          exact owned_of_take hstate hr hi _
      | none =>
          rw [if_pos rfl, Option.none_or]
          refine (h.run (fun g r hg => ?_) (by simp) hi).resolve_right id
          simp [Frame.rowUpdate] at hg
  | false =>
      rw [if_neg (by simp)]
      by_cases hheld : ∃ result, f = .terminal (.writeHeld uuid7 result) ∧ result ≠ {}
      · -- the message is in memory, whatever the statement does to its row
        obtain ⟨result, rfl, hresult⟩ := hheld
        obtain ⟨r, hr, -⟩ := h
        obtain ⟨r', hr', -⟩ := @row_step_some _ _ a (fun _ => True)
          (.terminal (.writeHeld uuid7 result)) r (fun _ _ => id) hr
        exact ⟨r', hr', Or.inl (state_step_some (hok rfl hresult) (by simp))⟩
      · push Not at hheld
        have hdone g r (hg : f.rowUpdate s.shared.now = some (uuid7, g)) :=
          landed_update (r := r) hg hheld
            fun ending result hwrites => hwritten ending result (hwrites ▸ hf)
        have hwrite ending result r
            (hwrites : f = .terminal (.write uuid7 ending result))
            (htext : result.processedMessage.isSome = true)
            (hr : s.shared.timeline.row? uuid7 = some r) :
            a.dbOk = true ∧ (r.writeTerminalOutcome ending.outcome result
              s.shared.now).Landed taken := by
          subst hwrites
          obtain ⟨hdb, hfree⟩ := hok rfl
          rcases hwritten ending result hf with rfl | ⟨state, hstate, hmarked, hresult⟩
          · simp at htext
          · refine ⟨hdb, landed_write hstate hmarked hresult fun hcomplete haudit => ?_⟩
            simp [Timeline.isAudited, hr, haudit] at hfree
            exact hfree hcomplete
        exact (h.run hdone hwrite hi).resolve_right (not_ingestFails hok)

/-- A forgotten message stays forgotten until a step takes it up. -/
theorem Forgotten.untaken
    (h : Forgotten uuid7 s)
    (htakes : ¬ TakesUp uuid7 s.shared a f)
    (hi : s.threads[i]? = some (f :: rest)) :
    Forgotten uuid7 (afterRun s i a f rest) := by
  have hf := h.tasks f (mem_frames_of_getElem? hi (List.mem_cons_self ..))
  refine h.run hi fun g hg => ?_
  cases hdb : a.dbOk with
  | true =>
      refine not_worksOn_new_of_untaken ?_ ?_ hf h.pending h.held hg
      · rintro msg rfl hmsg hrow
        exact htakes ⟨hmsg, hdb, hrow⟩
      · rintro rfl
        by_contra hload
        exact htakes ⟨rfl, hdb, Option.isSome_iff_ne_none.mpr hload⟩
  | false =>
      by_cases hinsert : ∃ msg, f = .ingest (.insertEvent msg)
      · obtain ⟨msg, rfl⟩ := hinsert
        simp [Frame.step, IngestFrame.step, hdb] at hg
      by_cases hload : f = .recovery (.load uuid7)
      · subst hload
        simp [Frame.step, RecoveryFrame.step, hdb] at hg
      · exact not_worksOn_new_of_untaken
          (fun msg heq _ => absurd ⟨msg, heq⟩ hinsert)
          (fun heq => absurd heq hload) hf h.pending h.held hg

/-- An ingest starts with the world only. -/
theorem insertEvent_of_new
    {msg : PipelineMessage} {g : Frame}
    (hg : g ∈ (f.step e a).new) :
    g ≠ .ingest (.insertEvent msg) := by
  rintro rfl
  generalize hw : Frame.ingest (.insertEvent msg) = w at hg
  have hexpired {sw : Sweep} {entry : PendingAck} {still : Bool} {g : Frame}
      (hexp : Expires sw entry still g) : .ingest (.insertEvent msg) ≠ g := by
    rcases hexp.shape with ⟨_, rfl, _⟩ | ⟨_, rfl⟩ | rfl | ⟨_, rfl⟩ | rfl <;> simp
  cases Frame.leads hg with
  | @fanout_nobody fo _ => cases hst : fo.stage <;> simp [FanoutFrame.nobody, hst] at hw
  | @replay_hold _ point _ => cases point <;> simp [replayHold] at hw
  | sweep_expire _ _ hexp => exact hexpired hexp hw
  | sweep_gone _ hexp => exact hexpired hexp hw
  | sweep_unsent _ hexp => exact hexpired hexp hw
  | _ => simp at hw

/-- What is about to be written is what was taken out of memory. -/
theorem Keeping.written_run
    {ending : Ending} {result : PipelineResult}
    (h : Keeping uuid7 e taken s)
    (hok : KeepsMessage uuid7 s a f)
    (hi : s.threads[i]? = some (f :: rest))
    (hg : .terminal (.write uuid7 ending result) ∈ (afterRun s i a f rest).frames) :
    result = {} ∨ ∃ state ∈ noteTaken uuid7 s (.run i a) taken,
      state.Marked ∧ result.Carries state := by
  rw [noteTaken_run hi]
  rcases mem_frames_after_run hi hg with hnew | hold
  · obtain ⟨rfl, rfl⟩ := takes_of_write_new hnew
    cases hstate : s.shared.pipelineStates uuid7 with
    | none => exact Or.inl rfl
    | some state =>
        refine Or.inr ⟨state, ?_, h.marked state hstate, result_carries state⟩
        simp [takes]
  · rcases h.written ending result hold with hempty | hcarries
    · exact Or.inl hempty
    · cases htakes : takes uuid7 f with
      | false => exact Or.inr hcarries
      | true =>
          unfold takes at htakes
          split at htakes
          · -- the state is taken only when no other result is to be written
            have hnone := hok (of_decide_eq_true htakes) _ hold
            exact Or.inl (by_contra fun hne => hnone ⟨rfl, hne⟩)
          · cases htakes

theorem Keeping.run
    (h : Keeping uuid7 e taken s)
    (hok : KeepsMessage uuid7 s a f)
    (hi : s.threads[i]? = some (f :: rest)) :
    Keeping uuid7 e (noteTaken uuid7 s (.run i a) taken) (afterRun s i a f rest) := by
  refine ⟨fun msg hg => ?_, ?_, fun hunborn => ?_,
    fun state => marked_step h.marked, fun ending result => h.written_run hok hi⟩
  · rcases mem_frames_after_run hi hg with hg | hg
    · exact absurd rfl (insertEvent_of_new hg)
    · exact h.fresh msg hg
  · by_cases htakes : TakesUp uuid7 s.shared a f
    · exact Or.inr (owned_of_takesUp _ htakes hi)
    · exact h.kept.imp (fun hforgot => hforgot.untaken htakes hi)
        (fun howned => howned.keeps hok h.written hi)
  · rcases h.unborn hunborn with hnone | howned
    · by_cases htakes : TakesUp uuid7 s.shared a f
      · exact Or.inr (owned_of_takesUp _ htakes hi)
      · refine Or.inl ?_
        rcases f.step_row s.shared a uuid7 with hrow | ⟨msg, rfl, hmsg, -, hrow⟩ |
          ⟨-, g, -, hrow⟩
        · exact hrow.trans hnone
        · cases hdb : a.dbOk with
          | true => exact absurd ⟨hmsg, hdb, hnone⟩ htakes
          | false =>
              simp [Frame.step, IngestFrame.step, hdb, hnone] at hrow
        · rw [hrow, hnone]
          rfl
    · exact Or.inr (howned.keeps hok h.written hi)

theorem Keeping.fire
    {s' : EnginePool} {l : EngineLabel}
    (h : Keeping uuid7 e taken s)
    (hok : KeepsMessages uuid7 e s l)
    (hfire : engine.fire s l = some s') :
    Keeping uuid7 e (noteTaken uuid7 s l taken) s' := by
  cases l with
  | world ev =>
      obtain ⟨r, hr, rfl⟩ := fire_world_cases hfire
      obtain rfl := engine_event_eq hr
      have howned (ho : Owned uuid7 (Row.Landed taken) s) : Owned uuid7 (Row.Landed taken)
          { shared := ev.effect s.shared, threads := s.threads ++ ev.starts } := by
        obtain ⟨row, hrow, howner⟩ := ho
        refine ⟨row, by cases ev <;> exact hrow, ?_⟩
        rcases howner with hstate | hkeeps | hlanded
        · exact Or.inl (by cases ev <;> exact hstate)
        · exact Or.inr (Or.inl
            (Pool.AtTop.world (r := (ev.effect s.shared, ev.starts)) hkeeps))
        · exact Or.inr (Or.inr hlanded)
      have hframes {g : Frame} (hg : g ∈ Pool.frames
          { shared := ev.effect s.shared, threads := s.threads ++ ev.starts }) :
          g ∈ s.frames ∨ Opens ev g :=
        (mem_frames_after_world (r := (ev.effect s.shared, ev.starts)) hg).imp id
          opens_of_mem
      refine ⟨fun msg hg => ?_, h.kept.imp Forgotten.world howned, fun hunborn => ?_,
        by cases ev <;> exact h.marked, fun ending result hg => ?_⟩
      · rcases hframes hg with hg | hopens
        · exact h.fresh msg hg
        · cases hopens
          exact hok
      · refine (h.unborn hunborn).imp (fun hnone => ?_) howned
        cases ev <;> exact hnone
      · rcases hframes hg with hg | hopens
        · exact h.written ending result hg
        · cases hopens
  | run i a =>
      obtain ⟨f, rest, o, hi, ho, rfl⟩ := fire_run_cases hfire
      obtain rfl := engine_step_eq ho
      have hrun : OnRun (KeepsMessage uuid7) s (.run i a : EngineLabel) := hok
      exact h.run (hrun.top hi) hi

/-- The frame that calls the database changes no state and takes none. -/
theorem not_stateSubject_of_callsDatabase
    (h : CallsDatabase uuid7 f) :
    f.stateSubject = none ∧ takes uuid7 f = false := by
  cases f with
  | ingest f => cases f <;> first | exact ⟨rfl, rfl⟩ | exact h.elim
  | terminal f => cases f <;> first | exact ⟨rfl, rfl⟩ | exact h.elim
  | _ => exact h.elim

/-- An owned message is kept by a step that calls the database. -/
theorem Owned.kept
    (h : Owned uuid7 (Row.Landed (noteTaken uuid7 s (.run i a) taken))
      (afterRun s i a f rest))
    (hcalls : CallsDatabase uuid7 f)
    (hwritten : ∀ ending result,
      .terminal (.write uuid7 ending result) ∈ (afterRun s i a f rest).frames →
        result = {} ∨ ∃ state ∈ noteTaken uuid7 s (.run i a) taken,
          state.Marked ∧ result.Carries state)
    (hi : s.threads[i]? = some (f :: rest)) :
    Kept uuid7 taken s (afterRun s i a f rest) := by
  obtain ⟨hsubject, htakes⟩ := not_stateSubject_of_callsDatabase hcalls
  have hsame : noteTaken uuid7 s (.run i a) taken = taken := by
    rw [noteTaken_run hi, htakes, if_neg (by simp)]
  rw [hsame] at h hwritten
  obtain ⟨r, hr, howner⟩ := h
  refine Or.inr ⟨r, hr, ?_⟩
  rcases howner with hstate | ⟨t, ht, g, hg, hkeeps⟩ | hlanded
  · obtain ⟨state, hstate⟩ := Option.ne_none_iff_exists'.mp hstate
    have hbefore := Frame.step_pipelineStates s.shared a (f := f) (v := uuid7)
      (by simp [hsubject])
    exact Or.inl ⟨state, hbefore ▸ hstate, hstate⟩
  · refine Or.inr (Or.inl ⟨t, ht, g, hg, ?_⟩)
    cases g with
    | terminal g =>
        cases g with
        | write v ending result =>
            obtain ⟨rfl, htext⟩ := hkeeps
            have hmem : .terminal (.write v ending result) ∈
                (afterRun s i a f rest).frames :=
              List.mem_flatten.mpr ⟨t, ht, List.mem_of_mem_head? hg⟩
            rcases hwritten ending result hmem with rfl | ⟨state, hstate, -, hresult⟩
            · simp at htext
            · exact ⟨rfl, state, hstate, hresult⟩
        | _ => exact hkeeps
    | _ => exact hkeeps
  · exact Or.inr (Or.inr hlanded)

end Steps

/-- **Main theorem.**  In a run from boot in which, for the message, the calls
between row and state succeed, terminal writes land and the state is taken when no
earlier result is still to be written, every database call of `insert_and_start` or
of a terminal path for the message, whether it fails or not, leaves it without a
row, in memory as it was, in the hands of a task, or with what was taken out of
memory on an ended row. -/
theorem call_keeps_message
    (uuid7 : String)
    (e : Engine)
    (hstates : e.pipelineStates uuid7 = none)
    (hpending : e.ackTracker = .new)
    (hheld : e.pauseState.held = [])
    {taken : Option PipelineState} {s : EnginePool}
    (hs : Ghosted engine (noteTaken uuid7) (fun _ => KeepsMessages uuid7 e) none
      (boot e) taken s)
    {i : Nat} {a : Answer} {f : Frame} {rest : List Frame}
    (hi : s.threads[i]? = some (f :: rest))
    (hcalls : CallsDatabase uuid7 f)
    (hok : KeepsMessage uuid7 s a f) :
    Kept uuid7 taken s (afterRun s i a f rest) := by
  have hkeeping : Keeping uuid7 e taken s := by
    refine hs.invariant ?_ Keeping.fire
    have hforgot : Forgotten uuid7 (boot e) := by
      refine ⟨hstates, ?_, ?_, ?_⟩
      · simp [boot, hpending, AckTracker.new]
      · simp [boot, hheld]
      · simp [boot, Pool.frames]
    exact ⟨by simp [boot, Pool.frames], Or.inl hforgot, Or.inl,
      by simp [boot, hstates], by simp [boot, Pool.frames]⟩
  have hf := mem_frames_of_getElem? hi (List.mem_cons_self ..)
  have hafter := hkeeping.run (a := a) hok hi
  by_cases hinsert : ∃ msg, f = .ingest (.insertEvent msg)
  · obtain ⟨msg, rfl⟩ := hinsert
    rcases hafter.unborn (hkeeping.fresh msg hf hcalls) with hnone | howned
    · exact Or.inl hnone
    · exact howned.kept hcalls hafter.written hi
  · have hworks : WorksOn uuid7 f := by
      cases f with
      | ingest f =>
          cases f with
          | insertEvent msg => exact absurd ⟨msg, rfl⟩ hinsert
          | insertState msg => exact hcalls.elim
          | _ => exact hcalls
      | terminal f => cases f <;> first | exact hcalls | exact hcalls.elim
      | _ => exact hcalls.elim
    rcases hkeeping.kept with hforgot | howned
    · exact absurd hworks (hforgot.tasks f hf)
    · exact (howned.keeps hok hkeeping.written hi).kept hcalls hafter.written hi

/-- A module answers twice before its entry goes, the second time to abandon the
message; the first answer completes it. -/
def abandonedLate : List EngineLabel :=
  .world (.ingest { uuid7 := "m", rawMessage := "hi" }) ::
    List.replicate 12 (.run 0 {}) ++
  .world (.reply
    { uuid7 := "m", moduleName := "bot", stage := .inProcess
      processedMessage := "hello" }) ::
  .world (.reply
    { uuid7 := "m", moduleName := "bot", stage := .inProcess
      abandonMessage := true }) ::
  .run 2 {} :: List.replicate 17 (.run 1 {}) ++ List.replicate 2 (.run 2 {})

/-- The read of the hold fails for the abandon: the text of the completed message is
on its row. -/
theorem call_keeps_message_abandonedLate :
    ∃ s, engine.exec (boot { config := { inProcessModules := ["bot"] } })
        abandonedLate = some s ∧
      (∃ r ∈ s.shared.timeline.row? "m", r.pipelineStatus = .complete ∧
        r.processedMessage = some "hello") ∧
      Kept "m" (engine.ghost (noteTaken "m")
          (boot { config := { inProcessModules := ["bot"] } }) none abandonedLate) s
        (afterRun s 2 { dbOk := false }
          (.terminal (.check "m" (.dropped (abandonReason "bot")))) []) := by
  obtain ⟨s, hrun, hrow, htop⟩ := exec_any (P := engine)
    (Q := fun s => (∃ r ∈ s.shared.timeline.row? "m", r.pipelineStatus = .complete ∧
        r.processedMessage = some "hello") ∧
      s.threads[2]? = some [.terminal (.check "m" (.dropped (abandonReason "bot")))])
    (boot { config := { inProcessModules := ["bot"] } }) abandonedLate
    (by decide +kernel)
  exact ⟨s, hrun, hrow, call_keeps_message "m"
    { config := { inProcessModules := ["bot"] } } rfl rfl rfl
    (ghosted_of_allGhosted abandonedLate .start (by decide +kernel) hrun) htop rfl
    trivial⟩

/-- The terminal write of the message fails: its row stays queued, and its state
and its result are gone. -/
theorem message_lost_to_failed_write :
    ¬ ∀ (uuid7 : String) (e : Engine) (ls : List EngineLabel) (s : EnginePool)
        (i : Nat) (a : Answer) (f : Frame) (rest : List Frame),
      e.pipelineStates uuid7 = none →
      e.ackTracker = .new →
      e.pauseState.held = [] →
      engine.exec (boot e) ls = some s →
      s.threads[i]? = some (f :: rest) →
      CallsDatabase uuid7 f →
      a.dbOk = false →
      Kept uuid7 (engine.ghost (noteTaken uuid7) (boot e) none ls) s
        (afterRun s i a f rest) := by
  intro h
  have hkept := h "m" {}
    (.world (.ingest { uuid7 := "m", rawMessage := "hi" }) ::
      List.replicate 17 (.run 0 {})) _ 0 { dbOk := false }
    (.terminal (.write "m" .complete { processedMessage := some "hi" })) []
    rfl rfl rfl rfl rfl rfl rfl
  exact absurd hkept (by decide)

end CockatielEngine
