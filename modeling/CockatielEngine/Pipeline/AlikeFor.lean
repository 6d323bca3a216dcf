import CockatielEngine.Pipeline.SameFor

/-!
# Pipeline: one message up to the times

Two states are alike for a message when they differ for it in times only: in when
its entries were sent and whether a receipt came, and in when its row was written.
What works on the message takes the same steps in both, and what works on another
message leaves it alone.
-/

namespace CockatielEngine

open TaskPool

/-- A row without the times at which the pipeline has written it. -/
def Row.untimed (row : Row) : Row :=
  { row with postProcessCompletedAt := none, persistedAt := none }

/-- The stage messages of a message that still want an answer. -/
def AckTracker.owed (t : AckTracker) (uuid7 : String) : List (Stage × String) :=
  (t.entries uuid7).map fun x => (x.stage, x.moduleName)

/-- The dispatch of the message that an event records. -/
def Event.dispatch (uuid7 : String) : Event → Option (Stage × String)
  | .sent v stage moduleName _ => if v = uuid7 then some (stage, moduleName) else none
  | _ => none

/-- The dispatches of a message, oldest first. -/
def Engine.dispatches (e : Engine) (uuid7 : String) : List (Stage × String) :=
  e.log.reverse.filterMap (Event.dispatch uuid7)

/-- The message a frame works on. -/
def Frame.about : Frame → Option String
  | .ingest (.insertEvent msg) => some msg.uuid7
  | .ingest (.setCommand msg _) => some msg.uuid7
  | .ingest (.setUserUuid msg) => some msg.uuid7
  | .ingest (.insertState msg) => some msg.uuid7
  | .recovery (.check v) => some v
  | .recovery (.load v) => some v
  | .recovery (.insertState v _) => some v
  | .broadcast (.enter v) => some v
  | .broadcast (.load v) => some v
  | .broadcast (.config v _) => some v
  | .fanout (.send fo _) => some fo.uuid7
  | .fanout (.track fo _ _) => some fo.uuid7
  | .inProcess (.enter v) => some v
  | .inProcess (.audit v) => some v
  | .inProcess (.load v) => some v
  | .inProcess (.config v _) => some v
  | .inProcess (.send v _ _ _ _) => some v
  | .inProcess (.track v _ _) => some v
  | .inProcess (.skip v _) => some v
  | .postProcess (.enter v) => some v
  | .postProcess (.audit v) => some v
  | .postProcess (.load v) => some v
  | .postProcess (.config v _) => some v
  | .terminal (.check v _) => some v
  | .terminal (.snapshot v) => some v
  | .terminal (.writeHeld v _) => some v
  | .terminal (.take v _) => some v
  | .terminal (.write v _ _) => some v
  | .terminal (.ack v) => some v
  | .reply (.check r) => some r.uuid7
  | .reply (.record r) => some r.uuid7
  | .reply (.audio r) => some r.uuid7
  | .reply (.ackConfig v _) => some v
  | .reply (.ackModule v _ _) => some v
  | .advance (.notePre v) => some v
  | .advance (.noteIn v _) => some v
  | .advance (.nextIndex v _) => some v
  | .advance (.refresh v) => some v
  | .advance (.storeUserData v _) => some v
  | .audit (.flag v _) => some v
  | .audit (.mark v _) => some v
  | .audit (.release v _) => some v
  | _ => none

/-- The frame puts the time into the state of its message, or leads to one that
does. -/
def Frame.timed : Frame → Bool
  | .reply _ => true
  | .advance (.notePre _) => true
  | .advance (.noteIn _ _) => true
  | _ => false

/-- Two states that differ for the message in times only. -/
structure AlikeFor (uuid7 : String) (e₁ e₂ : Engine) : Prop where
  config : e₁.config = e₂.config
  registry : e₁.commandRegistry = e₂.commandRegistry
  state : e₁.pipelineStates uuid7 = e₂.pipelineStates uuid7
  row : (e₁.timeline.row? uuid7).map Row.untimed =
    (e₂.timeline.row? uuid7).map Row.untimed
  owed : e₁.ackTracker.owed uuid7 = e₂.ackTracker.owed uuid7
  dispatches : e₁.dispatches uuid7 = e₂.dispatches uuid7

/-- Steps that go on alike for the message. -/
structure AlikeOutcome (uuid7 : String) (o₁ o₂ : Outcome Engine Frame) : Prop where
  next : o₁.next = o₂.next
  shared : AlikeFor uuid7 o₁.shared o₂.shared

namespace AlikeFor

variable {u : String} {e e₁ e₂ e₃ : Engine}

theorem refl (e : Engine) : AlikeFor u e e :=
  ⟨rfl, rfl, rfl, rfl, rfl, rfl⟩

theorem symm (h : AlikeFor u e₁ e₂) : AlikeFor u e₂ e₁ :=
  ⟨h.config.symm, h.registry.symm, h.state.symm, h.row.symm, h.owed.symm,
    h.dispatches.symm⟩

theorem trans (h : AlikeFor u e₁ e₂) (h' : AlikeFor u e₂ e₃) : AlikeFor u e₁ e₃ :=
  ⟨h.config.trans h'.config, h.registry.trans h'.registry, h.state.trans h'.state,
    h.row.trans h'.row, h.owed.trans h'.owed, h.dispatches.trans h'.dispatches⟩

end AlikeFor

section Owed

variable {t : AckTracker} {u v moduleName : String} {now : Nat}

theorem owed_track {stage : Stage} {ms : Nat} :
    (t.track now v stage moduleName ms).owed u =
      t.owed u ++ if v = u then [(stage, moduleName)] else [] := by
  unfold AckTracker.owed
  rw [entries_track]
  split <;> simp

theorem owed_ack : (t.ack v).owed u = if v = u then [] else t.owed u := by
  unfold AckTracker.owed
  rw [entries_ack]
  split <;> rfl

/-- Restarting the clocks changes times only. -/
theorem owed_restartClocks : (t.restartClocks now).owed u = t.owed u := by
  simp only [AckTracker.owed, AckTracker.entries, AckTracker.restartClocks,
    List.filter_map, List.map_map]
  rfl

/-- A receipt answers nothing. -/
theorem owed_markReceipt : (t.markReceipt v moduleName).owed u = t.owed u := by
  have hmark (l : List PendingAck) (p : PendingAck → Bool) :
      ((AckTracker.markFirst p l).filter fun x => x.uuid7 = u).map
          (fun x => (x.stage, x.moduleName)) =
        (l.filter fun x => x.uuid7 = u).map fun x => (x.stage, x.moduleName) := by
    induction l with
    | nil => rfl
    | cons x l ih =>
        rw [AckTracker.markFirst]
        split
        · by_cases hx : x.uuid7 = u <;> simp [hx]
        · by_cases hx : x.uuid7 = u <;> simp [hx, ih]
  exact hmark _ _

/-- A sweep that finds nothing expired leaves the table. -/
theorem checkTimeouts_of_none
    (h : (t.checkTimeouts now).1 = []) :
    (t.checkTimeouts now).2 = t := by
  have hnone : ∀ x ∈ t.pending, ¬ x.expired now = true := by
    rw [AckTracker.checkTimeouts, List.map_eq_nil_iff, List.filter_eq_nil_iff] at h
    exact h
  have hall : t.pending.filter (fun x => !x.expired now) = t.pending :=
    List.filter_eq_self.mpr fun x hx => by simpa using hnone x hx
  rw [AckTracker.checkTimeouts]
  exact congrArg AckTracker.mk hall

theorem isPendingFor_iff_owed {stage : Stage} :
    t.isPendingFor u moduleName stage = true ↔ (stage, moduleName) ∈ t.owed u := by
  rw [AckTracker.isPendingFor_iff]
  simp only [AckTracker.owed, AckTracker.entries, List.mem_map, List.mem_filter,
    decide_eq_true_eq, Prod.mk.injEq]
  constructor
  · rintro ⟨x, hx, hu, hmodule, hstage⟩
    exact ⟨x, ⟨hx, hu⟩, hstage, hmodule⟩
  · rintro ⟨x, ⟨hx, hu⟩, hstage, hmodule⟩
    exact ⟨x, hx, hu, hmodule, hstage⟩

/-- Filtering a table filters what a message is owed. -/
theorem owed_filter
    (p : PendingAck → Bool) (q : Stage × String → Bool)
    (h : ∀ x ∈ t.pending, x.uuid7 = u → p x = q (x.stage, x.moduleName)) :
    AckTracker.owed ⟨t.pending.filter p⟩ u = (t.owed u).filter q := by
  simp only [AckTracker.owed, AckTracker.entries, List.filter_map, List.filter_filter]
  congr 1
  refine List.filter_congr fun x hx => ?_
  by_cases hu : x.uuid7 = u
  · simp [hu, h x hx hu]
  · simp [hu]

theorem hasPending_eq_owed : t.hasPending u = !(t.owed u).isEmpty := by
  rw [Bool.eq_iff_iff, AckTracker.hasPending_iff]
  simp [AckTracker.owed, AckTracker.entries]

theorem owed_ackModule (t : AckTracker) (now : Nat) (u v moduleName : String) :
    (t.ackModule now v moduleName).2.owed u =
      if v = u then (t.owed u).filter (·.2 ≠ moduleName) else t.owed u := by
  have hrest : AckTracker.owed ⟨t.pending.filter fun x => !x.isFor v moduleName⟩ u =
      if v = u then (t.owed u).filter (·.2 ≠ moduleName) else t.owed u := by
    split
    · rename_i hv
      exact owed_filter _ _ fun x _ hx => by simp [PendingAck.isFor, hv, hx]
    · rename_i hv
      rw [owed_filter _ (fun _ => true) fun x _ hx => by
        simp [PendingAck.isFor, hx, Ne.symm hv]]
      exact List.filter_true _
  rcases t.ackModule_cases now v moduleName with
    ⟨hack, hnone⟩ | ⟨_, _, rest, _, _, hp, hack⟩
  · have hall : t.pending.filter (fun x => !x.isFor v moduleName) = t.pending :=
      List.filter_eq_self.mpr fun x hx => by simp [hnone x hx]
    rw [hack]
    rwa [hall] at hrest
  · rw [hack]
    rwa [← hp] at hrest

/-- What an ack answers: the stage of the module's first entry, and whether the
message still has a pending entry. -/
theorem ackModule_answer (t : AckTracker) (now : Nat) (u moduleName : String) :
    (t.ackModule now u moduleName).1.map (fun r => (r.1, r.2.2)) =
      ((t.owed u).find? (·.2 = moduleName)).map fun x =>
        (x.1, !((t.owed u).filter (·.2 ≠ moduleName)).isEmpty) := by
  have hfind : (t.owed u).find? (·.2 = moduleName) =
      (t.pending.find? (PendingAck.isFor u moduleName)).map fun x =>
        (x.stage, x.moduleName) := by
    simp only [AckTracker.owed, AckTracker.entries, List.find?_map, List.find?_filter]
    congr 2
    funext x
    simp [PendingAck.isFor]
  have howed := owed_ackModule t now u u moduleName
  rw [if_pos rfl] at howed
  rw [hfind, ← howed, ← hasPending_eq_owed]
  cases h : t.pending.find? (PendingAck.isFor u moduleName) with
  | none => simp [AckTracker.ackModule, h]
  | some x => simp [AckTracker.ackModule, h]

end Owed

section Untimed

variable {row row' : Row} {now now' : Nat}

/-- What is written depends on the times only where it writes them. -/
theorem untimed_writeTerminalOutcome
    (h : row.untimed = row'.untimed)
    (outcome : PipelineOutcome) (result : PipelineResult) :
    (row.writeTerminalOutcome outcome result now).untimed =
      (row'.writeTerminalOutcome outcome result now').untimed := by
  have huntimed (r : Row) (n : Nat) :
      (r.writeTerminalOutcome outcome result n).untimed =
        (r.untimed.writeTerminalOutcome outcome result 0).untimed := by
    by_cases hheld : outcome = .complete ∧ r.pipelineStatus = .audit
    · simp [Row.writeTerminalOutcome, Row.untimed, hheld]
    · simp [Row.writeTerminalOutcome, Row.untimed, hheld]
  rw [huntimed, huntimed row', h]

theorem untimed_releaseAudit
    (h : row.untimed = row'.untimed)
    (approve : Bool) :
    (row.releaseAudit approve now).untimed =
      (row'.releaseAudit approve now').untimed := by
  have huntimed (r : Row) (n : Nat) :
      (r.releaseAudit approve n).untimed =
        (r.untimed.releaseAudit approve 0).untimed := by
    by_cases hheld : r.pipelineStatus = .audit
    · cases approve <;> simp [Row.releaseAudit, Row.untimed, hheld]
    · simp [Row.releaseAudit, Row.untimed, hheld]
  rw [huntimed, huntimed row', h]

end Untimed

namespace AlikeFor

variable {u v : String} {e e₁ e₂ : Engine}

theorem putState (h : AlikeFor u e₁ e₂) (s : Option PipelineState) :
    AlikeFor u (e₁.putState u s) (e₂.putState u s) :=
  { h with state := by simp [Engine.putState] }

theorem modifyState (h : AlikeFor u e₁ e₂) (f : PipelineState → PipelineState) :
    AlikeFor u (e₁.modifyState u f) (e₂.modifyState u f) := by
  unfold Engine.modifyState
  rw [h.state]
  exact h.putState _

theorem tracked
    (h : AlikeFor u e₁ e₂) {t₁ t₂ : AckTracker}
    (howed : t₁.owed u = t₂.owed u) :
    AlikeFor u { e₁ with ackTracker := t₁ } { e₂ with ackTracker := t₂ } :=
  { h with owed := howed }

theorem stored
    (h : AlikeFor u e₁ e₂) {t₁ t₂ : Timeline}
    (hrow : (t₁.row? u).map Row.untimed = (t₂.row? u).map Row.untimed) :
    AlikeFor u { e₁ with timeline := t₁ } { e₂ with timeline := t₂ } :=
  { h with row := hrow }

theorem written
    (h : AlikeFor u e₁ e₂) {f₁ f₂ : Row → Row}
    (hf : ∀ {row row' : Row}, row.untimed = row'.untimed →
      (f₁ row).untimed = (f₂ row').untimed) :
    AlikeFor u { e₁ with timeline := e₁.timeline.update u f₁ }
      { e₂ with timeline := e₂.timeline.update u f₂ } := by
  refine h.stored ?_
  have hrow := h.row
  simp only [Timeline.row?_update, if_true]
  cases h₁ : e₁.timeline.row? u <;> cases h₂ : e₂.timeline.row? u <;>
    simp only [h₁, h₂, Option.map_none, Option.map_some, Option.some.injEq,
      reduceCtorEq] at hrow ⊢
  exact hf hrow

theorem logged (h : AlikeFor u e₁ e₂) (ev : Event) :
    AlikeFor u (e₁.logged ev) (e₂.logged ev) :=
  { h with
    dispatches := by
      have hd := h.dispatches
      simp only [Engine.dispatches, Engine.logged, List.reverse_cons,
        List.filterMap_append] at hd ⊢
      rw [hd] }

/-- Events that are no dispatches leave the dispatches. -/
theorem noted
    (h : AlikeFor u e₁ e₂) {evs₁ evs₂ : List Event}
    (h₁ : ∀ ev ∈ evs₁, ev.dispatch u = none)
    (h₂ : ∀ ev ∈ evs₂, ev.dispatch u = none) :
    AlikeFor u { e₁ with log := evs₁ ++ e₁.log } { e₂ with log := evs₂ ++ e₂.log } :=
  { h with
    dispatches := by
      have hd := h.dispatches
      have hnone₁ : evs₁.reverse.filterMap (Event.dispatch u) = [] :=
        List.filterMap_eq_nil_iff.mpr fun ev hev => h₁ ev (List.mem_reverse.mp hev)
      have hnone₂ : evs₂.reverse.filterMap (Event.dispatch u) = [] :=
        List.filterMap_eq_nil_iff.mpr fun ev hev => h₂ ev (List.mem_reverse.mp hev)
      simp only [Engine.dispatches, List.reverse_append, List.filterMap_append] at hd ⊢
      rw [hd, hnone₁, hnone₂] }

/-- What does not read the times is the same of both rows. -/
theorem read
    (h : AlikeFor u e₁ e₂) {β : Type} (g : Row → β)
    (hg : ∀ row, g row.untimed = g row) :
    (e₁.timeline.row? u).map g = (e₂.timeline.row? u).map g := by
  have hrow := congrArg (Option.map g) h.row
  have huntimed : g ∘ Row.untimed = g := funext hg
  rwa [Option.map_map, Option.map_map, huntimed] at hrow

theorem isAudited (h : AlikeFor u e₁ e₂) :
    e₁.timeline.isAudited u = e₂.timeline.isAudited u := by
  have hread := h.read (fun row => decide (row.pipelineStatus = .audit)) fun _ => rfl
  have hany (o : Option Row) (p : Row → Bool) : o.any p = (o.map p).getD false := by
    cases o <;> rfl
  rw [Timeline.isAudited, Timeline.isAudited, hany, hany, hread]

theorem loadQueuedMessage (h : AlikeFor u e₁ e₂) :
    e₁.timeline.loadQueuedMessage u = e₂.timeline.loadQueuedMessage u := by
  have hjoin (o : Option Row) (g : Row → Option QueuedMessage) :
      o.bind g = (o.map g).join := by
    cases o <;> rfl
  rw [Timeline.loadQueuedMessage, Timeline.loadQueuedMessage, hjoin, hjoin]
  exact congrArg Option.join (h.read _ fun _ => rfl)

theorem isSome_row (h : AlikeFor u e₁ e₂) :
    (e₁.timeline.row? u).isSome = (e₂.timeline.row? u).isSome := by
  simpa using congrArg Option.isSome h.row

theorem isPendingFor (h : AlikeFor u e₁ e₂) (moduleName : String) (stage : Stage) :
    e₁.ackTracker.isPendingFor u moduleName stage =
      e₂.ackTracker.isPendingFor u moduleName stage := by
  rw [Bool.eq_iff_iff, isPendingFor_iff_owed, isPendingFor_iff_owed, h.owed]

end AlikeFor

section Steps

variable {u v : String} {e e₁ e₂ : Engine} {a : Answer} {f g : Frame}

/-- What works on a message leaves frames that do. -/
theorem about_new
    (hf : f.about = some u)
    (hg : g ∈ (f.step e a).new) :
    g.about = some u := by
  cases Frame.leads hg with
  | @fanout_nobody fo _ => cases hstage : fo.stage <;> exact hf
  | _ => first | exact hf | cases hf

/-- Only what may put the time into a state leads to what does. -/
theorem timed_new
    (hf : f.about = some u)
    (hg : g ∈ (f.step e a).new)
    (htimed : g.timed = true) :
    f.timed = true := by
  cases Frame.leads hg with
  | @fanout_nobody fo _ =>
      cases hstage : fo.stage <;> simp [hstage, Frame.timed, FanoutFrame.nobody] at htimed
  | _ =>
      first
        | rfl
        | (cases hf; done)
        | simp [Frame.timed] at htimed

theorem about_of_stateSubject (h : f.stateSubject = some u) : f.about = some u := by
  cases f with
  | ingest f => cases f <;> first | exact h | simp [Frame.stateSubject] at h
  | recovery f => cases f <;> first | exact h | simp [Frame.stateSubject] at h
  | inProcess f => cases f <;> first | exact h | simp [Frame.stateSubject] at h
  | postProcess f => cases f <;> first | exact h | simp [Frame.stateSubject] at h
  | terminal f => cases f <;> first | exact h | simp [Frame.stateSubject] at h
  | reply f => cases f <;> first | exact h | simp [Frame.stateSubject] at h
  | advance f => cases f <;> first | exact h | simp [Frame.stateSubject] at h
  | _ => simp [Frame.stateSubject] at h

theorem about_of_rowUpdate
    {now : Nat} {g : Row → Row}
    (h : f.rowUpdate now = some (u, g)) :
    f.about = some u := by
  have hfst := congrArg (Option.map Prod.fst) h
  cases f with
  | ingest f => cases f <;> first | exact hfst | simp [Frame.rowUpdate] at h
  | terminal f => cases f <;> first | exact hfst | simp [Frame.rowUpdate] at h
  | audit f => cases f <;> first | exact hfst | simp [Frame.rowUpdate] at h
  | _ => simp [Frame.rowUpdate] at h

/-- The ack of another message leaves what this one is owed. -/
theorem owed_step_ackModule_ne
    {moduleName : String} {len : Nat}
    (hne : v ≠ u) :
    ((Frame.reply (.ackModule v moduleName len)).step e a).shared.ackTracker.owed u =
      e.ackTracker.owed u := by
  have howed := owed_ackModule e.ackTracker e.now u v moduleName
  rw [if_neg hne] at howed
  simp only [Frame.step, ReplyFrame.step]
  rcases hack : e.ackTracker.ackModule e.now v moduleName with ⟨_ | ⟨stage, _, still⟩, t⟩
  · rfl
  · rw [hack] at howed
    cases stage with
    | preProcess => exact howed
    | inProcess => exact howed
    | postProcess =>
        dsimp only
        split <;> exact howed

namespace AlikeFor

/-- An ack does the same in states that are alike for its message. -/
theorem ackModule
    (h : AlikeFor u e₁ e₂)
    (moduleName : String) (len : Nat) :
    AlikeOutcome u ((ReplyFrame.ackModule u moduleName len).step e₁)
      ((ReplyFrame.ackModule u moduleName len).step e₂) := by
  have hanswer := ackModule_answer e₁.ackTracker e₁.now u moduleName
  rw [h.owed, ← ackModule_answer e₂.ackTracker e₂.now] at hanswer
  have howed : (e₁.ackTracker.ackModule e₁.now u moduleName).2.owed u =
      (e₂.ackTracker.ackModule e₂.now u moduleName).2.owed u := by
    rw [owed_ackModule, owed_ackModule, h.owed]
  have hanswered (t : AckTracker) :
      ∀ ev ∈ ReplyFrame.answers t u moduleName, ev.dispatch u = none := by
    intro ev hev
    obtain ⟨x, -, rfl⟩ := List.mem_map.mp hev
    rfl
  simp only [ReplyFrame.step]
  rcases h₁ : e₁.ackTracker.ackModule e₁.now u moduleName with
    ⟨_ | ⟨stage, _, still⟩, t₁⟩
  · rcases h₂ : e₂.ackTracker.ackModule e₂.now u moduleName with
      ⟨_ | ⟨stage, _, still⟩, t₂⟩
    · exact ⟨rfl, h⟩
    · simp [h₁, h₂] at hanswer
  · rcases h₂ : e₂.ackTracker.ackModule e₂.now u moduleName with
      ⟨_ | ⟨stage', _, still'⟩, t₂⟩
    · simp [h₁, h₂] at hanswer
    · simp only [h₁, h₂, Option.map_some, Option.some.injEq, Prod.mk.injEq]
        at hanswer howed
      obtain ⟨rfl, rfl⟩ := hanswer
      have hacked := (h.tracked howed).noted (hanswered e₁.ackTracker)
        (hanswered e₂.ackTracker)
      cases stage with
      | preProcess => exact ⟨rfl, hacked⟩
      | inProcess => exact ⟨rfl, hacked⟩
      | postProcess =>
          dsimp only
          split
          · exact ⟨rfl, hacked⟩
          · exact ⟨rfl, hacked.logged _⟩

theorem ingest
    {f : IngestFrame}
    (h : AlikeFor u e₁ e₂)
    (hf : (Frame.ingest f).about = some u) :
    AlikeOutcome u (f.step e₁ a) (f.step e₂ a) := by
  cases f with
  | insertEvent msg =>
      obtain rfl : msg.uuid7 = u := Option.some.inj hf
      have hsome := h.isSome_row
      simp only [IngestFrame.step]
      split
      · cases h₁ : e₁.timeline.insertEvent msg.uuid7 (IngestFrame.row msg) with
        | none =>
            cases h₂ : e₂.timeline.insertEvent msg.uuid7 (IngestFrame.row msg) with
            | none => exact ⟨rfl, h⟩
            | some t₂ => simp_all [Timeline.insertEvent]
        | some t₁ =>
            cases h₂ : e₂.timeline.insertEvent msg.uuid7 (IngestFrame.row msg) with
            | none => simp_all [Timeline.insertEvent]
            | some t₂ =>
                have hstored : AlikeFor msg.uuid7 { e₁ with timeline := t₁ }
                    { e₂ with timeline := t₂ } :=
                  h.stored (by
                    simp [Timeline.row?_insertEvent h₁, Timeline.row?_insertEvent h₂])
                dsimp only
                split <;> exact ⟨rfl, hstored⟩
      · exact ⟨rfl, h⟩
  | setCommand msg command =>
      obtain rfl : msg.uuid7 = u := Option.some.inj hf
      simp only [IngestFrame.step]
      split
      · exact ⟨rfl, h.written fun hrow => congrArg (Row.setCommand command) hrow⟩
      · exact ⟨rfl, h⟩
  | setUserUuid msg =>
      obtain rfl : msg.uuid7 = u := Option.some.inj hf
      simp only [IngestFrame.step]
      split
      · exact ⟨rfl, h.written fun hrow => congrArg (Row.setUserUuid msg.userUuid7) hrow⟩
      · exact ⟨rfl, h⟩
  | insertState msg =>
      obtain rfl : msg.uuid7 = u := Option.some.inj hf
      exact ⟨rfl, h.putState _⟩

theorem recovery
    {f : RecoveryFrame}
    (h : AlikeFor u e₁ e₂)
    (hf : (Frame.recovery f).about = some u) :
    AlikeOutcome u (f.step e₁ a) (f.step e₂ a) := by
  cases f with
  | check w =>
      obtain rfl : w = u := Option.some.inj hf
      simp only [RecoveryFrame.step, h.state]
      split <;> exact ⟨rfl, h⟩
  | load w =>
      obtain rfl : w = u := Option.some.inj hf
      simp only [RecoveryFrame.step, h.loadQueuedMessage]
      split
      · split <;> exact ⟨rfl, h⟩
      · exact ⟨rfl, h⟩
  | insertState w msg =>
      obtain rfl : w = u := Option.some.inj hf
      exact ⟨rfl, h.putState _⟩
  | _ => cases hf

theorem broadcast
    {f : BroadcastFrame}
    (h : AlikeFor u e₁ e₂)
    (hf : (Frame.broadcast f).about = some u)
    (hopen : (Frame.broadcast f).hold.isSome = true →
      e₁.pauseState.isGated = false ∧ e₂.pauseState.isGated = false) :
    AlikeOutcome u (f.step e₁) (f.step e₂) := by
  cases f with
  | enter w =>
      obtain ⟨h₁, h₂⟩ := hopen rfl
      simp only [BroadcastFrame.step, PauseState.holdIfGated_of_open h₁,
        PauseState.holdIfGated_of_open h₂]
      exact ⟨rfl, h⟩
  | load w =>
      obtain rfl : w = u := Option.some.inj hf
      simp only [BroadcastFrame.step, h.state]
      split <;> exact ⟨rfl, h⟩
  | config w state =>
      simp only [BroadcastFrame.step, h.config, h.registry]
      exact ⟨rfl, h⟩

theorem fanout
    {f : FanoutFrame}
    (h : AlikeFor u e₁ e₂)
    (hf : (Frame.fanout f).about = some u) :
    AlikeOutcome u (f.step e₁ a) (f.step e₂ a) := by
  cases f with
  | send fo todo =>
      cases todo with
      | nil =>
          simp only [FanoutFrame.step]
          split
          · exact ⟨rfl, h⟩
          · exact ⟨rfl, h.logged _⟩
      | cons moduleName todo =>
          simp only [FanoutFrame.step]
          split
          · exact ⟨rfl, h.logged _⟩
          · exact ⟨rfl, h⟩
  | track fo moduleName todo =>
      refine ⟨rfl, h.tracked ?_⟩
      rw [owed_track, owed_track, h.owed]

theorem inProcess
    {f : InProcessFrame}
    (h : AlikeFor u e₁ e₂)
    (hf : (Frame.inProcess f).about = some u)
    (hopen : (Frame.inProcess f).hold.isSome = true →
      e₁.pauseState.isGated = false ∧ e₂.pauseState.isGated = false) :
    AlikeOutcome u (f.step e₁ a) (f.step e₂ a) := by
  have hstatus := h.isAudited
  cases f with
  | enter w =>
      obtain ⟨h₁, h₂⟩ := hopen rfl
      simp only [InProcessFrame.step, PauseState.holdIfGated_of_open h₁,
        PauseState.holdIfGated_of_open h₂]
      exact ⟨rfl, h⟩
  | audit w =>
      obtain rfl : w = u := Option.some.inj hf
      simp only [InProcessFrame.step, hstatus]
      split
      · split <;> exact ⟨rfl, h⟩
      · exact ⟨rfl, h⟩
  | load w =>
      obtain rfl : w = u := Option.some.inj hf
      simp only [InProcessFrame.step, h.state]
      split
      · exact ⟨rfl, h⟩
      · exact ⟨rfl, h.putState _⟩
  | config w state =>
      simp only [InProcessFrame.step, h.config, h.registry]
      split
      · exact ⟨rfl, h⟩
      · split <;> exact ⟨rfl, h⟩
  | send w state moduleName ackTimeoutMs len =>
      simp only [InProcessFrame.step]
      split
      · exact ⟨rfl, h.logged _⟩
      · exact ⟨rfl, h⟩
  | track w moduleName ackTimeoutMs =>
      refine ⟨rfl, h.tracked ?_⟩
      rw [owed_track, owed_track, h.owed]
  | skip w len =>
      obtain rfl : w = u := Option.some.inj hf
      simp only [InProcessFrame.step, h.state]
      split
      · exact ⟨rfl, h⟩
      · exact ⟨rfl, h.putState _⟩

theorem postProcess
    {f : PostProcessFrame}
    (h : AlikeFor u e₁ e₂)
    (hf : (Frame.postProcess f).about = some u)
    (hopen : (Frame.postProcess f).hold.isSome = true →
      e₁.pauseState.isGated = false ∧ e₂.pauseState.isGated = false) :
    AlikeOutcome u (f.step e₁ a) (f.step e₂ a) := by
  have hstatus := h.isAudited
  cases f with
  | enter w =>
      obtain ⟨h₁, h₂⟩ := hopen rfl
      simp only [PostProcessFrame.step, PauseState.holdIfGated_of_open h₁,
        PauseState.holdIfGated_of_open h₂]
      exact ⟨rfl, h⟩
  | audit w =>
      obtain rfl : w = u := Option.some.inj hf
      simp only [PostProcessFrame.step, hstatus]
      split
      · split <;> exact ⟨rfl, h⟩
      · exact ⟨rfl, h⟩
  | load w =>
      obtain rfl : w = u := Option.some.inj hf
      simp only [PostProcessFrame.step, h.state]
      split
      · exact ⟨rfl, h⟩
      · exact ⟨rfl, h.putState _⟩
  | config w state =>
      simp only [PostProcessFrame.step, h.config, h.registry]
      exact ⟨rfl, h⟩

theorem terminal
    {f : TerminalFrame}
    (h : AlikeFor u e₁ e₂)
    (hf : (Frame.terminal f).about = some u) :
    AlikeOutcome u (f.step e₁ a) (f.step e₂ a) := by
  have hstatus := h.isAudited
  cases f with
  | check w ending =>
      obtain rfl : w = u := Option.some.inj hf
      simp only [TerminalFrame.step, hstatus]
      split
      · split <;> exact ⟨rfl, h⟩
      · exact ⟨rfl, h⟩
  | snapshot w =>
      obtain rfl : w = u := Option.some.inj hf
      simp only [TerminalFrame.step, h.state]
      exact ⟨rfl, h⟩
  | writeHeld w result =>
      obtain rfl : w = u := Option.some.inj hf
      simp only [TerminalFrame.step]
      split
      · exact ⟨rfl, h.written fun hrow => untimed_writeTerminalOutcome hrow _ _⟩
      · exact ⟨rfl, h⟩
  | take w ending =>
      obtain rfl : w = u := Option.some.inj hf
      simp only [TerminalFrame.step, h.state]
      split
      · exact ⟨rfl, h⟩
      · exact ⟨rfl, h⟩
      · exact ⟨rfl, h.putState _⟩
  | write w ending result =>
      obtain rfl : w = u := Option.some.inj hf
      simp only [TerminalFrame.step]
      split
      · exact ⟨rfl, h.written fun hrow => untimed_writeTerminalOutcome hrow _ _⟩
      · exact ⟨rfl, h⟩
  | ack w =>
      refine ⟨rfl, (h.tracked ?_).logged _⟩
      rw [owed_ack, owed_ack, h.owed]

theorem reply
    {f : ReplyFrame}
    (h : AlikeFor u e₁ e₂)
    (hf : (Frame.reply f).about = some u) :
    AlikeOutcome u (f.step e₁) (f.step e₂) := by
  cases f with
  | check r =>
      obtain rfl : r.uuid7 = u := Option.some.inj hf
      simp only [ReplyFrame.step, h.isPendingFor]
      exact ⟨rfl, h.logged _⟩
  | record r =>
      obtain rfl : r.uuid7 = u := Option.some.inj hf
      exact ⟨rfl, h.modifyState _⟩
  | audio r =>
      obtain rfl : r.uuid7 = u := Option.some.inj hf
      exact ⟨rfl, h.modifyState _⟩
  | ackConfig w moduleName =>
      simp only [ReplyFrame.step, h.config]
      exact ⟨rfl, h⟩
  | ackModule w moduleName len =>
      obtain rfl : w = u := Option.some.inj hf
      exact h.ackModule moduleName len
  | receipt w moduleName => cases hf

theorem advance
    {f : AdvanceFrame}
    (h : AlikeFor u e₁ e₂)
    (hf : (Frame.advance f).about = some u)
    (hnow : (Frame.advance f).timed = true → e₁.now = e₂.now) :
    AlikeOutcome u (f.step e₁ a) (f.step e₂ a) := by
  cases f with
  | notePre w =>
      obtain rfl : w = u := Option.some.inj hf
      simp only [AdvanceFrame.step, hnow rfl]
      exact ⟨rfl, (h.modifyState _).logged _⟩
  | noteIn w len =>
      obtain rfl : w = u := Option.some.inj hf
      simp only [AdvanceFrame.step, hnow rfl]
      exact ⟨rfl, h.modifyState _⟩
  | nextIndex w len =>
      obtain rfl : w = u := Option.some.inj hf
      simp only [AdvanceFrame.step, h.state]
      split
      · exact ⟨rfl, h⟩
      · exact ⟨rfl, h.putState _⟩
  | refresh w =>
      obtain rfl : w = u := Option.some.inj hf
      simp only [AdvanceFrame.step, h.state]
      split <;> exact ⟨rfl, h⟩
  | storeUserData w userData =>
      obtain rfl : w = u := Option.some.inj hf
      exact ⟨rfl, h.modifyState _⟩

theorem audit
    {f : AuditFrame}
    (h : AlikeFor u e₁ e₂)
    (hf : (Frame.audit f).about = some u) :
    AlikeOutcome u (f.step e₁ a) (f.step e₂ a) := by
  have hstatus := h.isAudited
  cases f with
  | flag w reason =>
      obtain rfl : w = u := Option.some.inj hf
      simp only [AuditFrame.step, hstatus]
      split <;> exact ⟨rfl, h⟩
  | mark w reason =>
      obtain rfl : w = u := Option.some.inj hf
      simp only [AuditFrame.step]
      split
      · exact ⟨rfl, (h.written fun hrow =>
          untimed_writeTerminalOutcome hrow _ _).logged _⟩
      · exact ⟨rfl, h⟩
  | release w approve =>
      obtain rfl : w = u := Option.some.inj hf
      simp only [AuditFrame.step, hstatus]
      split
      · split
        · exact ⟨rfl, (h.written fun hrow =>
            untimed_releaseAudit hrow _).logged _⟩
        · exact ⟨rfl, h⟩
      · exact ⟨rfl, h⟩

/-- What works on a message does the same in states that are alike for it, where
the gate lets it through. -/
theorem step
    (h : AlikeFor u e₁ e₂)
    (hf : f.about = some u)
    (hopen : f.hold.isSome = true →
      e₁.pauseState.isGated = false ∧ e₂.pauseState.isGated = false)
    (hnow : f.timed = true → e₁.now = e₂.now) :
    AlikeOutcome u (f.step e₁ a) (f.step e₂ a) := by
  cases f with
  | ingest f => exact h.ingest hf
  | recovery f => exact h.recovery hf
  | broadcast f => exact h.broadcast hf hopen
  | fanout f => exact h.fanout hf
  | inProcess f => exact h.inProcess hf hopen
  | postProcess f => exact h.postProcess hf hopen
  | terminal f => exact h.terminal hf
  | reply f => exact h.reply hf
  | advance f => exact h.advance hf hnow
  | audit f => exact h.audit hf
  | _ => cases hf

/-- What works on another message leaves a state alike for this one. -/
theorem other
    (hf : f.about = some v)
    (hne : v ≠ u) :
    AlikeFor u (f.step e a).shared e where
  config := by simp
  registry := by simp
  state := by
    refine Frame.step_pipelineStates e a fun hsubject => hne ?_
    exact Option.some.inj (hf.symm.trans (about_of_stateSubject hsubject))
  row := by
    rcases Frame.step_row e a f u with hrow | ⟨msg, rfl, rfl, -⟩ | ⟨-, g, hg, -⟩
    · rw [hrow]
    · exact absurd (Option.some.inj hf).symm hne
    · exact absurd (Option.some.inj (hf.symm.trans (about_of_rowUpdate hg))) hne
  owed := by
    cases htouch : f.touchesAcks with
    | false => rw [Frame.step_ackTracker e a htouch]
    | true =>
        cases f with
        | fanout f =>
            cases f with
            | send => simp [Frame.touchesAcks] at htouch
            | track fo moduleName todo =>
                obtain rfl : fo.uuid7 = v := Option.some.inj hf
                simp [Frame.step, FanoutFrame.step, owed_track, hne]
        | inProcess f =>
            cases f with
            | track w moduleName ackTimeoutMs =>
                obtain rfl : w = v := Option.some.inj hf
                simp [Frame.step, InProcessFrame.step, owed_track, hne]
            | _ => simp [Frame.touchesAcks] at htouch
        | terminal f =>
            cases f with
            | ack w =>
                obtain rfl : w = v := Option.some.inj hf
                simp [Frame.step, TerminalFrame.step, Engine.logged, owed_ack, hne]
            | _ => simp [Frame.touchesAcks] at htouch
        | reply f =>
            cases f with
            | ackModule w moduleName len =>
                obtain rfl : w = v := Option.some.inj hf
                exact owed_step_ackModule_ne hne
            | receipt => cases hf
            | _ => simp [Frame.touchesAcks] at htouch
        | sweep => cases hf
        | resume => cases hf
        | _ => simp [Frame.touchesAcks] at htouch
  dispatches := by
    obtain ⟨evs, hlog, hevs⟩ := Frame.records e a f
    have hnone : ∀ ev ∈ evs, ev.dispatch u = none := by
      intro ev hev
      cases hevs ev hev with
      | fanout_sent => simp [Event.dispatch, show _ ≠ u from Option.some.inj hf ▸ hne]
      | inProcess_sent => simp [Event.dispatch, show _ ≠ u from Option.some.inj hf ▸ hne]
      | _ => rfl
    have hevs : evs.reverse.filterMap (Event.dispatch u) = [] :=
      List.filterMap_eq_nil_iff.mpr fun ev hev => hnone ev (List.mem_reverse.mp hev)
    simp [Engine.dispatches, hlog, List.filterMap_append, hevs]

end AlikeFor

end Steps

end CockatielEngine
