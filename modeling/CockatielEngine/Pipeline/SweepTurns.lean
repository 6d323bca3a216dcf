import CockatielEngine.Pipeline.DriveReturns

/-!
# Pipeline: the turns of a sweep

One call of `handle_timeout` that runs alone: it drains the expired entries and
takes the turn of each of them.  The order in which the entries come out of the
table is given; whom a re-send reaches and what the databases answer does not
depend on it.
-/

namespace CockatielEngine

open TaskPool

/-- What surrounds a sweep: whom a re-send reaches, and the answers to all
other steps. -/
structure SweepWorld where
  reached : String → SendOutcome
  answer : Frame → Answer

namespace SweepWorld

/-- The answers to the steps of a sweep that takes its entries in an order. -/
def answers (w : SweepWorld) (order : List (PendingAck × Bool)) : Frame → Answer
  | .sweep (.drain _) => { order := order }
  | .sweep (.resendSend _ entry _ _) => { outcome := w.reached entry.moduleName }
  | f => w.answer f

/-- One call of `handle_timeout`, with what it puts on record. -/
def Sweeps (w : SweepWorld) (order : List (PendingAck × Bool)) (e e' : Engine) :
    Prop :=
  Returns engine (w.answers order) { e with log := [] } [.sweep .start] e'

/-- The entry can be sent again. -/
def Resends (w : SweepWorld) (e : Engine) (x : PendingAck) : Prop :=
  SweepFrame.wantsResend x = true ∧ (e.pipelineStates x.uuid7).isSome = true ∧
    w.reached x.moduleName = .sent

instance (w : SweepWorld) (e : Engine) (x : PendingAck) : Decidable (w.Resends e x) :=
  inferInstanceAs (Decidable (_ ∧ _ ∧ _))

/-- The turn of one drained entry in the loop of a sweep. -/
inductive Turn (w : SweepWorld) (x : PendingAck) (still : Bool) (e : Engine)
    (sw : Sweep) : Engine → Sweep → Prop
  | resent {state : PipelineState} :
      SweepFrame.wantsResend x = true →
      e.pipelineStates x.uuid7 = some state →
      w.reached x.moduleName = .sent →
      Turn w x still e sw
        { e.logged (.resent x.uuid7 x.stage x.moduleName
            (state.resendContainer x.uuid7 x.stage)) with
          ackTracker := e.ackTracker.reTrack e.now x }
        { sw with resent := x.uuid7 :: sw.resent }
  | failed {e' : Engine} :
      ¬ w.Resends e x →
      sw.config.criticalModules.contains x.moduleName = true →
      sw.failed.contains x.uuid7 = false →
      Returns engine w.answer e
        [.terminal (.check x.uuid7
          (.failed (criticalTimeoutError x.moduleName x.stage)))] e' →
      Turn w x still e sw e' { sw with failed := x.uuid7 :: sw.failed }
  | failedBefore :
      ¬ w.Resends e x →
      sw.config.criticalModules.contains x.moduleName = true →
      sw.failed.contains x.uuid7 = true →
      Turn w x still e sw e sw
  | advanced {e' : Engine} :
      ¬ w.Resends e x →
      sw.config.criticalModules.contains x.moduleName = false →
      SweepFrame.advances sw x still = true →
      Returns engine w.answer (SweepFrame.noteSweptOut e x)
        [SweepFrame.advanceFrame x.uuid7 sw.config.inProcessModules.length x.stage] e' →
      Turn w x still e sw e' { sw with advanced := x.uuid7 :: sw.advanced }
  | passed :
      ¬ w.Resends e x →
      sw.config.criticalModules.contains x.moduleName = false →
      SweepFrame.advances sw x still = false →
      Turn w x still e sw e sw

/-- The turns of the drained entries, one after the other. -/
inductive Turns (w : SweepWorld) :
    Engine → Sweep → List (PendingAck × Bool) → Engine → Prop
  | nil {e : Engine} {sw : Sweep} : Turns w e sw [] e
  | cons {e e₁ e' : Engine} {sw sw₁ : Sweep} {x : PendingAck} {still : Bool}
      {todo : List (PendingAck × Bool)} :
      Turn w x still e sw e₁ sw₁ →
      Turns w e₁ sw₁ todo e' →
      Turns w e sw ((x, still) :: todo) e'

variable {w : SweepWorld} {order todo : List (PendingAck × Bool)}
variable {e e' : Engine} {sw : Sweep} {x : PendingAck} {still : Bool}

/-- What drives a message is answered in the same way in every order. -/
theorem returns_drives
    {f : Frame} (hf : f.drives = true) :
    Returns engine (w.answers order) e [f] e' ↔ Returns engine w.answer e [f] e' := by
  have hworld (g : Frame) (hg : g.drives = true) : w.answers order g = w.answer g := by
    cases g <;> first | rfl | simp [Frame.drives] at hg
  have hnew {world : Frame → Answer} {s : Engine} {g : Frame} {o : Outcome Engine Frame}
      {fs : List Frame} (hg : g.drives = true)
      (hstep : engine.step s g (world g) = some o) (hnext : o.next = some fs) :
      ∀ g' ∈ fs, g'.drives = true := by
    intro g' hg'
    obtain rfl := engine_step_eq hstep
    refine drives_new (e := s) (a := world g) hg ?_
    simp [Outcome.new, hnext, hg']
  have hone : ∀ g ∈ [f], g.drives = true := by simp [hf]
  exact ⟨fun h => h.congr (·.drives = true) hworld hnew hone,
    fun h => h.congr (·.drives = true) (fun g hg => (hworld g hg).symm) hnew hone⟩

/-- The timeout path is the turn of an entry that is not sent again. -/
theorem turn_of_expire
    (hnot : ¬ w.Resends e x) :
    ∃ e₁ fs, SweepFrame.expire e { sw with todo := todo } x still = go e₁ fs ∧
      (Returns engine (w.answers order) e₁ fs e' ↔
        ∃ e₁ sw₁, Turn w x still e sw e₁ sw₁ ∧
          Returns engine (w.answers order) e₁
            [.sweep (.next { sw₁ with todo := todo })] e') := by
  have hone {g : Frame} {e₁ : Engine} {sw₁ : Sweep} (hg : g.drives = true) :
      Returns engine (w.answers order) e₁ [g, .sweep (.next sw₁)] e' ↔
        ∃ e₂, Returns engine w.answer e₁ [g] e₂ ∧
          Returns engine (w.answers order) e₂ [.sweep (.next sw₁)] e' := by
    rw [← List.singleton_append, Returns.append_iff]
    simp only [returns_drives hg]
  cases hcritical : sw.config.criticalModules.contains x.moduleName with
  | true =>
      cases hfailed : sw.failed.contains x.uuid7 with
      | true =>
          refine ⟨e, [.sweep (.next { sw with todo := todo })],
            by simp only [SweepFrame.expire, hcritical, hfailed, if_true], ?_⟩
          constructor
          · exact fun h => ⟨e, sw, .failedBefore hnot hcritical hfailed, h⟩
          · rintro ⟨e₁, sw₁, hturn, hrest⟩
            cases hturn <;> simp_all [Resends]
      | false =>
          refine ⟨e, [.terminal (.check x.uuid7
              (.failed (criticalTimeoutError x.moduleName x.stage))),
            .sweep (.next { sw with todo := todo, failed := x.uuid7 :: sw.failed })],
            by simp only [SweepFrame.expire, hcritical, hfailed, if_true,
              Bool.false_eq_true, if_false], ?_⟩
          rw [hone rfl]
          constructor
          · rintro ⟨e₁, hfail, hrest⟩
            exact ⟨e₁, _, .failed hnot hcritical hfailed hfail, hrest⟩
          · rintro ⟨e₁, sw₁, hturn, hrest⟩
            cases hturn with
            | failed _ _ _ hfail => exact ⟨_, hfail, hrest⟩
            | _ => simp_all [Resends]
  | false =>
      cases hadvances : SweepFrame.advances sw x still with
      | true =>
          refine ⟨SweepFrame.noteSweptOut e x, [SweepFrame.advanceFrame x.uuid7
              sw.config.inProcessModules.length x.stage,
            .sweep (.next { sw with todo := todo, advanced := x.uuid7 :: sw.advanced })],
            ?_, ?_⟩
          · have hadvances' :
                SweepFrame.advances { sw with todo := todo } x still = true :=
              hadvances
            simp only [SweepFrame.expire, hcritical, hadvances', if_true,
              Bool.false_eq_true, if_false]
          rw [hone (by cases x.stage <;> rfl)]
          constructor
          · rintro ⟨e₁, hadvance, hrest⟩
            exact ⟨e₁, _, .advanced hnot hcritical hadvances hadvance, hrest⟩
          · rintro ⟨e₁, sw₁, hturn, hrest⟩
            cases hturn with
            | advanced _ _ _ hadvance => exact ⟨_, hadvance, hrest⟩
            | _ => simp_all [Resends]
      | false =>
          refine ⟨e, [.sweep (.next { sw with todo := todo })], ?_, ?_⟩
          · have hadvances' :
                SweepFrame.advances { sw with todo := todo } x still = false :=
              hadvances
            simp only [SweepFrame.expire, hcritical, hadvances', Bool.false_eq_true,
              if_false]
          constructor
          · exact fun h => ⟨e, sw, .passed hnot hcritical hadvances, h⟩
          · rintro ⟨e₁, sw₁, hturn, hrest⟩
            cases hturn <;> simp_all [Resends]

/-- The loop of a sweep takes the turn of its first entry. -/
theorem returns_next_cons :
    Returns engine (w.answers order) e
        [.sweep (.next { sw with todo := (x, still) :: todo })] e' ↔
      ∃ e₁ sw₁, Turn w x still e sw e₁ sw₁ ∧
        Returns engine (w.answers order) e₁
          [.sweep (.next { sw₁ with todo := todo })] e' := by
  have hexpire (hnot : ¬ w.Resends e x) (f : Frame)
      (hstep : f.step e (w.answers order f) =
        SweepFrame.expire e { sw with todo := todo } x still) :
      Returns engine (w.answers order) e [f] e' ↔
        ∃ e₁ sw₁, Turn w x still e sw e₁ sw₁ ∧
          Returns engine (w.answers order) e₁
            [.sweep (.next { sw₁ with todo := todo })] e' := by
    obtain ⟨e₁, fs, hgo, hturn⟩ := turn_of_expire hnot
    rw [returns_go e₁ fs (hstep.trans hgo), List.append_nil]
    exact hturn
  cases hwants : SweepFrame.wantsResend x with
  | false =>
      refine hexpire (by simp [Resends, hwants]) _ ?_
      simp [Frame.step, SweepFrame.step, hwants]
  | true =>
      rw [returns_go e [.sweep (.resendLoad { sw with todo := todo } x still)]
        (by simp [Frame.step, SweepFrame.step, hwants]), List.append_nil]
      cases hstate : e.pipelineStates x.uuid7 with
      | none =>
          refine hexpire (by simp [Resends, hstate]) _ ?_
          simp [Frame.step, SweepFrame.step, hstate]
      | some state =>
          rw [returns_go e [.sweep (.resendSend { sw with todo := todo } x still
              (state.resendContainer x.uuid7 x.stage))]
            (by simp [Frame.step, SweepFrame.step, hstate]), List.append_nil]
          by_cases hsent : w.reached x.moduleName = .sent
          · have hresends : w.Resends e x := by simp [Resends, hwants, hstate, hsent]
            rw [returns_go (e.logged (.resent x.uuid7 x.stage x.moduleName
                (state.resendContainer x.uuid7 x.stage)))
              [.sweep (.resendTrack { sw with todo := todo } x)]
              (by simp [Frame.step, SweepFrame.step, answers, hsent]), List.append_nil,
              returns_go _ _ (by simp only [Frame.step, SweepFrame.step]; rfl),
              List.append_nil]
            constructor
            · exact fun h => ⟨_, _, .resent hwants hstate hsent, h⟩
            · rintro ⟨e₁, sw₁, hturn, hrest⟩
              cases hturn with
              | resent _ hstate' _ =>
                  obtain rfl := Option.some.inj (hstate.symm.trans hstate')
                  exact hrest
              | _ => contradiction
          · refine hexpire (by simp [Resends, hsent]) _ ?_
            simp [Frame.step, SweepFrame.step, answers, hsent]

/-- The loop of a sweep takes the turns of its entries. -/
theorem returns_next_iff
    (sw : Sweep) :
    Returns engine (w.answers order) e [.sweep (.next { sw with todo := todo })] e' ↔
      Turns w e sw todo e' := by
  induction todo generalizing e sw with
  | nil =>
      rw [returns_go e [] rfl, List.append_nil, Returns.nil_iff]
      constructor
      · rintro rfl
        exact .nil
      · rintro ⟨⟩
        rfl
  | cons entry todo ih =>
      obtain ⟨x, still⟩ := entry
      simp only [returns_next_cons, ih]
      constructor
      · rintro ⟨e₁, sw₁, hturn, hrest⟩
        exact .cons hturn hrest
      · rintro (_ | ⟨hturn, hrest⟩)
        exact ⟨_, _, hturn, hrest⟩

/-- What a sweep leaves of the table and has on record before its first turn. -/
def afterDrain (e : Engine) : Engine :=
  let r := e.ackTracker.checkTimeouts e.now
  { e with
    ackTracker := r.2
    log := r.1.map fun x => .timedOut x.1 }

/-- The entries that a sweep drains, in the order of their turns. -/
def drainedIn (order : List (PendingAck × Bool)) (e : Engine) :
    List (PendingAck × Bool) :=
  SweepFrame.drained { order := order } (e.ackTracker.checkTimeouts e.now).1

/-- The locals of the loop before its first turn. -/
def firstSweep (order : List (PendingAck × Bool)) (e : Engine) : Sweep where
  config := e.config
  todo := drainedIn order e
  criticalUuids := SweepFrame.criticalUuids e.config (drainedIn order e)

/-- A sweep takes the turns of what it drains, if the gate is open. -/
theorem sweeps_iff :
    w.Sweeps order e e' ↔
      if e.pauseState.isGated then e' = { e with log := [] }
      else Turns w (afterDrain e) (firstSweep order e) (drainedIn order e) e' := by
  unfold Sweeps
  split
  · rename_i hgated
    rw [returns_go { e with log := [] } []
        (by simp [Frame.step, SweepFrame.step, hgated]),
      List.append_nil, Returns.nil_iff]
  · rename_i hgated
    have hdrain : (Frame.sweep (.drain e.config)).step { e with log := [] }
        (w.answers order (.sweep (.drain e.config))) =
          go (afterDrain e) [.sweep (.next (firstSweep order e))] := by
      simp [Frame.step, SweepFrame.step, answers, afterDrain, firstSweep, drainedIn,
        Engine.now]
    rw [returns_go { e with log := [] } [.sweep .config]
        (by simp [Frame.step, SweepFrame.step, hgated]), List.append_nil,
      returns_go { e with log := [] } [.sweep (.drain e.config)] rfl, List.append_nil,
      returns_go _ _ hdrain, List.append_nil]
    exact returns_next_iff (firstSweep order e)

section Failing

variable {world : Frame → Answer} {u : String} {e e' : Engine} {error : String}

/-- A held row stays held when a result lands on it. -/
theorem isAudited_writeHeld
    {t : Timeline} (haudited : t.isAudited u = true) (result : PipelineResult)
    (now : Nat) :
    (t.writeTerminalOutcome u .auditHeld result now).isAudited u = true := by
  obtain ⟨r, hr, hstatus⟩ := (Timeline.isAudited_iff ..).mp haudited
  simp [Timeline.isAudited, Timeline.writeTerminalOutcome, hr, Row.writeTerminalOutcome,
    PipelineOutcome.status, hstatus]

/-- A written outcome ends a message that is not held. -/
theorem returns_written
    {result : PipelineResult}
    (hstate : e.pipelineStates u = none)
    (h : Returns engine world e [.terminal (.write u (.failed error) result)] e') :
    e'.clock = e.clock ∧ e'.pipelineStates u = none ∧ e'.ackTracker.entries u = [] := by
  by_cases hdb : (world (.terminal (.write u (.failed error) result))).dbOk = true
  · rw [returns_go _ [.terminal (.ack u)]
        (by simp only [Frame.step, TerminalFrame.step, hdb, if_true]; rfl),
      List.append_nil, returns_go _ [] rfl, List.append_nil, Returns.nil_iff] at h
    subst h
    exact ⟨rfl, hstate, (entries_ack ..).trans (if_pos rfl)⟩
  · exact absurd h (not_returns_of_fail (by simp [Frame.step, TerminalFrame.step, hdb]))

/-- A failure leaves a held message alone and forgets any other. -/
theorem returns_failed
    (h : Returns engine world e [.terminal (.check u (.failed error))] e') :
    e'.clock = e.clock ∧
      if e.timeline.isAudited u then
        e'.pipelineStates u = e.pipelineStates u ∧ e'.timeline.isAudited u = true ∧
          e'.ackTracker.entries u = e.ackTracker.entries u
      else e'.pipelineStates u = none ∧ e'.ackTracker.entries u = [] := by
  by_cases hdb : (world (.terminal (.check u (.failed error)))).dbOk = true
  · cases haudited : e.timeline.isAudited u with
    | true =>
        rw [returns_go e [.terminal (.snapshot u)]
            (by simp [Frame.step, TerminalFrame.step, hdb, haudited]), List.append_nil,
          returns_go _ _ rfl, List.append_nil] at h
        set result := ((e.pipelineStates u).map PipelineState.result).getD {}
        by_cases hwrite : (world (.terminal (.writeHeld u result))).dbOk = true
        · rw [returns_go _ []
              (by simp only [Frame.step, TerminalFrame.step, hwrite, if_true]; rfl),
            List.append_nil, Returns.nil_iff] at h
          subst h
          exact ⟨rfl, rfl, isAudited_writeHeld haudited _ _, rfl⟩
        · exact absurd h
            (not_returns_of_fail (by simp [Frame.step, TerminalFrame.step, hwrite]))
    | false =>
        rw [returns_go e [.terminal (.take u (.failed error))]
          (by simp [Frame.step, TerminalFrame.step, hdb, haudited]), List.append_nil] at h
        cases hstate : e.pipelineStates u with
        | none =>
            rw [returns_go e [.terminal (.write u (.failed error) {})]
              (by simp [Frame.step, TerminalFrame.step, hstate]), List.append_nil] at h
            exact returns_written hstate h
        | some state =>
            rw [returns_go (e.putState u none)
                [.terminal (.write u (.failed error) state.result)]
              (by simp [Frame.step, TerminalFrame.step, hstate]), List.append_nil] at h
            have hnone : (e.putState u none).pipelineStates u = none := by
              simp [Engine.putState]
            have hend := returns_written hnone h
            exact hend
  · exact absurd h (not_returns_of_fail (by simp [Frame.step, TerminalFrame.step, hdb]))

end Failing

section Turns

variable {w : SweepWorld} {u : String} {x : PendingAck} {still : Bool}
variable {e e₀ e₁ e' : Engine} {sw sw₁ : Sweep}

theorem sameFor_noteSweptOut (x : PendingAck) :
    SameFor u (SweepFrame.noteSweptOut e x) e := by
  unfold SweepFrame.noteSweptOut
  split
  · exact ((SameFor.refl e).logged_left _).logged_left _
  · exact (SameFor.refl e).logged_left _

theorem takenOut_noteSweptOut (x : PendingAck) :
    (SweepFrame.noteSweptOut e x).takenOut u =
      (if x.uuid7 = u then [x.stage] else []) ++ e.takenOut u := by
  unfold SweepFrame.noteSweptOut
  split <;> split <;> simp_all [takenOut_logged, Event.takesOut]

theorem sentAgain_noteSweptOut (x : PendingAck) :
    (SweepFrame.noteSweptOut e x).sentAgain u = e.sentAgain u := by
  unfold SweepFrame.noteSweptOut
  split <;> simp [sentAgain_logged, Event.sendsAgain]

/-- The frame by which an entry takes its message out of a stage drives it. -/
theorem advanceFrame_drives (v : String) (len : Nat) (stage : Stage) :
    (SweepFrame.advanceFrame v len stage).drives = true ∧
      WorksOn v (SweepFrame.advanceFrame v len stage) := by
  cases stage <;> exact ⟨rfl, rfl⟩

/-- The turn of an entry leaves a message as it was. -/
structure Untouched (u : String) (e : Engine) (sw : Sweep) (e₁ : Engine) (sw₁ : Sweep) :
    Prop where
  same : SameFor u e₁ e
  resent : u ∈ sw₁.resent ↔ u ∈ sw.resent
  advanced : u ∈ sw₁.advanced ↔ u ∈ sw.advanced
  failed : u ∈ sw₁.failed ↔ u ∈ sw.failed
  takenOut : e₁.takenOut u = e.takenOut u
  sentAgain : e₁.sentAgain u = e.sentAgain u

/-- The turn of an entry of another message. -/
theorem Turn.untouched
    (h : Turn w x still e sw e₁ sw₁)
    (hne : x.uuid7 ≠ u) :
    Untouched u e sw e₁ sw₁ := by
  cases h with
  | @resent state _ _ _ =>
      refine ⟨⟨rfl, rfl, rfl, rfl, rfl, rfl, ?_⟩, ?_, Iff.rfl, Iff.rfl, ?_, ?_⟩
      · simp [entries_reTrack, hne]
      · simp [Ne.symm hne]
      · exact takenOut_logged _
      · exact (sentAgain_logged _).trans (by simp [Event.sendsAgain, hne])
  | failed _ _ _ hfail =>
      obtain ⟨htaken, hsent⟩ := returns_records (u := u) hfail rfl
      exact ⟨returns_other hfail rfl rfl hne, Iff.rfl, Iff.rfl, by simp [Ne.symm hne],
        htaken, hsent⟩
  | advanced _ _ _ hadvance =>
      obtain ⟨hdrives, hworks⟩ :=
        advanceFrame_drives x.uuid7 sw.config.inProcessModules.length x.stage
      obtain ⟨htaken, hsent⟩ := returns_records (u := u) hadvance hdrives
      exact ⟨(returns_other hadvance hdrives hworks hne).trans (sameFor_noteSweptOut x),
        Iff.rfl, by simp [Ne.symm hne], Iff.rfl,
        by rw [htaken, takenOut_noteSweptOut, if_neg hne, List.nil_append],
        by rw [hsent, sentAgain_noteSweptOut]⟩
  | _ => exact ⟨.refl e, Iff.rfl, Iff.rfl, Iff.rfl, rfl, rfl⟩

/-- The locals that no turn changes. -/
theorem Turn.locals
    (h : Turn w x still e sw e₁ sw₁) :
    sw₁.config = sw.config ∧ sw₁.criticalUuids = sw.criticalUuids := by
  cases h <;> exact ⟨rfl, rfl⟩

/-- No turn installs a state. -/
theorem Turn.none
    (h : Turn w x still e sw e₁ sw₁)
    (hnone : e.pipelineStates u = none) :
    e₁.pipelineStates u = none := by
  cases h with
  | failed _ _ _ hfail => exact returns_none hfail rfl hnone
  | advanced _ _ _ hadvance =>
      refine returns_none hadvance (advanceFrame_drives ..).1 ?_
      rw [(sameFor_noteSweptOut x).state, hnone]
  | _ => exact hnone

end Turns

section Runs

variable {w : SweepWorld} {u : String} {x : PendingAck} {still : Bool}
variable {e e₀ e₁ e' : Engine} {sw sw₁ : Sweep} {todo : List (PendingAck × Bool)}

/-- An invariant of the turns, over the entries that have had theirs. -/
theorem Turns.invariant
    (D : List (PendingAck × Bool))
    (I : List (PendingAck × Bool) → Engine → Sweep → Prop)
    (hstep : ∀ {done x still e sw e₁ sw₁}, (x, still) ∈ D → I done e sw →
      Turn w x still e sw e₁ sw₁ → I (done ++ [(x, still)]) e₁ sw₁)
    (h : Turns w e sw todo e')
    (hD : ∀ y ∈ todo, y ∈ D)
    (done : List (PendingAck × Bool))
    (hinit : I done e sw) :
    ∃ sw', I (done ++ todo) e' sw' := by
  induction h generalizing done with
  | nil => exact ⟨_, by rwa [List.append_nil]⟩
  | cons hturn _ ih =>
      obtain ⟨hx, hD⟩ := List.forall_mem_cons.mp hD
      have hone := ih hD _ (hstep hx hinit hturn)
      rwa [List.append_assoc, List.singleton_append] at hone

/-- A turn takes a message out of a stage only when it is due and no turn before
it has done so or sent an entry again. -/
theorem Turn.takenOut_cases
    (h : Turn w x still e sw e₁ sw₁) :
    e₁.takenOut u = e.takenOut u ∨
      x.uuid7 = u ∧ SweepFrame.advances sw x still = true ∧ u ∈ sw₁.advanced ∧
        e₁.takenOut u = x.stage :: e.takenOut u := by
  by_cases hu : x.uuid7 = u
  · cases h with
    | resent _ _ _ => exact Or.inl (takenOut_logged _)
    | failed _ _ _ hfail => exact Or.inl (returns_records hfail rfl).1
    | advanced _ _ hadvances hadvance =>
        refine Or.inr ⟨hu, hadvances, hu ▸ List.mem_cons_self, ?_⟩
        rw [(returns_records hadvance (advanceFrame_drives ..).1).1,
          takenOut_noteSweptOut, if_pos hu, List.singleton_append]
    | _ => exact Or.inl rfl
  · exact Or.inl (h.untouched hu).takenOut

/-- No turn takes a message off the locals. -/
theorem Turn.locals_mono
    (h : Turn w x still e sw e₁ sw₁) :
    (u ∈ sw.resent → u ∈ sw₁.resent) ∧ (u ∈ sw.advanced → u ∈ sw₁.advanced) := by
  cases h <;> simp +contextual

/-- Once a message has been taken out of its stage or sent again, no turn takes
it out. -/
theorem Turns.takenOut_of_settled
    (h : Turns w e sw todo e')
    (hsettled : u ∈ sw.resent ∨ u ∈ sw.advanced) :
    e'.takenOut u = e.takenOut u := by
  induction h with
  | nil => rfl
  | @cons e e₁ e' sw sw₁ x still todo hturn _ ih =>
      rw [ih (hsettled.imp hturn.locals_mono.1 hturn.locals_mono.2)]
      rcases hturn.takenOut_cases (u := u) with hsame | ⟨rfl, hadvances, -⟩
      · exact hsame
      · simp [SweepFrame.advances] at hadvances
        exact absurd hsettled (by simp [hadvances])

/-- A sweep takes a message out of one stage at most. -/
theorem Turns.takenOut_once
    (h : Turns w e sw todo e')
    (hnone : e.takenOut u = []) :
    (e'.takenOut u).length ≤ 1 := by
  induction h with
  | nil => simp [hnone]
  | @cons e e₁ e' sw sw₁ x still todo hturn hrest ih =>
      rcases hturn.takenOut_cases (u := u) with hsame | ⟨rfl, -, hsettled, htaken⟩
      · exact ih (hsame.trans hnone)
      · rw [hrest.takenOut_of_settled (Or.inr hsettled), htaken, hnone]
        simp

end Runs

end SweepWorld

end CockatielEngine
