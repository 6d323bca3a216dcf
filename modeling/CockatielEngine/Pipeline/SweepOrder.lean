import CockatielEngine.Pipeline.SweepTurns

/-!
# Pipeline: the order of a sweep

What one call of `handle_timeout` makes of a message depends on the order in which
the expired entries come out of the table only where the message has entries that
can be sent again and entries that cannot: the first turn then decides whether the
stage is left.

**Main result.**  `SweepWorld.consistent_iff_oneKind`: of the sweeps of one table
none takes a message out of a stage and sends it again in it, none takes it out
twice, and all end alike, exactly when every message that is due has entries of
one kind.
-/

namespace CockatielEngine

open TaskPool

namespace SweepWorld

section Leaving

variable {w : SweepWorld} {cfg : PipelineConfig} {u : String} {stage : Stage}
variable {e₀ e e₁ : Engine} {sw sw₁ : Sweep} {x : PendingAck} {still begun : Bool}

/-- A message that the first turn of its entries takes out of its stage. -/
structure LeftOnce (w : SweepWorld) (cfg : PipelineConfig) (u : String) (stage : Stage)
    (e₀ : Engine) (begun : Bool) (e : Engine) (sw : Sweep) : Prop where
  config : sw.config = cfg
  uncritical : u ∉ sw.criticalUuids
  notResent : u ∉ sw.resent
  sentAgain : e.sentAgain u = []
  gone : e₀.pipelineStates u = none → e.pipelineStates u = none
  waiting : begun = false → SameFor u e e₀ ∧ u ∉ sw.advanced ∧ e.takenOut u = []
  left : begun = true → u ∈ sw.advanced ∧ e.takenOut u = [stage] ∧
    ∃ e₁ e₂, SameFor u e₁ e₀ ∧
      Returns engine w.answer e₁
        [SweepFrame.advanceFrame u cfg.inProcessModules.length stage] e₂ ∧
      SameFor u e e₂

/-- A state is kept where the first one is. -/
theorem Resends.of_gone
    (h : w.Resends e x)
    (hgone : e₀.pipelineStates x.uuid7 = none → e.pipelineStates x.uuid7 = none) :
    w.Resends e₀ x := by
  refine ⟨h.1, ?_, h.2.2⟩
  have hstate := h.2.1
  rw [Option.isSome_iff_ne_none] at hstate ⊢
  exact mt hgone hstate

/-- The first turn of its entries takes the message out, the others pass it. -/
theorem LeftOnce.turn
    (h : LeftOnce w cfg u stage e₀ begun e sw)
    (hturn : Turn w x still e sw e₁ sw₁)
    (hx : x.uuid7 = u → still = false ∧ ¬ w.Resends e₀ x ∧ x.stage = stage ∧
      cfg.criticalModules.contains x.moduleName = false) :
    LeftOnce w cfg u stage e₀ (begun || decide (x.uuid7 = u)) e₁ sw₁ := by
  by_cases hu : x.uuid7 = u
  · obtain ⟨hstill, hnot, hstage, hcritical⟩ := hx hu
    subst hu
    have hkeeps : ¬ w.Resends e x := fun hres => hnot (hres.of_gone h.gone)
    rw [← h.config] at hcritical
    simp only [decide_true, Bool.or_true]
    cases begun with
    | true =>
        have hadvanced := (h.left rfl).1
        have hpass : SweepFrame.advances sw x still = false := by
          simp [SweepFrame.advances, hadvanced]
        cases hturn with
        | passed _ _ _ => exact h
        | resent hwants hstate hsent =>
            exact absurd ⟨hwants, by simp [hstate], hsent⟩ hkeeps
        | _ => simp_all
    | false =>
        obtain ⟨hsame, hfresh, htaken⟩ := h.waiting rfl
        have hleaves : SweepFrame.advances sw x still = true := by
          simp [SweepFrame.advances, hstill, h.notResent, h.uncritical, hfresh]
        cases hturn with
        | advanced _ _ _ hadvance =>
            obtain ⟨hdrives, -⟩ :=
              advanceFrame_drives x.uuid7 sw.config.inProcessModules.length x.stage
            obtain ⟨htaken', hsent'⟩ := returns_records (u := x.uuid7) hadvance hdrives
            refine ⟨h.config, h.uncritical, h.notResent, ?_, ?_, by simp, fun _ => ?_⟩
            · rw [hsent', sentAgain_noteSweptOut, h.sentAgain]
            · intro hnone
              refine returns_none hadvance hdrives ?_
              rw [(sameFor_noteSweptOut x).state, h.gone hnone]
            · refine ⟨List.mem_cons_self, ?_, SweepFrame.noteSweptOut e x, e₁,
                (sameFor_noteSweptOut x).trans hsame, ?_, .refl e₁⟩
              · rw [htaken', takenOut_noteSweptOut, if_pos rfl, htaken, hstage,
                  List.append_nil]
              · rw [← h.config, ← hstage]
                exact hadvance
        | resent hwants hstate hsent =>
            exact absurd ⟨hwants, by simp [hstate], hsent⟩ hkeeps
        | _ => simp_all
  · have hother := hturn.untouched hu
    obtain ⟨hconfig, hcritical⟩ := hturn.locals
    simp only [hu, decide_false, Bool.or_false]
    refine ⟨hconfig.trans h.config, hcritical ▸ h.uncritical,
      mt hother.resent.mp h.notResent, hother.sentAgain.trans h.sentAgain,
      fun hnone => hturn.none (h.gone hnone), fun hbegun => ?_, fun hbegun => ?_⟩
    · obtain ⟨hsame, hfresh, htaken⟩ := h.waiting hbegun
      exact ⟨hother.same.trans hsame, mt hother.advanced.mp hfresh,
        hother.takenOut.trans htaken⟩
    · obtain ⟨hadvanced, htaken, s₁, s₂, hs₁, hcall, hs₂⟩ := h.left hbegun
      exact ⟨hother.advanced.mpr hadvanced, hother.takenOut.trans htaken, s₁, s₂, hs₁,
        hcall, hother.same.trans hs₂⟩

end Leaving

section Staying

variable {w : SweepWorld} {cfg : PipelineConfig} {u : String} {critical : List String}
variable {e₀ e e₁ : Engine} {sw sw₁ : Sweep} {x : PendingAck} {still : Bool}
variable {done : List (PendingAck × Bool)}

/-- The entries of a message that are sent again, as they are tracked then. -/
def resentOf (w : SweepWorld) (e₀ : Engine) (u : String)
    (done : List (PendingAck × Bool)) : List PendingAck :=
  ((done.map (·.1)).filter fun y => y.uuid7 = u ∧ w.Resends e₀ y).map
    (AckTracker.freshEntry e₀.now)

/-- An entry by which a critical module fails its message. -/
def Fails (w : SweepWorld) (cfg : PipelineConfig) (e₀ : Engine) (u : String)
    (y : PendingAck × Bool) : Prop :=
  y.1.uuid7 = u ∧ cfg.criticalModules.contains y.1.moduleName = true ∧
    ¬ w.Resends e₀ y.1

/-- A message that no turn takes out of its stage. -/
structure Stayed (w : SweepWorld) (cfg : PipelineConfig) (critical : List String)
    (u : String) (e₀ : Engine) (done : List (PendingAck × Bool)) (e : Engine)
    (sw : Sweep) : Prop where
  clock : e.clock = e₀.clock
  config : sw.config = cfg
  criticalUuids : sw.criticalUuids = critical
  takenOut : e.takenOut u = []
  failed : u ∈ sw.failed ↔ ∃ y ∈ done, w.Fails cfg e₀ u y
  failedCritical : u ∈ sw.failed → u ∈ critical
  kept : (u ∈ sw.failed → e₀.timeline.isAudited u = true) →
    e.pipelineStates u = e₀.pipelineStates u ∧
      e.timeline.isAudited u = e₀.timeline.isAudited u ∧
      e.ackTracker.entries u = e₀.ackTracker.entries u ++ resentOf w e₀ u done
  ended : u ∈ sw.failed → e₀.timeline.isAudited u = false →
    e.pipelineStates u = none ∧ e.ackTracker.entries u = []

theorem resentOf_concat (y : PendingAck × Bool) :
    resentOf w e₀ u (done ++ [y]) =
      resentOf w e₀ u done ++
        if y.1.uuid7 = u ∧ w.Resends e₀ y.1 then [AckTracker.freshEntry e₀.now y.1]
        else [] := by
  unfold resentOf
  split <;> simp_all [List.filter_append]

theorem fails_concat (y : PendingAck × Bool) :
    (∃ z ∈ done ++ [y], w.Fails cfg e₀ u z) ↔
      (∃ z ∈ done, w.Fails cfg e₀ u z) ∨ w.Fails cfg e₀ u y := by
  simp [or_and_right, exists_or]

/-- A turn that changes nothing. -/
theorem Stayed.pass
    {y : PendingAck × Bool}
    (h : Stayed w cfg critical u e₀ done e sw)
    (hfails : w.Fails cfg e₀ u y → u ∈ sw.failed)
    (hresends : (u ∈ sw.failed → e₀.timeline.isAudited u = true) →
      ¬ (y.1.uuid7 = u ∧ w.Resends e₀ y.1)) :
    Stayed w cfg critical u e₀ (done ++ [y]) e sw where
  clock := h.clock
  config := h.config
  criticalUuids := h.criticalUuids
  takenOut := h.takenOut
  failed := by
    rw [fails_concat, ← h.failed]
    exact ⟨Or.inl, fun hf => hf.elim id hfails⟩
  failedCritical := h.failedCritical
  kept := fun hkept => by
    rw [resentOf_concat, if_neg (hresends hkept), List.append_nil]
    exact h.kept hkept
  ended := h.ended

/-- A message with an entry that must stay in its stage stays in it. -/
theorem Stayed.turn
    (h : Stayed w cfg critical u e₀ done e sw)
    (hturn : Turn w x still e sw e₁ sw₁)
    (hcritical : x.uuid7 = u → cfg.criticalModules.contains x.moduleName = true →
      u ∈ critical)
    (hx : x.uuid7 = u → ¬ w.Resends e₀ x → still = true ∨ u ∈ critical) :
    Stayed w cfg critical u e₀ (done ++ [(x, still)]) e₁ sw₁ := by
  by_cases hu : x.uuid7 = u
  · subst hu
    have hstays (hnot : ¬ w.Resends e₀ x) : SweepFrame.advances sw x still = false := by
      rcases hx rfl hnot with hstill | hmem
      · simp [SweepFrame.advances, hstill]
      · simp [SweepFrame.advances, h.criticalUuids, hmem]
    by_cases hkept : x.uuid7 ∈ sw.failed → e₀.timeline.isAudited x.uuid7 = true
    · obtain ⟨hstate, haudited, hentries⟩ := h.kept hkept
      have hsame : w.Resends e x ↔ w.Resends e₀ x := by simp [Resends, hstate]
      cases hturn with
      | resent hwants hsome hsent =>
          have hresends : w.Resends e₀ x := by
            simp [Resends, hwants, ← hstate, hsome, hsent]
          have hnot : ¬ w.Fails cfg e₀ x.uuid7 (x, still) := fun hf => hf.2.2 hresends
          refine ⟨h.clock, h.config, h.criticalUuids, ?_, ?_, h.failedCritical,
            fun _ => ⟨hstate, haudited, ?_⟩, fun hf ha => ?_⟩
          · exact (takenOut_logged _).trans h.takenOut
          · rw [fails_concat, or_iff_left hnot]
            exact h.failed
          · simp only [entries_reTrack, resentOf_concat, hresends, and_self, if_true]
            have hnow : e.now = e₀.now := congrArg Clock.now h.clock
            rw [hentries, hnow, List.append_assoc]
          · exact absurd (hkept hf) (by simp [ha])
      | failed hnot hcrit hfresh hfail =>
          have hfails : w.Fails cfg e₀ x.uuid7 (x, still) :=
            ⟨rfl, h.config ▸ hcrit, mt hsame.mpr hnot⟩
          obtain ⟨hclock, hend⟩ := returns_failed hfail
          rw [haudited] at hend
          refine ⟨hclock.trans h.clock, h.config, h.criticalUuids,
            (returns_records hfail rfl).1.trans h.takenOut, ?_,
            fun _ => hcritical rfl hfails.2.1, fun hk => ?_, fun _ ha => ?_⟩
          · rw [fails_concat]
            exact iff_of_true List.mem_cons_self (Or.inr hfails)
          · have ha := hk List.mem_cons_self
            rw [ha, if_pos rfl] at hend
            obtain ⟨hstate', haudited', hentries'⟩ := hend
            refine ⟨hstate'.trans hstate, haudited'.trans ha.symm, ?_⟩
            rw [hentries', hentries, resentOf_concat,
              if_neg fun hres => hfails.2.2 hres.2, List.append_nil]
          · rw [ha, if_neg (by simp)] at hend
            exact hend
      | failedBefore hnot hcrit hbefore =>
          exact h.pass (fun _ => by simpa using hbefore)
            fun _ hres => hnot (hsame.mpr hres.2)
      | advanced hnot _ hadvances _ =>
          simp [hstays (mt hsame.mpr hnot)] at hadvances
      | passed hnot hcrit _ =>
          rw [h.config] at hcrit
          have hnot' : ¬ w.Fails cfg e₀ x.uuid7 (x, still) := by
            rintro ⟨-, hcrit', -⟩
            exact absurd (hcrit'.symm.trans hcrit) (by decide)
          exact h.pass (fun hf => absurd hf hnot') fun _ hres => hnot (hsame.mpr hres.2)
    · obtain ⟨hfailed, haudited⟩ : x.uuid7 ∈ sw.failed ∧
          e₀.timeline.isAudited x.uuid7 = false := by simpa using hkept
      obtain ⟨hstate, hentries⟩ := h.ended hfailed haudited
      have hmem : x.uuid7 ∈ sw.criticalUuids := h.criticalUuids ▸ h.failedCritical hfailed
      have hpass : Stayed w cfg critical x.uuid7 e₀ (done ++ [(x, still)]) e sw :=
        h.pass (fun _ => hfailed) fun hk => absurd hk hkept
      cases hturn with
      | resent _ hsome _ => simp [hstate] at hsome
      | failed _ _ hfresh _ => simp [hfailed] at hfresh
      | advanced _ _ hadvances _ => simp [SweepFrame.advances, hmem] at hadvances
      | _ => exact hpass
  · have hother := hturn.untouched hu
    obtain ⟨hconfig, hlocal⟩ := hturn.locals
    have hnot : ¬ w.Fails cfg e₀ u (x, still) := fun hf => hu hf.1
    have hresent : resentOf w e₀ u (done ++ [(x, still)]) = resentOf w e₀ u done := by
      simp [resentOf_concat, hu]
    refine ⟨hother.same.clock.trans h.clock, hconfig.trans h.config,
      hlocal.trans h.criticalUuids, hother.takenOut.trans h.takenOut, ?_,
      fun hf => h.failedCritical (hother.failed.mp hf), fun hkept => ?_, fun hf ha => ?_⟩
    · rw [hother.failed, h.failed, fails_concat, or_iff_left hnot]
    · obtain ⟨hstate, haudited, hentries⟩ :=
        h.kept fun hf => hkept (hother.failed.mpr hf)
      exact ⟨hother.same.state.trans hstate, hother.same.isAudited.trans haudited,
        by rw [hother.same.entries, hentries, hresent]⟩
    · obtain ⟨hstate, hentries⟩ := h.ended (hother.failed.mp hf) ha
      exact ⟨hother.same.state.trans hstate, hother.same.entries.trans hentries⟩

end Staying

section Drained

variable {w : SweepWorld} {order o₁ o₂ : List (PendingAck × Bool)} {e : Engine}
variable {u : String} {x : PendingAck} {still : Bool}

/-- The order moves the drained entries about and nothing else. -/
theorem drainedIn_perm :
    (drainedIn order e).Perm (e.ackTracker.checkTimeouts e.now).1 := by
  unfold drainedIn SweepFrame.drained
  split
  · rename_i hperm
    exact List.isPerm_iff.mp hperm
  · exact .refl _

theorem drainedIn_perm_drainedIn :
    (drainedIn o₁ e).Perm (drainedIn o₂ e) :=
  drainedIn_perm.trans drainedIn_perm.symm

theorem mem_drainedIn_iff :
    (x, still) ∈ drainedIn order e ↔
      x ∈ e.ackTracker.pending ∧ x.expired e.now = true ∧
        still = (e.ackTracker.checkTimeouts e.now).2.hasPending x.uuid7 := by
  rw [drainedIn_perm.mem_iff, AckTracker.mem_checkTimeouts_iff]

theorem mem_criticalUuids_iff
    {cfg : PipelineConfig} {timedOut : List (PendingAck × Bool)} :
    u ∈ SweepFrame.criticalUuids cfg timedOut ↔
      ∃ y ∈ timedOut, y.1.uuid7 = u ∧
        cfg.criticalModules.contains y.1.moduleName = true := by
  simp only [SweepFrame.criticalUuids, List.mem_map, List.mem_filter]
  exact ⟨fun ⟨y, ⟨hy, hc⟩, hu⟩ => ⟨y, hy, hu, hc⟩,
    fun ⟨y, hy, hu, hc⟩ => ⟨y, ⟨hy, hc⟩, hu⟩⟩

/-- Nothing is on record of a sweep before its first turn. -/
theorem takenOut_afterDrain :
    (afterDrain e).takenOut u = [] ∧ (afterDrain e).sentAgain u = [] := by
  constructor <;>
    simp [Engine.takenOut, Engine.sentAgain, afterDrain, List.filterMap_map,
      Function.comp_def, Event.takesOut, Event.sendsAgain]

/-- A message whose stage ends when its expired entries are gone: none is left
pending, and none is of a critical module. -/
def Due (e : Engine) (u : String) : Prop :=
  ∀ z ∈ e.ackTracker.pending, z.uuid7 = u →
    z.expired e.now = true ∧ e.config.criticalModules.contains z.moduleName = false

/-- Of the expired entries of a message, either all can be sent again, or none
and they are of one stage. -/
def OneKind (w : SweepWorld) (e : Engine) : Prop :=
  ∀ x ∈ e.ackTracker.pending, ∀ y ∈ e.ackTracker.pending,
    x.expired e.now = true → y.expired e.now = true → x.uuid7 = y.uuid7 →
    Due e x.uuid7 →
      (w.Resends e x ↔ w.Resends e y) ∧ (¬ w.Resends e x → x.stage = y.stage)

/-- A message is due when its drained entries say so. -/
theorem due_iff
    (order : List (PendingAck × Bool)) :
    Due e u ↔
      (e.ackTracker.checkTimeouts e.now).2.hasPending u = false ∧
        u ∉ SweepFrame.criticalUuids e.config (drainedIn order e) := by
  rw [AckTracker.hasPending_eq_false_iff, mem_criticalUuids_iff]
  constructor
  · intro hdue
    refine ⟨fun z hz hu => ?_, ?_⟩
    · obtain ⟨hmem, hexp⟩ := (AckTracker.mem_checkTimeouts_rest_iff ..).mp hz
      simp [(hdue z hmem hu).1] at hexp
    · rintro ⟨⟨z, s⟩, hz, hu, hc⟩
      obtain ⟨hmem, hexp, -⟩ := mem_drainedIn_iff.mp hz
      have hnot := (hdue z hmem hu).2
      exact absurd (hc.symm.trans hnot) (by decide)
  · rintro ⟨hrest, hcritical⟩ z hz hu
    have hexp : z.expired e.now = true := by
      by_contra hexp
      exact hrest z ((AckTracker.mem_checkTimeouts_rest_iff ..).mpr
        ⟨hz, by simpa using hexp⟩) hu
    refine ⟨hexp, ?_⟩
    by_contra hc
    exact hcritical ⟨_, mem_drainedIn_iff.mpr ⟨hz, hexp, rfl⟩, hu, by simpa using hc⟩

end Drained

section Outcomes

variable {w : SweepWorld} {order o₁ o₂ : List (PendingAck × Bool)}
variable {e e' e₁ e₂ : Engine} {u : String} {x : PendingAck}

/-- The expired entries of a message all leave its stage. -/
theorem leftOnce_of_due
    (hkind : w.OneKind e)
    (hturns : Turns w (afterDrain e) (firstSweep order e) (drainedIn order e) e')
    (hx : x ∈ e.ackTracker.pending)
    (hexp : x.expired e.now = true)
    (hdue : Due e x.uuid7)
    (hnot : ¬ w.Resends e x) :
    ∃ sw', LeftOnce w e.config x.uuid7 x.stage (afterDrain e) true e' sw' := by
  obtain ⟨hrest, hcritical⟩ := (due_iff order).mp hdue
  obtain ⟨htaken, hsent⟩ := takenOut_afterDrain (e := e) (u := x.uuid7)
  have hrun := hturns.invariant (drainedIn order e)
    (fun done e₁ sw₁ => LeftOnce w e.config x.uuid7 x.stage (afterDrain e)
      (done.any fun y => y.1.uuid7 = x.uuid7) e₁ sw₁)
    (fun {done y s e₁ sw₁ e₂ sw₂} hy hleft hturn => by
      have hnext := hleft.turn hturn fun hu => by
        obtain ⟨hmem, hyexp, rfl⟩ := mem_drainedIn_iff.mp hy
        obtain ⟨hsame, hstage⟩ := hkind x hx y hmem hexp hyexp hu.symm hdue
        exact ⟨hu ▸ hrest, mt hsame.mpr hnot, (hstage hnot).symm, (hdue y hmem hu).2⟩
      simpa using hnext)
    (fun y hy => hy) []
    ⟨rfl, hcritical, by simp [firstSweep], hsent, id,
      fun _ => ⟨.refl _, by simp [firstSweep], htaken⟩, by simp⟩
  obtain ⟨sw', hleft⟩ := hrun
  have hany : (([] : List (PendingAck × Bool)) ++ drainedIn order e).any
      (fun y => y.1.uuid7 = x.uuid7) = true := by
    rw [List.nil_append, List.any_eq_true]
    exact ⟨_, mem_drainedIn_iff.mpr ⟨hx, hexp, rfl⟩, by simp⟩
  rw [hany] at hleft
  exact ⟨sw', hleft⟩

/-- No expired entry of the message leaves its stage. -/
theorem stayed_of_not_due
    (hturns : Turns w (afterDrain e) (firstSweep order e) (drainedIn order e) e')
    (hstays : ∀ y ∈ e.ackTracker.pending, y.expired e.now = true → y.uuid7 = u →
      ¬ w.Resends e y → ¬ Due e u) :
    ∃ sw', Stayed w e.config (SweepFrame.criticalUuids e.config (drainedIn order e)) u
      (afterDrain e) (drainedIn order e) e' sw' := by
  obtain ⟨htaken, -⟩ := takenOut_afterDrain (e := e) (u := u)
  refine hturns.invariant (drainedIn order e)
    (fun done e₁ sw₁ => Stayed w e.config
      (SweepFrame.criticalUuids e.config (drainedIn order e)) u (afterDrain e) done e₁
      sw₁)
    (fun {done y s e₁ sw₁ e₂ sw₂} hy hstayed hturn => ?_)
    (fun y hy => hy) [] ?_
  · refine hstayed.turn hturn (fun hu hc => ?_) fun hu hnot => ?_
    · exact mem_criticalUuids_iff.mpr ⟨_, hy, hu, hc⟩
    · obtain ⟨hmem, hexp, rfl⟩ := mem_drainedIn_iff.mp hy
      have hdue := hstays y hmem hexp hu hnot
      rw [due_iff order, not_and_or, Bool.not_eq_false, not_not, ← hu] at hdue
      rwa [← hu]
  · exact ⟨rfl, rfl, rfl, htaken, by simp [firstSweep], by simp [firstSweep],
      fun _ => ⟨rfl, rfl, by simp [resentOf]⟩, by simp [firstSweep]⟩

/-- The entries of a message, in whatever order the sweep takes its turns. -/
theorem entries_perm
    (hkind : w.OneKind e)
    (h₁ : Turns w (afterDrain e) (firstSweep o₁ e) (drainedIn o₁ e) e₁)
    (h₂ : Turns w (afterDrain e) (firstSweep o₂ e) (drainedIn o₂ e) e₂)
    (u : String) :
    e₁.takenOut u = e₂.takenOut u ∧ (e₁.takenOut u).Disjoint (e₁.sentAgain u) ∧
      (e₁.ackTracker.entries u).Perm (e₂.ackTracker.entries u) := by
  by_cases hleaves : ∃ x ∈ e.ackTracker.pending, x.expired e.now = true ∧
      x.uuid7 = u ∧ Due e u ∧ ¬ w.Resends e x
  · obtain ⟨x, hx, hexp, rfl, hdue, hnot⟩ := hleaves
    obtain ⟨_, hleft₁⟩ := leftOnce_of_due hkind h₁ hx hexp hdue hnot
    obtain ⟨_, hleft₂⟩ := leftOnce_of_due hkind h₂ hx hexp hdue hnot
    obtain ⟨-, htaken₁, s₁, t₁, hs₁, hcall₁, ht₁⟩ := hleft₁.left rfl
    obtain ⟨-, htaken₂, s₂, t₂, hs₂, hcall₂, ht₂⟩ := hleft₂.left rfl
    obtain ⟨hdrives, hworks⟩ :=
      advanceFrame_drives x.uuid7 e.config.inProcessModules.length x.stage
    have hsame := returns_same hcall₁ hcall₂ hdrives hworks (hs₁.trans hs₂.symm)
    refine ⟨htaken₁.trans htaken₂.symm, ?_, ?_⟩
    · rw [hleft₁.sentAgain]
      exact List.disjoint_nil_right _
    · rw [((ht₁.trans hsame).trans ht₂.symm).entries]
  · have hstays (y) (hy : y ∈ e.ackTracker.pending) (hexp : y.expired e.now = true)
        (hu : y.uuid7 = u) (hnot : ¬ w.Resends e y) : ¬ Due e u :=
      fun hdue => hleaves ⟨y, hy, hexp, hu, hdue, hnot⟩
    obtain ⟨sw₁, hstayed₁⟩ := stayed_of_not_due h₁ hstays
    obtain ⟨sw₂, hstayed₂⟩ := stayed_of_not_due h₂ hstays
    refine ⟨hstayed₁.takenOut.trans hstayed₂.takenOut.symm, ?_, ?_⟩
    · rw [hstayed₁.takenOut]
      exact List.disjoint_nil_left _
    · have hperm : (drainedIn o₁ e).Perm (drainedIn o₂ e) := drainedIn_perm_drainedIn
      have hfailed : u ∈ sw₁.failed ↔ u ∈ sw₂.failed := by
        rw [hstayed₁.failed, hstayed₂.failed]
        simp only [hperm.mem_iff]
      by_cases hkept : u ∈ sw₁.failed → (afterDrain e).timeline.isAudited u = true
      · have hkept₂ : u ∈ sw₂.failed → (afterDrain e).timeline.isAudited u = true :=
          fun hf => hkept (hfailed.mpr hf)
        rw [(hstayed₁.kept hkept).2.2, (hstayed₂.kept hkept₂).2.2]
        exact (((hperm.map _).filter _).map _).append_left _
      · obtain ⟨hin, haudited⟩ : u ∈ sw₁.failed ∧
            (afterDrain e).timeline.isAudited u = false := by simpa using hkept
        rw [(hstayed₁.ended hin haudited).2, (hstayed₂.ended (hfailed.mp hin) haudited).2]

end Outcomes

section Existence

variable {w : SweepWorld} {e : Engine}

/-- Every entry has its turn. -/
theorem exists_turn
    (hdb : ∀ f, (w.answer f).dbOk = true)
    (x : PendingAck) (still : Bool) (e : Engine) (sw : Sweep) :
    ∃ e₁ sw₁, Turn w x still e sw e₁ sw₁ := by
  by_cases hresends : w.Resends e x
  · obtain ⟨hwants, hsome, hsent⟩ := hresends
    obtain ⟨state, hstate⟩ := Option.isSome_iff_exists.mp hsome
    exact ⟨_, _, .resent hwants hstate hsent⟩
  · cases hcritical : sw.config.criticalModules.contains x.moduleName with
    | true =>
        cases hfailed : sw.failed.contains x.uuid7 with
        | true => exact ⟨_, _, .failedBefore hresends hcritical hfailed⟩
        | false =>
            obtain ⟨e', hfail⟩ := exists_returns_terminal hdb x.uuid7
              (.failed (criticalTimeoutError x.moduleName x.stage)) e
            exact ⟨e', _, .failed hresends hcritical hfailed hfail⟩
    | false =>
        cases hadvances : SweepFrame.advances sw x still with
        | true =>
            obtain ⟨e', hadvance⟩ := exists_returns_advance hdb x.uuid7
              sw.config.inProcessModules.length x.stage (SweepFrame.noteSweptOut e x)
            exact ⟨e', _, .advanced hresends hcritical hadvances hadvance⟩
        | false => exact ⟨_, _, .passed hresends hcritical hadvances⟩

/-- The turns of a list of entries can all be taken. -/
theorem exists_turns
    (hdb : ∀ f, (w.answer f).dbOk = true)
    (todo : List (PendingAck × Bool)) (e : Engine) (sw : Sweep) :
    ∃ e', Turns w e sw todo e' := by
  induction todo generalizing e sw with
  | nil => exact ⟨e, .nil⟩
  | cons y todo ih =>
      obtain ⟨e₁, sw₁, hturn⟩ := exists_turn hdb y.1 y.2 e sw
      obtain ⟨e', hrest⟩ := ih e₁ sw₁
      exact ⟨e', .cons hturn hrest⟩

/-- A sweep returns, in whatever order it takes its turns. -/
theorem exists_sweeps
    (hdb : ∀ f, (w.answer f).dbOk = true)
    (order : List (PendingAck × Bool)) (e : Engine) :
    ∃ e', w.Sweeps order e e' := by
  simp only [sweeps_iff]
  split
  · exact ⟨_, rfl⟩
  · exact exists_turns hdb ..

end Existence

section Consistency

variable {w : SweepWorld} {e e₁ e₂ : Engine} {u : String} {x : PendingAck}
variable {o₁ o₂ : List (PendingAck × Bool)}

/-- Tables with the same entries for every message have the same entries. -/
theorem perm_of_entries
    {t₁ t₂ : AckTracker}
    (h : ∀ u, (t₁.entries u).Perm (t₂.entries u)) :
    t₁.pending.Perm t₂.pending := by
  rw [List.perm_iff_count]
  intro y
  have hcount (t : AckTracker) : (t.entries y.uuid7).count y = t.pending.count y :=
    List.count_filter (by simp)
  rw [← hcount t₁, ← hcount t₂]
  exact (h y.uuid7).count_eq y

/-- In one call, no message is both taken out of a stage and sent again in it,
none is taken out twice, and neither what is taken out nor what is pending in
the end depends on the order of the turns. -/
structure Consistent (w : SweepWorld) (e : Engine) : Prop where
  apart : ∀ {order e'}, w.Sweeps order e e' → ∀ u,
    (e'.takenOut u).Disjoint (e'.sentAgain u)
  once : ∀ {order e'}, w.Sweeps order e e' → ∀ u, (e'.takenOut u).length ≤ 1
  sameTaken : ∀ {o₁ o₂ e₁ e₂}, w.Sweeps o₁ e e₁ → w.Sweeps o₂ e e₂ → ∀ u,
    e₁.takenOut u = e₂.takenOut u
  samePending : ∀ {o₁ o₂ e₁ e₂}, w.Sweeps o₁ e e₁ → w.Sweeps o₂ e e₂ →
    e₁.ackTracker.pending.Perm e₂.ackTracker.pending

/-- Behind a closed gate a sweep does nothing. -/
theorem consistent_of_gated
    (hgated : e.pauseState.isGated = true) :
    w.Consistent e := by
  have hsame {order e'} (h : w.Sweeps order e e') : e' = { e with log := [] } := by
    rwa [sweeps_iff, if_pos hgated] at h
  have htaken {order e'} (h : w.Sweeps order e e') (u : String) :
      e'.takenOut u = [] := by
    rw [hsame h]
    rfl
  refine ⟨fun h u => ?_, fun h u => ?_, fun h₁ h₂ u => ?_, fun h₁ h₂ => ?_⟩
  · simp [htaken h u]
  · simp [htaken h u]
  · rw [htaken h₁, htaken h₂]
  · rw [hsame h₁, hsame h₂]

/-- The first turn decides what becomes of a due message. -/
theorem takenOut_of_first
    {y : PendingAck × Bool} {todo : List (PendingAck × Bool)}
    (hgate : e.pauseState.isGated = false)
    (hperm : (y :: todo).Perm (e.ackTracker.checkTimeouts e.now).1)
    (hdue : Due e y.1.uuid7)
    (h : w.Sweeps (y :: todo) e e₁) :
    e₁.takenOut y.1.uuid7 = if w.Resends e y.1 then [] else [y.1.stage] := by
  obtain ⟨x, still⟩ := y
  have horder : drainedIn ((x, still) :: todo) e = (x, still) :: todo :=
    if_pos (List.isPerm_iff.mpr hperm)
  obtain ⟨hrest, hcritical⟩ := (due_iff ((x, still) :: todo)).mp hdue
  obtain ⟨hmem, -, hstill⟩ : x ∈ e.ackTracker.pending ∧ x.expired e.now = true ∧
      still = (e.ackTracker.checkTimeouts e.now).2.hasPending x.uuid7 :=
    mem_drainedIn_iff.mp (horder ▸ List.mem_cons_self)
  obtain rfl : still = false := hstill.trans hrest
  have hnone : (afterDrain e).takenOut x.uuid7 = [] := takenOut_afterDrain.1
  rw [sweeps_iff, if_neg (by simp [hgate]), horder] at h
  cases h with
  | @cons _ e' _ _ sw' _ _ _ hturn hturns =>
      split
      · rename_i hresends
        cases hturn with
        | resent _ _ _ =>
            rw [hturns.takenOut_of_settled (Or.inl List.mem_cons_self)]
            exact (takenOut_logged _).trans hnone
        | _ => contradiction
      · rename_i hnot
        have hleaves : SweepFrame.advances (firstSweep ((x, false) :: todo) e) x false =
            true := by
          simp [SweepFrame.advances, firstSweep, hcritical]
        cases hturn with
        | advanced _ _ _ hadvance =>
            rw [hturns.takenOut_of_settled (Or.inr List.mem_cons_self),
              (returns_records hadvance (advanceFrame_drives ..).1).1,
              takenOut_noteSweptOut, if_pos rfl, hnone, List.append_nil]
        | resent hwants hstate hsent =>
            exact absurd ⟨hwants, Option.isSome_iff_exists.mpr ⟨_, hstate⟩, hsent⟩ hnot
        | failed _ hcrit _ _ =>
            exact absurd (hcrit.symm.trans (hdue x hmem rfl).2) (by decide)
        | failedBefore _ hcrit _ =>
            exact absurd (hcrit.symm.trans (hdue x hmem rfl).2) (by decide)
        | passed _ _ hpass => exact absurd (hleaves.symm.trans hpass) (by decide)

/-- A sweep whose messages are of one kind each is consistent. -/
theorem consistent_of_oneKind
    (hkind : e.pauseState.isGated = false → w.OneKind e) :
    w.Consistent e := by
  cases hgate : e.pauseState.isGated with
  | true => exact consistent_of_gated hgate
  | false =>
      have hkind := hkind hgate
      have hturns {order e'} (h : w.Sweeps order e e') :
          Turns w (afterDrain e) (firstSweep order e) (drainedIn order e) e' := by
        rwa [sweeps_iff, if_neg (by simp [hgate])] at h
      refine ⟨fun h u => ?_, fun h u => ?_, fun h₁ h₂ u => ?_, fun h₁ h₂ => ?_⟩
      · exact (entries_perm hkind (hturns h) (hturns h) u).2.1
      · exact (hturns h).takenOut_once takenOut_afterDrain.1
      · exact (entries_perm hkind (hturns h₁) (hturns h₂) u).1
      · exact perm_of_entries fun u => (entries_perm hkind (hturns h₁) (hturns h₂) u).2.2

/-- Two expired entries of a due message that is not of one kind take their first
turns in two sweeps that differ. -/
theorem oneKind_of_consistent
    (hdb : ∀ f, (w.answer f).dbOk = true)
    (hconsistent : w.Consistent e)
    (hgate : e.pauseState.isGated = false) :
    w.OneKind e := by
  intro x hx y hy hxexp hyexp hsame hdue
  have hfirst (z : PendingAck) (hz : z ∈ e.ackTracker.pending)
      (hexp : z.expired e.now = true) (hu : x.uuid7 = z.uuid7) :
      ∃ order e', w.Sweeps order e e' ∧
        e'.takenOut x.uuid7 = if w.Resends e z then [] else [z.stage] := by
    have hperm := List.perm_cons_erase
      ((AckTracker.mem_checkTimeouts_iff ..).mpr ⟨hz, hexp, rfl⟩)
    obtain ⟨e', hsweeps⟩ := exists_sweeps hdb (_ :: List.erase _ _) e
    have htaken := takenOut_of_first hgate hperm.symm (hu ▸ hdue) hsweeps
    exact ⟨_, e', hsweeps, hu ▸ htaken⟩
  obtain ⟨o₁, e₁, hsweeps₁, htaken₁⟩ := hfirst x hx hxexp rfl
  obtain ⟨o₂, e₂, hsweeps₂, htaken₂⟩ := hfirst y hy hyexp hsame
  have htaken := hconsistent.sameTaken hsweeps₁ hsweeps₂ x.uuid7
  rw [htaken₁, htaken₂] at htaken
  constructor
  · constructor <;> intro hresends <;> by_contra hnot <;>
      simp [hresends, hnot] at htaken
  · intro hnot
    by_cases hresends : w.Resends e y
    · simp [hresends, hnot] at htaken
    · simpa [hresends, hnot] using htaken

/-- Two modules of a message in pre-process, both silent for too long; one of them
has confirmed that it has the message. -/
def twoSilent (receipts : Bool × Bool) : Engine where
  clock := { stretches := [(11, false)] }
  config := { preProcessModules := ["a", "b"], inProcessModules := ["c"] }
  ackTracker :=
    { pending := [⟨"m", .preProcess, "a", 0, 10, receipts.1, 0⟩,
        ⟨"m", .preProcess, "b", 0, 10, receipts.2, 0⟩] }
  pipelineStates := Function.update (fun _ => none) "m"
    (some (.ofMessage { uuid7 := "m", rawMessage := "hi" }))

/-- Everybody is reached and every database answers. -/
def calm : SweepWorld where
  reached _ := .sent
  answer _ := {}

end Consistency

end SweepWorld

end CockatielEngine
