import CockatielEngine.Pipeline.Successors

/-!
# Pipeline: the audit hold on a row

`mark_audit` holds a row; the three terminal paths ask for the hold first and
write later.  A late `complete` is refused by the statement itself, a late
`failed` or `dropped` is not.

**Main result.**  When every flag lands on a row that is not held yet, while no
failed or dropped path of the message is past its check, the hold and its
reason change only through `release_audit`.
-/

namespace CockatielEngine

open TaskPool

/-- The row keeps its hold: the status stays `audit` and the reason stays in
`flags`, where at most audio markers are appended to it. -/
def HoldKept (r r' : Row) : Prop :=
  r'.pipelineStatus = .audit ∧
    (r'.flags = r.flags ∨ ∃ markers, r'.flags = some (appendFlags r.flags markers))

/-- A failed or dropped path of the message that has asked for the hold and
has yet to write. -/
def PastHoldCheck (uuid7 : String) : Frame → Prop
  | .terminal (.take v ending) => v = uuid7 ∧ ending ≠ .complete
  | .terminal (.write v ending _) => v = uuid7 ∧ ending ≠ .complete
  | _ => False

/-- A flag that commits finds the row not held and no failed or dropped path of
the message past its check. -/
def FlagsCleanly (uuid7 : String) (s : EnginePool) (a : Answer) : Frame → Prop
  | .audit (.mark v _) =>
      v = uuid7 → a.dbOk = true →
        s.shared.timeline.isAudited uuid7 = false ∧
          ∀ f ∈ s.frames, ¬ PastHoldCheck uuid7 f
  | _ => True

instance (uuid7 : String) : DecidablePred (PastHoldCheck uuid7) := fun f =>
  match f with
  | .terminal (.take _ _) => inferInstanceAs (Decidable (_ ∧ _ ≠ _))
  | .terminal (.write _ _ _) => inferInstanceAs (Decidable (_ ∧ _ ≠ _))
  | .terminal (.check _ _) | .terminal (.snapshot _) | .terminal (.writeHeld _ _)
  | .terminal (.ack _) | .ingest _ | .recovery _ | .broadcast _ | .fanout _
  | .inProcess _ | .postProcess _ | .reply _ | .advance _ | .sweep _ | .gate _
  | .resume _ | .audit _ => instDecidableFalse

instance (uuid7 : String) (s : EnginePool) (a : Answer) (f : Frame) :
    Decidable (FlagsCleanly uuid7 s a f) :=
  match f with
  | .audit (.mark _ _) => inferInstanceAs (Decidable (_ → _ → _ ∧ ∀ f ∈ s.frames, _))
  | .audit (.flag _ _) | .audit (.release _ _) | .ingest _ | .recovery _ | .broadcast _
  | .fanout _ | .inProcess _ | .postProcess _ | .terminal _ | .reply _ | .advance _
  | .sweep _ | .gate _ | .resume _ => instDecidableTrue

/-- The step is an operator's decision on the message. -/
def Decides (uuid7 : String) (s : EnginePool) (l : EngineLabel) : Prop :=
  ∃ i a approve rest, l = .run i a ∧
    s.threads[i]? = some (.audit (.release uuid7 approve) :: rest)

/-- The step from `s` to `s'` keeps the hold of the message, if it is held. -/
def KeepsHold (uuid7 : String) (s s' : EnginePool) : Prop :=
  ∀ r, s.shared.timeline.row? uuid7 = some r →
    r.pipelineStatus = .audit →
    ∃ r', s'.shared.timeline.row? uuid7 = some r' ∧ HoldKept r r'

section Rows

theorem HoldKept.refl
    {r : Row} (h : r.pipelineStatus = .audit) :
    HoldKept r r :=
  ⟨h, Or.inl rfl⟩

/-- Landing the result of a held message keeps the hold. -/
theorem holdKept_writeHeld
    {r : Row} (h : r.pipelineStatus = .audit)
    (result : PipelineResult) (now : Nat) :
    HoldKept r (r.writeTerminalOutcome .auditHeld result now) := by
  refine ⟨by simp [Row.writeTerminalOutcome, PipelineOutcome.status, h], ?_⟩
  cases ha : result.storedAudio with
  | none => exact Or.inl (by simp [Row.writeTerminalOutcome, ha])
  | some audio => exact Or.inr ⟨_, by simp [Row.writeTerminalOutcome, ha]; rfl⟩

/-- A completion never lands on a held row. -/
theorem writeTerminalOutcome_complete_of_audit
    {r : Row} (h : r.pipelineStatus = .audit)
    (result : PipelineResult) (now : Nat) :
    r.writeTerminalOutcome .complete result now = r := by
  simp [Row.writeTerminalOutcome, h]

/-- An ending never holds a row. -/
theorem audit_of_write_ending
    {r : Row} {ending : Ending} {result : PipelineResult} {now : Nat}
    (h : (r.writeTerminalOutcome ending.outcome result now).pipelineStatus =
      .audit) :
    r.pipelineStatus = .audit := by
  by_contra hstatus
  cases ending <;>
    simp [Row.writeTerminalOutcome, Ending.outcome, PipelineOutcome.status,
      hstatus] at h

end Rows

section Steps

variable {uuid7 : String} {e : Engine} {a : Answer}

/-- What a step does to a held row, when it is neither a decision, nor a flag
that commits, nor a failed or dropped path past its check. -/
theorem holdKept_step
    {f : Frame} {r : Row}
    (hr : e.timeline.row? uuid7 = some r)
    (haudit : r.pipelineStatus = .audit)
    (hpast : ¬ PastHoldCheck uuid7 f)
    (hmark : ∀ reason, f = .audit (.mark uuid7 reason) → a.dbOk = false)
    (hrelease : ∀ approve, f ≠ .audit (.release uuid7 approve)) :
    ∃ r', (f.step e a).shared.timeline.row? uuid7 = some r' ∧ HoldKept r r' := by
  rcases f.step_row e a uuid7 with h | ⟨msg, _, _, hnone, _⟩ | ⟨hdb, g, hg, h⟩
  · exact ⟨r, h.trans hr, .refl haudit⟩
  · simp [hr] at hnone
  · rw [hr] at h
    refine ⟨g r, h, ?_⟩
    cases f with
    | ingest f =>
        cases f <;> simp only [Frame.rowUpdate, Option.some.injEq, Prod.mk.injEq,
          reduceCtorEq] at hg
        all_goals
          obtain ⟨-, rfl⟩ := hg
          exact ⟨haudit, Or.inl rfl⟩
    | terminal f =>
        cases f <;> simp only [Frame.rowUpdate, Option.some.injEq, Prod.mk.injEq,
          reduceCtorEq] at hg
        · obtain ⟨-, rfl⟩ := hg
          exact holdKept_writeHeld haudit _ _
        · obtain ⟨rfl, rfl⟩ := hg
          rename_i ending result
          -- past its check only a completion is left, and it is refused
          obtain rfl : ending = .complete := by
            simpa [PastHoldCheck] using hpast
          rw [Ending.outcome, writeTerminalOutcome_complete_of_audit haudit]
          exact .refl haudit
    | audit f =>
        cases f <;> simp only [Frame.rowUpdate, Option.some.injEq, Prod.mk.injEq,
          reduceCtorEq] at hg
        · obtain ⟨rfl, rfl⟩ := hg
          simp [hmark _ rfl] at hdb
        · obtain ⟨rfl, rfl⟩ := hg
          exact absurd rfl (hrelease _)
    | _ => simp [Frame.rowUpdate] at hg

/-- Only a flag that commits holds a row. -/
theorem isAudited_of_step
    {f : Frame}
    (h : (f.step e a).shared.timeline.isAudited uuid7 = true) :
    e.timeline.isAudited uuid7 = true ∨
      ∃ reason, f = .audit (.mark uuid7 reason) ∧ a.dbOk = true := by
  obtain ⟨r', hr', haudit⟩ := (Timeline.isAudited_iff _ _).mp h
  rcases f.step_row e a uuid7 with h | ⟨msg, _, _, _, h⟩ | ⟨hdb, g, hg, h⟩
  · exact Or.inl ((Timeline.isAudited_iff _ _).mpr ⟨r', h ▸ hr', haudit⟩)
  · obtain rfl : IngestFrame.row msg = r' := Option.some.inj (h.symm.trans hr')
    simp [IngestFrame.row] at haudit
  · rw [h] at hr'
    obtain ⟨r, hr, rfl⟩ := Option.map_eq_some_iff.mp hr'
    have hheld (hstatus : r.pipelineStatus = .audit) :
        e.timeline.isAudited uuid7 = true :=
      (Timeline.isAudited_iff _ _).mpr ⟨r, hr, hstatus⟩
    cases f with
    | ingest f =>
        cases f <;> simp only [Frame.rowUpdate, Option.some.injEq, Prod.mk.injEq,
          reduceCtorEq] at hg
        all_goals
          obtain ⟨-, rfl⟩ := hg
          exact Or.inl (hheld haudit)
    | terminal f =>
        cases f with
        | writeHeld v result =>
            obtain ⟨-, rfl⟩ := by simpa [Frame.rowUpdate] using hg
            exact Or.inl (hheld (by
              simpa [Row.writeTerminalOutcome, PipelineOutcome.status] using haudit))
        | write v ending result =>
            obtain ⟨-, rfl⟩ := by simpa [Frame.rowUpdate] using hg
            exact Or.inl (hheld (audit_of_write_ending haudit))
        | _ => simp [Frame.rowUpdate] at hg
    | audit f =>
        cases f <;> simp only [Frame.rowUpdate, Option.some.injEq, Prod.mk.injEq,
          reduceCtorEq] at hg
        · obtain ⟨rfl, -⟩ := hg
          exact Or.inr ⟨_, rfl, hdb⟩
        · obtain ⟨-, rfl⟩ := hg
          refine Or.inl (hheld ?_)
          by_contra hstatus
          simp [Row.releaseAudit, hstatus] at haudit
    | _ => simp [Frame.rowUpdate] at hg

theorem Expires.not_pastHoldCheck
    {sw : Sweep} {entry : PendingAck} {still : Bool} {g : Frame}
    (h : Expires sw entry still g) :
    ¬ PastHoldCheck uuid7 g := by
  cases h with
  | advance _ _ =>
      cases entry.stage <;> exact fun hg => hg
  | _ => exact fun hg => hg

/-- No path gets past its check while the row is held. -/
theorem not_pastHoldCheck_new
    {f g : Frame}
    (haudit : e.timeline.isAudited uuid7 = true)
    (hf : ¬ PastHoldCheck uuid7 f)
    (hg : g ∈ (f.step e a).new) :
    ¬ PastHoldCheck uuid7 g := by
  rintro hg'
  cases Frame.leads hg with
  | terminal_take hfree =>
      obtain ⟨rfl, -⟩ := hg'
      simp [haudit] at hfree
  | terminal_write => exact hf hg'
  | sweep_expire _ _ hexp => exact hexp.not_pastHoldCheck hg'
  | sweep_gone _ hexp => exact hexp.not_pastHoldCheck hg'
  | sweep_unsent _ hexp => exact hexp.not_pastHoldCheck hg'
  | @fanout_nobody fo _ =>
      revert hg'
      cases fo.stage <;> exact id
  | @replay_hold _ point _ => cases point <;> exact hg'
  | _ => exact hg'

/-- Between a flag and the decision no failed or dropped path of the message is
past its check. -/
def NoneThrough (uuid7 : String) (s : EnginePool) : Prop :=
  s.shared.timeline.isAudited uuid7 = true →
    ∀ f ∈ s.frames, ¬ PastHoldCheck uuid7 f

theorem NoneThrough.fire
    {s s' : EnginePool} {l : EngineLabel}
    (h : NoneThrough uuid7 s)
    (hok : OnRun (FlagsCleanly uuid7) s l)
    (hfire : engine.fire s l = some s') :
    NoneThrough uuid7 s' := by
  cases l with
  | world ev =>
      obtain ⟨r, hr, rfl⟩ := fire_world_cases hfire
      obtain rfl := engine_event_eq hr
      intro haudit f hf
      have haudit' : s.shared.timeline.isAudited uuid7 = true := by
        cases ev <;> exact haudit
      rcases mem_frames_after_world hf with hf | hf
      · exact h haudit' f hf
      · cases opens_of_mem hf <;> exact id
  | run i a =>
      obtain ⟨f, rest, o, hi, ho, rfl⟩ := fire_run_cases hfire
      obtain rfl := engine_step_eq ho
      intro haudit g hg
      have hmem := mem_frames_of_getElem? hi (List.mem_cons_self ..)
      have hrow (hg : g ∈ (f.step s.shared a).new) :
          s.shared.timeline.isAudited uuid7 = true →
            ¬ PastHoldCheck uuid7 g := fun haudit' =>
        not_pastHoldCheck_new haudit' (h haudit' f hmem) hg
      rcases isAudited_of_step haudit with haudit' | ⟨reason, rfl, hdb⟩
      · rcases mem_frames_after_run hi hg with hg | hg
        · exact hrow hg haudit'
        · exact h haudit' g hg
      · obtain ⟨-, hclean⟩ := hok.top hi rfl hdb
        rcases mem_frames_after_run hi hg with hg | hg
        · simp [Frame.step, AuditFrame.step, hdb] at hg
        · exact hclean g hg

end Steps

/-- **Main theorem.**  In a run whose flags land cleanly, a step that is not a
decision keeps the hold of a held message and its reason. -/
theorem audit_hold_kept
    (uuid7 : String)
    (e : Engine)
    {s s' : EnginePool} {l : EngineLabel}
    (hs : Reachable engine (OnRun (FlagsCleanly uuid7)) (boot e) s)
    (hok : OnRun (FlagsCleanly uuid7) s l)
    (hfire : engine.fire s l = some s')
    (hdecides : ¬ Decides uuid7 s l) :
    KeepsHold uuid7 s s' := by
  have hnone : NoneThrough uuid7 s :=
    hs.invariant (fun _ f hf => by simp [boot, Pool.frames] at hf)
      NoneThrough.fire
  intro r hr haudit
  have hheld : s.shared.timeline.isAudited uuid7 = true :=
    (Timeline.isAudited_iff _ _).mpr ⟨r, hr, haudit⟩
  cases l with
  | world ev =>
      obtain ⟨r', hr', rfl⟩ := fire_world_cases hfire
      obtain rfl := engine_event_eq hr'
      exact ⟨r, by cases ev <;> exact hr, .refl haudit⟩
  | run i a =>
      obtain ⟨f, rest, o, hi, ho, rfl⟩ := fire_run_cases hfire
      obtain rfl := engine_step_eq ho
      refine holdKept_step hr haudit
        (hnone hheld f (mem_frames_of_getElem? hi (List.mem_cons_self ..))) ?_ ?_
      · rintro reason rfl
        by_contra hdb
        have hfree := (hok.top hi rfl (by simpa using hdb)).1
        simp [hheld] at hfree
      · rintro approve rfl
        exact hdecides ⟨i, a, approve, rest, rfl, hi⟩

/-- The message is flagged while a module has it; the module abandons it, and the
drop has found the hold. -/
def abandonedWhileHeld : List EngineLabel :=
  .world (.ingest { uuid7 := "m", rawMessage := "hi" }) ::
    List.replicate 12 (.run 0 {}) ++
  .world (.auditFlag "m" "spam") :: List.replicate 2 (.run 1 {}) ++
  .world (.reply
    { uuid7 := "m", moduleName := "bot", stage := .inProcess
      processedMessage := "hello", abandonMessage := true }) ::
    List.replicate 5 (.run 2 {})

/-- The result of the run lands on the held row, and the hold stays. -/
theorem audit_hold_kept_abandonedWhileHeld :
    ∃ s s' : EnginePool,
      engine.exec (boot { config := { inProcessModules := ["bot"] } })
        abandonedWhileHeld = some s ∧
      engine.fire s (.run 2 {}) = some s' ∧
      s.shared.timeline.isAudited "m" = true ∧
      s'.shared.timeline.row? "m" ≠ s.shared.timeline.row? "m" ∧
      KeepsHold "m" s s' := by
  obtain ⟨s, hrun, hheld, htop, hwrites⟩ := exec_any (P := engine)
    (Q := fun s => s.shared.timeline.isAudited "m" = true ∧
      s.threads[2]? =
        some [.terminal (.writeHeld "m" { processedMessage := some "hello" })] ∧
      (engine.fire s (.run 2 {})).any (fun s' => decide
        (s'.shared.timeline.row? "m" ≠ s.shared.timeline.row? "m")) = true)
    (boot { config := { inProcessModules := ["bot"] } }) abandonedWhileHeld
    (by decide +kernel)
  obtain ⟨s', hfire, hchanged⟩ := (Option.any_eq_true _ _).mp hwrites
  have hreached : Reachable engine (OnRun (FlagsCleanly "m"))
      (boot { config := { inProcessModules := ["bot"] } }) s :=
    reachable_of_allSteps abandonedWhileHeld .start (by decide +kernel) hrun
  have hclean : OnRun (FlagsCleanly "m") s (.run 2 {} : EngineLabel) := by
    intro f hf
    simp only [Pool.top, htop, Option.bind_some, List.head?_cons, Option.mem_some] at hf
    obtain rfl := hf
    trivial
  have hkeeps := audit_hold_kept "m" _ hreached hclean hfire (by
    rintro ⟨i, a, approve, rest, hl, hi⟩
    cases hl
    simp [htop] at hi)
  exact ⟨s, s', hrun, hfire, hheld, of_decide_eq_true hchanged, hkeeps⟩

/-- A module abandons the message; the flag lands between the check of
`mark_dropped` and its write. -/
def flaggedBeforeDrop : List EngineLabel :=
  .world (.ingest { uuid7 := "m", rawMessage := "hi" }) ::
    List.replicate 12 (.run 0 {}) ++
  .world (.reply
    { uuid7 := "m", moduleName := "bot", stage := .inProcess
      abandonMessage := true }) ::
    List.replicate 4 (.run 1 {}) ++
  .world (.auditFlag "m" "spam") :: List.replicate 2 (.run 2 {}) ++
  [.run 1 {}]

/-- The drop lands on the held row and the hold is gone. -/
theorem hold_lost_to_drop :
    ¬ ∀ (uuid7 : String) (e : Engine) (ls : List EngineLabel)
        (s s' : EnginePool) (l : EngineLabel),
      engine.exec (boot e) ls = some s →
      engine.fire s l = some s' →
      ¬ Decides uuid7 s l →
      KeepsHold uuid7 s s' := by
  intro h
  obtain ⟨s, hrun, htop, hheld, hdrops⟩ := exec_any (P := engine)
    (Q := fun s => s.threads[1]? = some [.terminal (.write "m"
        (.dropped (abandonReason "bot")) { processedMessage := some "" })] ∧
      s.shared.timeline.isAudited "m" = true ∧
      (engine.fire s (.run 1 {})).any
        (fun s' => !s'.shared.timeline.isAudited "m") = true)
    (boot { config := { inProcessModules := ["bot"] } })
    flaggedBeforeDrop (by decide +kernel)
  obtain ⟨s', hfire, hgone⟩ := (Option.any_eq_true _ _).mp hdrops
  have hkeeps := h "m" _ flaggedBeforeDrop s s' (.run 1 {}) hrun hfire (by
    rintro ⟨i, a, approve, rest, hl, hi⟩
    cases hl
    simp [htop] at hi)
  obtain ⟨r, hr, haudit⟩ := (Timeline.isAudited_iff ..).mp hheld
  obtain ⟨r', hr', hkept⟩ := hkeeps r hr haudit
  have hstays := (Timeline.isAudited_iff ..).mpr ⟨r', hr', hkept.1⟩
  simp [hstays] at hgone

end CockatielEngine
