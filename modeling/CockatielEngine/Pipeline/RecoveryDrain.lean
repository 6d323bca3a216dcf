import CockatielEngine.Database.KeyStorage
import CockatielEngine.Pipeline.RecoverOne

/-!
# Pipeline: the recovery drain

`drain_queued_once` reads the uuids of the rows stored `queued` and re-drives
each of them.  A pass is modelled as the calls of `recover_one` it makes, one
after the other and with no other task running, over a table whose keys are
stored as text or as bytes.

**Main result.**  Every row considered by a pass is owned by the pipeline,
terminal or among the reported failures afterwards, and the counts of the report
add up.  Unless the terminal write of a message that reached nobody fails, a
stranded row is fanned out exactly once however many passes are run.
-/

namespace CockatielEngine

open TaskPool

section Defs

/-- The report of a pass; of a failure it keeps the uuid. -/
structure RecoveryDrain where
  considered : Nat
  claimed : Nat := 0
  failures : List String := []
deriving DecidableEq, Repr

namespace RecoveryDrain

/-- Count one call of `recover_one`. -/
def note (drain : RecoveryDrain) (r : Recovery) : RecoveryDrain :=
  match r.returned with
  | some true => { drain with claimed := drain.claimed + 1 }
  | some false => drain
  | none => { drain with failures := drain.failures ++ [r.uuid7] }

/-- The report of the pass that made these calls. -/
def ofCalls (recoveries : List Recovery) : RecoveryDrain :=
  recoveries.foldl note { considered := recoveries.length }

end RecoveryDrain

/-- The calls of one pass, one after the other. -/
inductive DrainLoop : Engine → List Recovery → Engine → Prop
  | done (e : Engine) : DrainLoop e [] e
  | next {e e₁ e' : Engine} {r : Recovery} {rs : List Recovery} :
      r.Runs e e₁ →
      DrainLoop e₁ rs e' →
      DrainLoop e (r :: rs) e'

/-- The loop of `drain_queued_once`, run on the world's answers. -/
def drainLoop (e : Engine) :
    List String → List Answer → Option (List Recovery × Engine)
  | [], _ => some ([], e)
  | uuid7 :: uuids, answers =>
      (recoverOne e uuid7 answers).bind fun r =>
        (drainLoop r.2.1 uuids r.2.2).map fun rs => (r.1 :: rs.1, rs.2)

/-- One pass: the table as it was stored, the engine before and after, and the
calls that were made. -/
structure DrainPass where
  table : StoredTimeline
  before : Engine
  recoveries : List Recovery
  after : Engine

/-- The keys of the table are normalized, the engine's statements work on the
normalized table, and the calls are made for the uuids that are read from it. -/
def DrainPass.Runs (p : DrainPass) : Prop :=
  p.table.UuidKeyed ∧
    ∃ n t, p.table.normalizeUuidStorage = some (n, t) ∧
      p.before.timeline = t.timeline ∧
      p.recoveries.map (·.uuid7) = t.getQueuedUuids ∧
      DrainLoop p.before p.recoveries p.after

/-- Any number of passes; between two of them time passes or the configuration
changes, and no task is started. -/
inductive DrainPasses : Engine → List DrainPass → Engine → Prop
  | done (e : Engine) : DrainPasses e [] e
  | idle {e e' : Engine} {ev : WorldEvent} {ps : List DrainPass} :
      ev.starts = [] →
      DrainPasses (ev.effect e) ps e' →
      DrainPasses e ps e'
  | pass {p : DrainPass} {e' : Engine} {ps : List DrainPass} :
      p.Runs →
      DrainPasses p.after ps e' →
      DrainPasses p.before (p :: ps) e'

/-- Passes over stored tables, each run on its answers. -/
def drainPasses (e : Engine) :
    List (StoredTimeline × List Answer) → Option (List DrainPass × Engine)
  | [] => some ([], e)
  | (table, answers) :: inputs =>
      table.normalizeUuidStorage.bind fun r =>
        if table.UuidKeyed ∧ e.timeline = r.2.timeline then
          (drainLoop e r.2.getQueuedUuids answers).bind fun rs =>
            (drainPasses rs.2 inputs).map fun ps =>
              ({ table, before := e, recoveries := rs.1, after := rs.2 } :: ps.1,
                ps.2)
        else none

/-- How many of the messages are in the pipeline's hands. -/
def ownedOf (e : Engine) (uuids : List String) : Nat :=
  uuids.countP fun u => (e.pipelineStates u).isSome

/-- After the pass every row that was stored `queued` is settled or reported as
a failure, and the report accounts for every row considered. -/
structure DrainPass.Complete (p : DrainPass) : Prop where
  covered : ∀ key r u, (key, r) ∈ p.table.rows → r.pipelineStatus = .queued →
    (key = .text u ∨ key = .blob (uuid7StringToBytes u)) →
    OwnedOrEnded p.after u ∨
      u ∈ (RecoveryDrain.ofCalls p.recoveries).failures
  accounted :
    (RecoveryDrain.ofCalls p.recoveries).claimed +
      (RecoveryDrain.ofCalls p.recoveries).failures.length +
      ownedOf p.before (p.recoveries.map (·.uuid7)) =
    (RecoveryDrain.ofCalls p.recoveries).considered

variable (uuid7 : String)

/-- The message has no state, and its row is still queued. -/
def Stranded (e : Engine) : Prop :=
  e.pipelineStates uuid7 = none ∧
    ∃ r, e.timeline.row? uuid7 = some r ∧ r.pipelineStatus = .queued

/-- No call of the passes makes a terminal write of the message that fails. -/
def WritesOutcomes (ps : List DrainPass) : Prop :=
  ∀ p ∈ ps, ∀ r ∈ p.recoveries, ∀ x ∈ r.trace, WritesOutcome uuid7 x.1 x.2

instance (ps : List DrainPass) : Decidable (WritesOutcomes uuid7 ps) :=
  inferInstanceAs (Decidable (∀ p ∈ ps, ∀ r ∈ p.recoveries, ∀ x ∈ r.trace,
    WritesOutcome uuid7 x.1 x.2))

/-- All calls of all passes. -/
def callsOf (ps : List DrainPass) : List Recovery :=
  ps.flatMap (·.recoveries)

/-- The row of the message was stranded before the passes.  If one of them
could read it, the passes handed the message on once: they ran its fanout once,
or at a closed gate hold it at the entry.  Otherwise each of them reports it. -/
structure ExactlyOnce (ps : List DrainPass) (e' : Engine) : Prop where
  entered : (∃ r ∈ callsOf ps, r.Reads uuid7) →
    ((callsOf ps).map (Recovery.entries uuid7)).sum = 1
  fanned : (∃ r ∈ callsOf ps, r.Reads uuid7) →
    ((callsOf ps).map (Recovery.fanouts uuid7)).sum =
      if e'.pauseState.isGated then 0 else 1
  held : (∃ r ∈ callsOf ps, r.Reads uuid7) →
    e'.pauseState.isGated = true → (uuid7, .entry) ∈ e'.pauseState.held
  unread : (¬ ∃ r ∈ callsOf ps, r.Reads uuid7) →
    ∀ p ∈ ps, uuid7 ∈ (RecoveryDrain.ofCalls p.recoveries).failures

end Defs

section Sound

variable {e e' : Engine}

theorem drainLoop_sound
    {uuids : List String} {answers : List Answer} {rs : List Recovery}
    (h : drainLoop e uuids answers = some (rs, e')) :
    rs.map (·.uuid7) = uuids ∧ DrainLoop e rs e' := by
  induction uuids generalizing e answers rs with
  | nil =>
      cases h
      exact ⟨rfl, .done _⟩
  | cons uuid7 uuids ih =>
      obtain ⟨⟨r, e₁, left⟩, hone, hrest⟩ := Option.bind_eq_some_iff.mp h
      obtain ⟨⟨rs', e₂⟩, hloop, heq⟩ := Option.map_eq_some_iff.mp hrest
      obtain ⟨rfl, rfl⟩ := Prod.mk.inj heq
      obtain ⟨⟨tr, ok, s, left'⟩, hcall, heq⟩ := Option.map_eq_some_iff.mp hone
      cases heq
      obtain ⟨huuids, hruns⟩ := ih hloop
      exact ⟨congrArg _ huuids, .next (call_sound hcall) hruns⟩

theorem drainPasses_sound
    {inputs : List (StoredTimeline × List Answer)} {ps : List DrainPass}
    (h : drainPasses e inputs = some (ps, e')) :
    DrainPasses e ps e' := by
  induction inputs generalizing e ps with
  | nil =>
      cases h
      exact .done _
  | cons input inputs ih =>
      obtain ⟨table, answers⟩ := input
      obtain ⟨⟨n, t⟩, hnorm, hrest⟩ := Option.bind_eq_some_iff.mp h
      split at hrest
      · rename_i hvalid
        obtain ⟨⟨rs, e₁⟩, hloop, hrest⟩ := Option.bind_eq_some_iff.mp hrest
        obtain ⟨⟨ps', e₂⟩, hpasses, heq⟩ := Option.map_eq_some_iff.mp hrest
        cases heq
        obtain ⟨huuids, hruns⟩ := drainLoop_sound hloop
        have hpass : DrainPass.Runs
            { table, before := e, recoveries := rs, after := e₁ } :=
          ⟨hvalid.1, n, t, hnorm, hvalid.2, huuids, hruns⟩
        exact .pass hpass (ih hpasses)
      · cases hrest

/-- The loop is a run of the pool in which the task of the drain takes all the
steps. -/
theorem DrainLoop.exec
    {rs : List Recovery}
    (h : DrainLoop e rs e')
    {threads : List (List Frame)} {i : Nat} {rest : List Frame}
    (hi : threads[i]? =
      some (.recovery (.drainNext (rs.map (·.uuid7))) :: rest)) :
    ∃ answers : List Answer,
      engine.exec { shared := e, threads } (answers.map fun a => .run i a) =
        some { shared := e', threads := threads.set i rest } := by
  induction h generalizing threads with
  | done e =>
      refine ⟨[{}], ?_⟩
      have hi : threads[i]? = some (.recovery (.drainNext []) :: rest) := hi
      simp [Program.exec, Program.fire, hi, engine, Frame.step,
        RecoveryFrame.step, go, Program.unwind]
  | @next e e₁ e' r rs hrun _ ih =>
      have hlt := (List.getElem?_eq_some_iff.mp hi).1
      let below : List Frame :=
        .recovery (.drainNext (rs.map (·.uuid7))) :: rest
      have hi : threads[i]? = some
          (.recovery (.drainNext (r.uuid7 :: rs.map (·.uuid7))) :: rest) := hi
      -- the loop calls `recover_one`, which returns to it in either case
      have hfirst : engine.fire { shared := e, threads } (.run i {}) =
          some { shared := e
                 threads := threads.set i
                   ([Frame.recovery (.check r.uuid7)] ++ below) } := by
        simp [Program.fire, hi, engine, Frame.step, RecoveryFrame.step, go,
          Program.unwind, below]
      have hback : engine.after r.ok below = below := by
        cases hok : r.ok <;> simp [Program.after, below, engine, Frame.catches]
      have hcall := Call.exec hrun
        (show (threads.set i
            ([Frame.recovery (.check r.uuid7)] ++ below))[i]? =
          some ([Frame.recovery (.check r.uuid7)] ++ below) by simp [hlt])
      rw [List.set_set, hback] at hcall
      obtain ⟨answers, hrest⟩ := ih
        (show (threads.set i below)[i]? = some below by simp [hlt])
      rw [List.set_set] at hrest
      refine ⟨{} :: r.trace.map (·.2) ++ answers, ?_⟩
      rw [List.cons_append, List.map_cons, List.map_append, Program.exec, hfirst,
        Option.bind_some, exec_append, List.map_map]
      rw [show ((fun a => Label.run i a) ∘ fun x : Frame × Answer => x.2) =
        fun x => Label.run i x.2 from rfl, hcall, Option.bind_some, hrest]

end Sound

section Report

variable {rs : List Recovery}

theorem RecoveryDrain.foldl_note
    (rs : List Recovery) (drain : RecoveryDrain) :
    rs.foldl note drain =
      { considered := drain.considered
        claimed := drain.claimed + rs.countP fun r => r.returned = some true
        failures := drain.failures ++
          (rs.filter fun r => r.returned = none).map (·.uuid7) } := by
  induction rs generalizing drain with
  | nil => simp
  | cons r rs ih =>
      rw [List.foldl_cons, ih]
      cases hreturned : r.returned with
      | none => simp [note, hreturned]
      | some claimed =>
          cases claimed
          · simp [note, hreturned]
          · simp [note, hreturned]
            omega

theorem RecoveryDrain.claimed_ofCalls (rs : List Recovery) :
    (RecoveryDrain.ofCalls rs).claimed =
      rs.countP fun r => r.returned = some true := by
  simp [ofCalls, foldl_note]

theorem RecoveryDrain.considered_ofCalls (rs : List Recovery) :
    (RecoveryDrain.ofCalls rs).considered = rs.length := by
  simp [ofCalls, foldl_note]

theorem RecoveryDrain.failures_ofCalls (rs : List Recovery) :
    (RecoveryDrain.ofCalls rs).failures =
      (rs.filter fun r => r.returned = none).map (·.uuid7) := by
  simp [ofCalls, foldl_note]

theorem RecoveryDrain.mem_failures_iff
    (rs : List Recovery) (u : String) :
    u ∈ (RecoveryDrain.ofCalls rs).failures ↔
      ∃ r ∈ rs, r.returned = none ∧ r.uuid7 = u := by
  simp [failures_ofCalls, and_assoc]

end Report

section OnePass

variable {uuid7 : String} {e e' : Engine} {rs : List Recovery}

/-- The messages a pass does not consider are left alone. -/
theorem DrainLoop.other
    (h : DrainLoop e rs e')
    (hnot : uuid7 ∉ rs.map (·.uuid7)) :
    e'.view uuid7 = e.view uuid7 ∧
      ∀ r ∈ rs, Quiet uuid7 r ∧ ¬ r.Reads uuid7 := by
  induction h with
  | done e => exact ⟨rfl, by simp⟩
  | next hrun _ ih =>
      rw [List.map_cons, List.mem_cons, not_or] at hnot
      obtain ⟨hview, hquiet⟩ := hrun.other hnot.1
      obtain ⟨hview', hrest⟩ := ih hnot.2
      exact ⟨hview'.trans hview, List.forall_mem_cons.mpr ⟨hquiet, hrest⟩⟩

/-- A message that a pass considers is recovered by one of its calls, and the
other calls do nothing for it. -/
theorem DrainLoop.recovered
    (h : DrainLoop e rs e')
    (hnodup : (rs.map (·.uuid7)).Nodup)
    (hmem : uuid7 ∈ rs.map (·.uuid7)) :
    ∃ before r after, rs = before ++ r :: after ∧ r.uuid7 = uuid7 ∧
      Recovered uuid7 (e.view uuid7) r (e'.view uuid7) ∧
      ∀ r' ∈ before ++ after,
        r'.uuid7 ≠ uuid7 ∧ Quiet uuid7 r' ∧ ¬ r'.Reads uuid7 := by
  induction h with
  | done e => simp at hmem
  | @next e e₁ e' r rs hrun hloop ih =>
      obtain ⟨hnot, hnodup⟩ := List.nodup_cons.mp hnodup
      by_cases hr : r.uuid7 = uuid7
      · subst hr
        obtain ⟨hview, hquiet⟩ := hloop.other hnot
        refine ⟨[], r, rs, rfl, rfl, ?_, fun r' hr' => ⟨?_, hquiet r' hr'⟩⟩
        · rw [hview]
          exact hrun.recovered
        · rintro heq
          exact hnot (List.mem_map.mpr ⟨r', hr', heq⟩)
      · have hmem : uuid7 ∈ rs.map (·.uuid7) :=
          (List.mem_cons.mp hmem).resolve_left (Ne.symm hr)
        obtain ⟨hview, hquiet⟩ := hrun.other (Ne.symm hr)
        obtain ⟨before, r', after, rfl, hr', hrec, hrest⟩ := ih hnodup hmem
        rw [hview] at hrec
        exact ⟨r :: before, r', after, rfl, hr', hrec,
          List.forall_mem_cons.mpr ⟨⟨hr, hquiet⟩, hrest⟩⟩

/-- A call for a queued row counts once: as owned, as a failure, or as
claimed. -/
theorem Recovered.counted_once
    {v v' : View} {r : Recovery}
    (h : Recovered uuid7 v r v')
    (hqueued : ∃ row, v.row = some row ∧ row.pipelineStatus = .queued) :
    (if r.returned = some true then 1 else 0) +
      (if r.returned = none then 1 else 0) +
      (if v.state.isSome then 1 else 0) = 1 := by
  cases h with
  | owned hstate hreturned _ _ =>
      simp [hreturned, Option.isSome_iff_ne_none, hstate]
  | unread hstate hreturned _ _ => simp [hreturned, hstate]
  | gone _ hrow _ _ =>
      obtain ⟨row, hr, hq⟩ := hqueued
      exact absurd hq (hrow row hr)
  | driven hstate _ _ _ _ _ hreturned _ =>
      rcases hret : r.returned with _ | _ | _
      · simp [hstate]
      · exact absurd hret hreturned
      · simp [hstate]

/-- The report of a pass over queued rows accounts for each of them. -/
theorem DrainLoop.accounted
    (h : DrainLoop e rs e')
    (hnodup : (rs.map (·.uuid7)).Nodup)
    (hqueued : ∀ u ∈ rs.map (·.uuid7), RowQueued e u) :
    (rs.countP fun r => r.returned = some true) +
      (rs.countP fun r => r.returned = none) +
      ownedOf e (rs.map (·.uuid7)) = rs.length := by
  induction h with
  | done e => rfl
  | @next e e₁ e' r rs hrun hloop ih =>
      obtain ⟨hnot, hnodup⟩ := List.nodup_cons.mp hnodup
      have hview (u) (hu : u ∈ rs.map (·.uuid7)) : e₁.view u = e.view u := by
        refine (hrun.other ?_).1
        rintro rfl
        exact hnot hu
      have hrest := ih hnodup fun u hu => by
        have hrow : e₁.timeline.row? u = e.timeline.row? u :=
          congrArg View.row (hview u hu)
        rw [RowQueued, hrow]
        exact hqueued u (List.mem_cons_of_mem _ hu)
      have howned : ownedOf e₁ (rs.map (·.uuid7)) =
          ownedOf e (rs.map (·.uuid7)) := by
        refine List.countP_congr fun u hu => ?_
        rw [show e₁.pipelineStates u = e.pipelineStates u from
          congrArg View.state (hview u hu)]
      have hone := hrun.recovered.counted_once
        (hqueued r.uuid7 (List.mem_cons_self ..))
      have hhead : ownedOf e ((r :: rs).map (·.uuid7)) =
          ownedOf e (rs.map (·.uuid7)) +
            if (e.view r.uuid7).state.isSome then 1 else 0 :=
        List.countP_cons ..
      simp only [List.countP_cons, List.length_cons, decide_eq_true_eq, hhead]
      omega

theorem DrainPass.Runs.nodup
    {p : DrainPass} (h : p.Runs) :
    (p.recoveries.map (·.uuid7)).Nodup := by
  obtain ⟨hkeyed, n, t, hnorm, -, huuids, -⟩ := h
  rw [huuids]
  exact StoredTimeline.nodup_getQueuedUuids hkeyed hnorm

/-- A pass considers the messages whose rows are queued. -/
theorem DrainPass.Runs.considers_iff
    {p : DrainPass} (h : p.Runs) (u : String) :
    u ∈ p.recoveries.map (·.uuid7) ↔ RowQueued p.before u := by
  obtain ⟨hkeyed, n, t, hnorm, htimeline, huuids, -⟩ := h
  rw [huuids, StoredTimeline.mem_getQueuedUuids_iff hkeyed hnorm, RowQueued,
    htimeline]

/-- A pass is complete, whatever fails in it. -/
theorem DrainPass.Runs.complete
    {p : DrainPass} (h : p.Runs) :
    p.Complete := by
  have hnodup := h.nodup
  have hconsiders := h.considers_iff
  obtain ⟨hkeyed, n, t, hnorm, htimeline, -, hloop⟩ := h
  constructor
  · intro key row u hmem hqueued hkey
    have hrow : RowQueued p.before u := by
      refine ⟨row, ?_, hqueued⟩
      rw [htimeline]
      exact StoredTimeline.row?_normalizeUuidStorage hnorm hkey hmem
    obtain ⟨before, r, after, hsplit, rfl, hrec, -⟩ :=
      hloop.recovered hnodup ((hconsiders u).mpr hrow)
    have hr : r ∈ p.recoveries := by simp [hsplit]
    rcases hret : r.returned with _ | claimed
    · exact Or.inr ((RecoveryDrain.mem_failures_iff ..).mpr ⟨r, hr, hret, rfl⟩)
    · left
      show (p.after.view r.uuid7).Settled
      generalize hv : p.before.view r.uuid7 = v at hrec
      generalize p.after.view r.uuid7 = v' at hrec
      cases hrec with
      | owned hstate _ _ _ => exact Or.inl hstate
      | unread _ hreturned _ _ => simp [hret] at hreturned
      | gone _ hnot _ _ =>
          obtain ⟨row, hr, hq⟩ := hrow
          refine absurd hq (hnot row ?_)
          rw [← hv]
          exact hr
      | driven _ _ _ _ _ _ hreturned hsettled =>
          refine hsettled (Or.inl ?_)
          cases claimed with
          | true => exact hret
          | false => exact absurd hret hreturned
  · rw [RecoveryDrain.claimed_ofCalls, RecoveryDrain.failures_ofCalls,
      RecoveryDrain.considered_ofCalls, List.length_map,
      ← List.countP_eq_length_filter]
    exact hloop.accounted hnodup fun u hu => (hconsiders u).mp hu

end OnePass

section ManyPasses

variable {uuid7 : String} {e e' : Engine} {ps : List DrainPass}

/-- There is nothing to recover: the message is in memory, or its row is not
queued. -/
def View.Rests (v : View) : Prop :=
  v.state ≠ none ∨ ∀ row, v.row = some row → row.pipelineStatus ≠ .queued

theorem View.Settled.rests
    {v : View} (h : v.Settled) :
    v.Rests := by
  rcases h with hstate | ⟨row, hrow, hended⟩
  · exact Or.inl hstate
  · right
    intro row' hrow' hqueued
    obtain rfl : row = row' := Option.some.inj (hrow.symm.trans hrow')
    simp [Row.Ended, hqueued] at hended

theorem view_idle
    {ev : WorldEvent} (e : Engine) (u : String) :
    (ev.effect e).view u = e.view u := by
  cases ev <;> rfl

theorem sum_entries_of_quiet
    {rs : List Recovery}
    (h : ∀ r ∈ rs, Quiet uuid7 r) :
    (rs.map (Recovery.entries uuid7)).sum = 0 := by
  refine List.sum_eq_zero fun n hn => ?_
  obtain ⟨r, hr, rfl⟩ := List.mem_map.mp hn
  exact (h r hr).entries

theorem sum_fanouts_of_quiet
    {rs : List Recovery}
    (h : ∀ r ∈ rs, Quiet uuid7 r) :
    (rs.map (Recovery.fanouts uuid7)).sum = 0 := by
  refine List.sum_eq_zero fun n hn => ?_
  obtain ⟨r, hr, rfl⟩ := List.mem_map.mp hn
  exact (h r hr).fanouts

/-- A pass does nothing for a message that rests. -/
theorem DrainPass.Runs.rests
    {p : DrainPass} (h : p.Runs)
    (hrests : (p.before.view uuid7).Rests) :
    p.after.view uuid7 = p.before.view uuid7 ∧
      ∀ r ∈ p.recoveries, Quiet uuid7 r := by
  have hnodup := h.nodup
  have hconsiders := h.considers_iff uuid7
  obtain ⟨-, n, t, -, -, -, hloop⟩ := h
  by_cases hmem : uuid7 ∈ p.recoveries.map (·.uuid7)
  · obtain ⟨before, r, after, hsplit, rfl, hrec, hothers⟩ :=
      hloop.recovered hnodup hmem
    have hstate : (p.before.view r.uuid7).state ≠ none := by
      refine hrests.resolve_right fun hnot => ?_
      obtain ⟨row, hr, hq⟩ := hconsiders.mp hmem
      exact hnot row hr hq
    generalize p.before.view r.uuid7 = v at hrec hstate
    generalize p.after.view r.uuid7 = v' at hrec
    cases hrec with
    | owned _ _ hquiet _ =>
        refine ⟨rfl, fun r' hr' => ?_⟩
        rw [hsplit, List.mem_append, List.mem_cons] at hr'
        rcases hr' with hr' | rfl | hr'
        · exact (hothers r' (List.mem_append_left _ hr')).2.1
        · exact hquiet
        · exact (hothers r' (List.mem_append_right _ hr')).2.1
    | unread hnone _ _ _ => exact absurd hnone hstate
    | gone hnone _ _ _ => exact absurd hnone hstate
    | driven hnone _ _ _ _ _ _ _ => exact absurd hnone hstate
  · obtain ⟨hview, hquiet⟩ := hloop.other hmem
    exact ⟨hview, fun r hr => (hquiet r hr).1⟩

theorem DrainPasses.rests
    (h : DrainPasses e ps e')
    (hrests : (e.view uuid7).Rests) :
    e'.view uuid7 = e.view uuid7 ∧ ∀ r ∈ callsOf ps, Quiet uuid7 r := by
  induction h with
  | done e => exact ⟨rfl, by simp [callsOf]⟩
  | idle _ _ ih =>
      rw [view_idle] at ih
      exact ih hrests
  | pass hruns _ ih =>
      obtain ⟨hview, hquiet⟩ := hruns.rests hrests
      obtain ⟨hview', hquiet'⟩ := ih (by rwa [hview])
      refine ⟨hview'.trans hview, fun r hr => ?_⟩
      rw [callsOf, List.flatMap_cons, List.mem_append] at hr
      exact hr.elim (hquiet r) (hquiet' r)

theorem callsOf_cons (p : DrainPass) (ps : List DrainPass) :
    callsOf (p :: ps) = p.recoveries ++ callsOf ps := by
  simp [callsOf]

/-- A pass that cannot read the row leaves the message to the later ones. -/
theorem ExactlyOnce.of_unread
    {p : DrainPass}
    (hnothing : ∀ r ∈ p.recoveries, Quiet uuid7 r ∧ ¬ r.Reads uuid7)
    (hreported : uuid7 ∈ (RecoveryDrain.ofCalls p.recoveries).failures)
    (hlast : ExactlyOnce uuid7 ps e') :
    ExactlyOnce uuid7 (p :: ps) e' := by
  have hquiet : ∀ r ∈ p.recoveries, Quiet uuid7 r := fun r hr => (hnothing r hr).1
  have hreads : (∃ r ∈ callsOf (p :: ps), r.Reads uuid7) →
      ∃ r ∈ callsOf ps, r.Reads uuid7 := by
    rintro ⟨r, hr, hread⟩
    rw [callsOf_cons, List.mem_append] at hr
    rcases hr with hr | hr
    · exact absurd hread (hnothing r hr).2
    · exact ⟨r, hr, hread⟩
  constructor
  · intro hread
    rw [callsOf_cons, List.map_append, List.sum_append,
      sum_entries_of_quiet hquiet, Nat.zero_add]
    exact hlast.entered (hreads hread)
  · intro hread
    rw [callsOf_cons, List.map_append, List.sum_append,
      sum_fanouts_of_quiet hquiet, Nat.zero_add]
    exact hlast.fanned (hreads hread)
  · exact fun hread => hlast.held (hreads hread)
  · intro hnot
    refine List.forall_mem_cons.mpr ⟨hreported, hlast.unread ?_⟩
    rintro ⟨r, hr, hread⟩
    refine hnot ⟨r, ?_, hread⟩
    rw [callsOf_cons]
    exact List.mem_append_right _ hr

/-- The pass that reads the row is the only one that does anything for the
message. -/
theorem ExactlyOnce.of_read
    {p : DrainPass} {before after : List Recovery} {r : Recovery}
    (hsplit : p.recoveries = before ++ r :: after)
    (hothers : ∀ r' ∈ before ++ after, Quiet uuid7 r')
    (hlater : ∀ r' ∈ callsOf ps, Quiet uuid7 r')
    (hread : r.Reads uuid7)
    (hentries : r.entries uuid7 = 1)
    (hfanouts : r.fanouts uuid7 = if e'.pauseState.isGated then 0 else 1)
    (hheld : e'.pauseState.isGated = true →
      (uuid7, .entry) ∈ e'.pauseState.held) :
    ExactlyOnce uuid7 (p :: ps) e' := by
  have hbefore : ∀ r' ∈ before, Quiet uuid7 r' := fun r' hr' =>
    hothers r' (List.mem_append_left _ hr')
  have hafter : ∀ r' ∈ after, Quiet uuid7 r' := fun r' hr' =>
    hothers r' (List.mem_append_right _ hr')
  have hr : r ∈ callsOf (p :: ps) := by simp [callsOf_cons, hsplit]
  constructor
  · intro _
    rw [callsOf_cons, hsplit]
    simp [sum_entries_of_quiet hbefore, sum_entries_of_quiet hafter,
      sum_entries_of_quiet hlater, hentries]
  · intro _
    rw [callsOf_cons, hsplit]
    simp [sum_fanouts_of_quiet hbefore, sum_fanouts_of_quiet hafter,
      sum_fanouts_of_quiet hlater, hfanouts]
  · exact fun _ => hheld
  · exact fun hnot => absurd ⟨r, hr, hread⟩ hnot

/-- A message that looks the same is still stranded. -/
theorem Stranded.of_view
    (h : Stranded uuid7 e)
    (hview : e'.view uuid7 = e.view uuid7) :
    Stranded uuid7 e' := by
  refine ⟨(congrArg View.state hview).trans h.1, ?_⟩
  have hrow : e'.timeline.row? uuid7 = e.timeline.row? uuid7 :=
    congrArg View.row hview
  rw [hrow]
  exact h.2

/-- The pass that reads a stranded row settles it, and the later ones leave it
alone; a pass that cannot read it reports it. -/
theorem DrainPasses.exactlyOnce
    (h : DrainPasses e ps e')
    (hstranded : Stranded uuid7 e)
    (hwrites : WritesOutcomes uuid7 ps) :
    ExactlyOnce uuid7 ps e' := by
  induction h with
  | done e =>
      have hnone : ¬ ∃ r ∈ callsOf [], r.Reads uuid7 := by simp [callsOf]
      exact ⟨fun h => absurd h hnone, fun h => absurd h hnone,
        fun h => absurd h hnone, by simp⟩
  | idle _ _ ih => exact ih (hstranded.of_view (view_idle ..)) hwrites
  | @pass p e' ps hruns hpasses ih =>
      obtain ⟨-, n, t, -, -, -, hloop⟩ := id hruns
      obtain ⟨before, r, after, hsplit, rfl, hrec, hothers⟩ :=
        hloop.recovered hruns.nodup ((hruns.considers_iff uuid7).mpr hstranded.2)
      have hlater : WritesOutcomes r.uuid7 ps := fun p' hp' =>
        hwrites p' (List.mem_cons_of_mem _ hp')
      generalize hv : p.before.view r.uuid7 = v at hrec
      generalize hv' : p.after.view r.uuid7 = v' at hrec
      cases hrec with
      | owned hstate _ _ _ =>
          rw [← hv] at hstate
          exact absurd hstranded.1 hstate
      | gone _ hnot _ _ =>
          obtain ⟨row, hr, hq⟩ := hstranded.2
          rw [← hv] at hnot
          exact absurd hq (hnot row hr)
      | unread _ hreturned hquiet hunread =>
          -- the message is as it was, and the later passes decide
          refine .of_unread (fun r' hr' => ?_) ?_
            (ih (hstranded.of_view (hv'.trans hv.symm)) hlater)
          · rw [hsplit, List.mem_append, List.mem_cons] at hr'
            rcases hr' with hr' | rfl | hr'
            · exact (hothers r' (List.mem_append_left _ hr')).2
            · exact ⟨hquiet, hunread⟩
            · exact (hothers r' (List.mem_append_right _ hr')).2
          · exact (RecoveryDrain.mem_failures_iff ..).mpr
              ⟨r, by simp [hsplit], hreturned, rfl⟩
      | driven _ hread hentries hfanouts hgated hheld _ hsettled =>
          -- the message is settled, and the later passes leave it alone
          have hsettled : v'.Settled := hsettled (Or.inr fun x hx =>
            hwrites p (List.mem_cons_self ..) r (by simp [hsplit]) x hx)
          obtain ⟨hend, hquiet⟩ := hpasses.rests (by
            rw [hv']
            exact hsettled.rests)
          have hgate : e'.pauseState.isGated = v.gated := by
            rw [← hgated, ← hv', ← hend]
            rfl
          refine .of_read hsplit (fun r' hr' => (hothers r' hr').2.1) hquiet hread
            hentries (hgate ▸ hfanouts) fun hclosed => ?_
          have hentry : (e'.view r.uuid7).atEntry = true := by
            rw [hend, hv']
            exact hheld (hgate ▸ hclosed)
          exact of_decide_eq_true hentry

end ManyPasses

/-- **Main theorem.**  For any stored keys, states and gate, and any number of
passes: every pass settles each queued row or reports it, and its report
accounts for every row considered; and a stranded row is handed on exactly once,
unless the write of its outcome fails. -/
theorem drain_complete
    {e e' : Engine} {ps : List DrainPass}
    (h : DrainPasses e ps e') :
    (∀ p ∈ ps, p.Complete) ∧
      ∀ u, Stranded u e → WritesOutcomes u ps → ExactlyOnce u ps e' := by
  refine ⟨?_, fun u hstranded hwrites => h.exactlyOnce hstranded hwrites⟩
  induction h with
  | done e => simp
  | idle _ _ ih => exact ih
  | pass hruns _ ih => exact List.forall_mem_cons.mpr ⟨hruns.complete, ih⟩

/-- A row as ingest inserts it. -/
def waitingRow (uuid7 : String) : Row :=
  IngestFrame.row { uuid7, rawMessage := "hi" }

/-- A stranded row under a text key, beside the row of a live message. -/
def strandedTable : StoredTimeline where
  rows := [(.text "m", waitingRow "m"),
    (.blob (uuid7StringToBytes "o"), waitingRow "o")]
  unique := by decide

/-- The same rows once the keys are normalized. -/
def normalizedTable : StoredTimeline where
  rows := [(.blob (uuid7StringToBytes "m"), waitingRow "m"),
    (.blob (uuid7StringToBytes "o"), waitingRow "o")]
  unique := by decide

/-- The engine that finds them; the state map holds `o`. -/
def afterCrash (modules : List String) : Engine where
  timeline := normalizedTable.timeline
  config := { preProcessModules := modules }
  pipelineStates := fun u =>
    if u = "o" then some (.ofMessage { uuid7 := "o", rawMessage := "hi" }) else none

theorem stranded_afterCrash (modules : List String) :
    Stranded "m" (afterCrash modules) :=
  ⟨rfl, waitingRow "m", by rw [afterCrash, StoredTimeline.row?_timeline]; decide,
    rfl⟩

/-- Two passes with a module connected. -/
def drainedTwice : List (StoredTimeline × List Answer) :=
  [(strandedTable, List.replicate 10 ({} : Answer)),
    (normalizedTable, List.replicate 2 {})]

theorem drain_complete_drainedTwice :
    ∃ ps e', DrainPasses (afterCrash ["pre"]) ps e' ∧
      ps.map (fun p => RecoveryDrain.ofCalls p.recoveries) =
        [{ considered := 2, claimed := 1 }, { considered := 2 }] ∧
      (∀ p ∈ ps, p.Complete) ∧
      ExactlyOnce "m" ps e' := by
  have hreports : (drainPasses (afterCrash ["pre"]) drainedTwice).map
      (fun r => (r.1.map (fun p => RecoveryDrain.ofCalls p.recoveries),
        decide (WritesOutcomes "m" r.1))) =
      some ([{ considered := 2, claimed := 1 }, { considered := 2 }], true) := by
    decide +kernel
  obtain ⟨⟨ps, e'⟩, hrun, hreports⟩ := Option.map_eq_some_iff.mp hreports
  obtain ⟨hreports, hwrites⟩ := Prod.mk.inj hreports
  have hpasses := drainPasses_sound hrun
  obtain ⟨hcomplete, honce⟩ := drain_complete hpasses
  exact ⟨ps, e', hpasses, hreports, hcomplete,
    honce "m" (stranded_afterCrash _) (of_decide_eq_true hwrites)⟩

/-- Nobody is connected, and the write that completes the message fails in the
first pass; the second pass drives the message again. -/
def drainedAgain : List (StoredTimeline × List Answer) :=
  [(strandedTable,
      List.replicate 18 ({} : Answer) ++ [({ dbOk := false } : Answer), {}]),
    (normalizedTable, List.replicate 21 {})]

/-- The fanout of the stranded message is run in both passes. -/
theorem stranded_fanned_out_twice :
    ¬ ∀ (u : String) (e e' : Engine) (ps : List DrainPass),
      DrainPasses e ps e' →
      Stranded u e →
      (∀ p ∈ ps, p.Complete) ∧ ExactlyOnce u ps e' := by
  intro h
  have hruns : (drainPasses (afterCrash []) drainedAgain).map
      (fun r => (((callsOf r.1).map (Recovery.fanouts "m")).sum,
        r.2.pauseState.isGated,
        (callsOf r.1).any fun c => c.trace.any fun x =>
          x.1 = .recovery (.load "m") ∧ x.2.dbOk)) =
      some (2, false, true) := by
    decide +kernel
  obtain ⟨⟨ps, e'⟩, hrun, hcounts⟩ := Option.map_eq_some_iff.mp hruns
  obtain ⟨htwice, hcounts⟩ := Prod.mk.inj hcounts
  obtain ⟨hopen, hread⟩ := Prod.mk.inj hcounts
  obtain ⟨-, honce⟩ :=
    h "m" _ e' ps (drainPasses_sound hrun) (stranded_afterCrash _)
  have hreads : ∃ r ∈ callsOf ps, r.Reads "m" := by
    obtain ⟨r, hr, hx⟩ := List.any_eq_true.mp hread
    obtain ⟨⟨f, a⟩, hmem, hload⟩ := List.any_eq_true.mp hx
    obtain ⟨rfl, hdb⟩ := of_decide_eq_true hload
    exact ⟨r, hr, a, hmem, hdb⟩
  have hsum : ((callsOf ps).map (Recovery.fanouts "m")).sum = 1 := by
    rw [honce.fanned hreads, hopen]
    rfl
  exact absurd (htwice.symm.trans hsum) (by decide)

end CockatielEngine
