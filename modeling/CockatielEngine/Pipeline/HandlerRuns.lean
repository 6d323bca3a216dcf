import CockatielEngine.Concurrency.Settles
import CockatielEngine.Pipeline.AlikeFor
import CockatielEngine.Pipeline.DriveReturns

/-!
# Pipeline: handlers that run to their end

A handler of one message neither spawns nor, where the database answers, fails: only
the insert of a message that is there does.  So it is a call, and a sweep that finds
nothing expired is none at all.
-/

namespace CockatielEngine

open TaskPool

section Defs

/-- The frame takes the expired entries out of the table. -/
def Frame.drains : Frame → Bool
  | .sweep (.drain _) => true
  | _ => false

/-- No sweep finds an expired entry. -/
def NoTimeout (e : Engine) (f : Frame) : Prop :=
  f.drains = true → (e.ackTracker.checkTimeouts e.now).1 = []

instance (e : Engine) (f : Frame) : Decidable (NoTimeout e f) :=
  inferInstanceAs (Decidable (f.drains = true → _))

end Defs

section Runs

variable {u v : String} {world : Frame → Answer} {e e' : Engine}
variable {f g : Frame} {a : Answer} {fs rest : List Frame} {ts : List (List Frame)}

/-- The first step of what settles, when it does not fail and spawns nothing. -/
theorem settles_go
    (e₁ : Engine) (fs : List Frame)
    (hstep : f.step e (world f) = go e₁ fs)
    (h : Settles engine world NoTimeout e ((f :: rest) :: ts) e') :
    NoTimeout e f ∧ Settles engine world NoTimeout e₁ ((fs ++ rest) :: ts) e' := by
  obtain ⟨o, ho, hok, hrest⟩ := Settles.cons_iff.mp h
  obtain rfl := engine_step_eq ho
  rw [hstep] at hrest
  simpa [go, Program.unwind] using And.intro hok hrest

/-- The same of the only frame. -/
theorem settles_last
    (e₁ : Engine) (fs : List Frame)
    (hstep : f.step e (world f) = go e₁ fs)
    (h : Settles engine world NoTimeout e [[f]] e') :
    Settles engine world NoTimeout e₁ [fs] e' := by
  simpa using (settles_go e₁ fs hstep h).2

/-- Where the only frame leaves nothing, the run ends. -/
theorem settles_end
    (e₁ : Engine)
    (hstep : f.step e (world f) = go e₁ [])
    (h : Settles engine world NoTimeout e [[f]] e') :
    e' = e₁ :=
  Settles.nil_iff.mp (Settles.done_iff.mp (settles_last e₁ [] hstep h))

/-- Where the database answers, a handler fails on a message that is there
already only. -/
theorem exists_next
    (hdb : a.dbOk = true)
    (hf : f.about = some v)
    (hins : ∀ msg, f ≠ .ingest (.insertEvent msg)) :
    ∃ fs, (f.step e a).next = some fs := by
  cases f with
  | ingest f =>
      cases f with
      | insertEvent msg => exact absurd rfl (hins msg)
      | _ =>
          simp only [Frame.step, IngestFrame.step, hdb, if_true]
          exact ⟨_, rfl⟩
  | recovery f =>
      cases f <;> simp only [Frame.step, RecoveryFrame.step, hdb, if_true] <;>
        first | (split <;> exact ⟨_, rfl⟩) | exact ⟨_, rfl⟩ | cases hf
  | broadcast f =>
      cases f <;> simp only [Frame.step, BroadcastFrame.step] <;>
        first | (split <;> exact ⟨_, rfl⟩) | exact ⟨_, rfl⟩
  | fanout f =>
      cases f with
      | send fo todo =>
          cases todo <;> simp only [Frame.step, FanoutFrame.step] <;>
            split <;> exact ⟨_, rfl⟩
      | track => exact ⟨_, rfl⟩
  | inProcess f =>
      cases f <;> simp only [Frame.step, InProcessFrame.step, hdb, if_true] <;>
        (repeat' split) <;> exact ⟨_, rfl⟩
  | postProcess f =>
      cases f <;> simp only [Frame.step, PostProcessFrame.step, hdb, if_true] <;>
        (repeat' split) <;> exact ⟨_, rfl⟩
  | terminal f =>
      cases f <;> simp only [Frame.step, TerminalFrame.step, hdb, if_true] <;>
        (repeat' split) <;> exact ⟨_, rfl⟩
  | reply f =>
      cases f <;> simp only [Frame.step, ReplyFrame.step] <;>
        (repeat' split) <;> exact ⟨_, rfl⟩
  | advance f =>
      cases f <;> simp only [Frame.step, AdvanceFrame.step] <;>
        (repeat' split) <;> exact ⟨_, rfl⟩
  | audit f =>
      cases f <;> simp only [Frame.step, AuditFrame.step] <;>
        (repeat' split) <;> exact ⟨_, rfl⟩
  | _ => cases hf

theorem spawned_of_about (hf : f.about = some v) : (f.step e a).spawned = [] := by
  refine List.eq_nil_iff_forall_not_mem.mpr fun t ht => ?_
  obtain ⟨held, rfl, -⟩ := step_spawned ht
  cases hf

theorem ne_insertEvent_new
    (hf : f.about = some v)
    (hg : g ∈ (f.step e a).new)
    (msg : PipelineMessage) :
    g ≠ .ingest (.insertEvent msg) := by
  rintro rfl
  have habout := about_new hf hg
  generalize hnew : Frame.ingest (.insertEvent msg) = g at hg
  cases Frame.leads hg with
  | @fanout_nobody fo _ =>
      cases hstage : fo.stage <;> simp [hstage, FanoutFrame.nobody] at hnew
  | _ => first | (cases hf; done) | simp at hnew

/-- What a handler's step leaves: frames of the handler, and no task. -/
theorem quiet_step
    (hdb : ∀ f, (world f).dbOk = true)
    {o : Outcome Engine Frame}
    (hf : f.about = some v ∧ ∀ msg, f ≠ .ingest (.insertEvent msg))
    (hstep : engine.step e f (world f) = some o) :
    o.spawned = [] ∧ ∃ fs, o.next = some fs ∧
      ∀ g ∈ fs, g.about = some v ∧ ∀ msg, g ≠ .ingest (.insertEvent msg) := by
  obtain rfl := engine_step_eq hstep
  obtain ⟨fs, hnext⟩ := exists_next (e := e) (hdb f) hf.1 hf.2
  have hmem (g : Frame) (hg : g ∈ fs) : g ∈ (f.step e (world f)).new := by
    simp [Outcome.new, hnext, hg]
  exact ⟨spawned_of_about hf.1, fs, hnext, fun g hg =>
    ⟨about_new hf.1 (hmem g hg), ne_insertEvent_new hf.1 (hmem g hg)⟩⟩

/-- A handler runs to its end, and what is below it goes on from there. -/
theorem settles_call
    (hdb : ∀ f, (world f).dbOk = true)
    (hf : f.about = some v)
    (hins : ∀ msg, f ≠ .ingest (.insertEvent msg))
    (h : Settles engine world NoTimeout e ((f :: rest) :: ts) e') :
    ∃ e₁, Returns engine world e [f] e₁ ∧
      Settles engine world NoTimeout e₁ (rest :: ts) e' :=
  Settles.call (fun g => g.about = some v ∧ ∀ msg, g ≠ .ingest (.insertEvent msg))
    (quiet_step hdb) [f] rest h (by simpa using ⟨hf, hins⟩)

/-- A sweep that finds nothing expired leaves the engine as it is. -/
theorem settles_sweep
    (h : Settles engine world NoTimeout e ((.sweep .start :: rest) :: ts) e') :
    Settles engine world NoTimeout e (rest :: ts) e' := by
  cases hgate : e.pauseState.isGated with
  | true =>
      exact (settles_go e [] (by simp [Frame.step, SweepFrame.step, hgate]) h).2
  | false =>
      have h := (settles_go e [.sweep .config]
        (by simp [Frame.step, SweepFrame.step, hgate]) h).2
      have h := (settles_go e [.sweep (.drain e.config)] rfl h).2
      obtain ⟨hnone, h⟩ := settles_go _ _ rfl h
      have hnone := hnone rfl
      have hkept := checkTimeouts_of_none hnone
      have hdrained (a : Answer) : SweepFrame.drained a [] = [] := by
        unfold SweepFrame.drained
        split
        · rename_i hperm
          exact (List.isPerm_iff.mp hperm).eq_nil
        · rfl
      rw [hnone, hkept, hdrained] at h
      exact (settles_go e [] rfl h).2

/-- A handler on its own. -/
theorem returns_of_settles
    (hdb : ∀ f, (world f).dbOk = true)
    (hf : f.about = some v)
    (hins : ∀ msg, f ≠ .ingest (.insertEvent msg))
    (h : Settles engine world NoTimeout e [[f]] e') :
    Returns engine world e [f] e' := by
  obtain ⟨e₁, hreturns, hrest⟩ := settles_call hdb hf hins h
  obtain rfl := Settles.nil_iff.mp (Settles.done_iff.mp hrest)
  exact hreturns

/-- The insert of a message fails on a row that is there. -/
theorem settles_insertEvent
    (hdb : ∀ f, (world f).dbOk = true)
    {msg : PipelineMessage}
    (h : Settles engine world NoTimeout e [[.ingest (.insertEvent msg)]] e') :
    (e.timeline.row? msg.uuid7).isSome = true ∧ e' = e ∨
      (e.timeline.row? msg.uuid7).isSome = false ∧
        Returns engine world e [.ingest (.insertEvent msg)] e' := by
  obtain ⟨o, ho, -, hrest⟩ := Settles.cons_iff.mp h
  obtain rfl := engine_step_eq ho
  have habout : (Frame.ingest (.insertEvent msg)).about = some msg.uuid7 := rfl
  rw [spawned_of_about habout] at hrest
  cases hrow : (e.timeline.row? msg.uuid7).isSome with
  | true =>
      have hfail : (Frame.ingest (.insertEvent msg)).step e
          (world (.ingest (.insertEvent msg))) = fail e := by
        simp [Frame.step, IngestFrame.step, hdb, Timeline.insertEvent, hrow]
      rw [hfail] at hrest
      exact Or.inl ⟨rfl, Settles.nil_iff.mp (Settles.done_iff.mp hrest)⟩
  | false =>
      obtain ⟨fs, hnext⟩ : ∃ fs, ((Frame.ingest (.insertEvent msg)).step e
          (world (.ingest (.insertEvent msg)))).next = some fs := by
        simp only [Frame.step, IngestFrame.step, hdb, if_true, Timeline.insertEvent, hrow]
        simp only [Bool.false_eq_true, if_false]
        split <;> exact ⟨_, rfl⟩
      have hfs (g : Frame) (hg : g ∈ fs) :
          g.about = some msg.uuid7 ∧ ∀ msg', g ≠ .ingest (.insertEvent msg') := by
        have hnew : g ∈ ((Frame.ingest (.insertEvent msg)).step e
            (world (.ingest (.insertEvent msg)))).new := by
          simp [Outcome.new, hnext, hg]
        exact ⟨about_new habout hnew, ne_insertEvent_new habout hnew⟩
      rw [hnext] at hrest
      obtain ⟨e₁, hcall, hend⟩ := Settles.call
        (fun g => g.about = some msg.uuid7 ∧ ∀ msg', g ≠ .ingest (.insertEvent msg'))
        (quiet_step hdb) fs [] hrest hfs
      obtain rfl := Settles.nil_iff.mp (Settles.done_iff.mp hend)
      exact Or.inr ⟨rfl, Returns.cons_iff.mpr
        ⟨_, fs, rfl, spawned_of_about habout, hnext, by rwa [List.append_nil]⟩⟩

/-- Time passes by the world's moves only. -/
theorem clock_of_settles
    {ts : List (List Frame)}
    (h : Settles engine world NoTimeout e ts e') :
    e'.clock = e.clock := by
  induction h with
  | idle => rfl
  | done _ ih => exact ih
  | step hstep _ _ ih =>
      obtain rfl := engine_step_eq hstep
      exact ih.trans (Frame.step_clock _ _ _)

/-- A handler adds to the dispatches. -/
theorem dispatches_prefix_of_returns
    {fs : List Frame}
    (h : Returns engine world e fs e') :
    e.dispatches u <+: e'.dispatches u := by
  refine h.invariant (fun _ => True) (fun s => e.dispatches u <+: s.dispatches u) ?_
    (fun _ _ => trivial) (List.prefix_refl _)
  intro s g o fs _ hs hstep _
  obtain rfl := engine_step_eq hstep
  obtain ⟨evs, hlog, -⟩ := Frame.records s (world g) g
  refine ⟨fun _ _ => trivial, hs.trans ?_⟩
  simp only [Engine.dispatches, hlog, List.reverse_append, List.filterMap_append]
  exact List.prefix_append _ _

end Runs

end CockatielEngine
