import CockatielEngine.Gate.GateTask
import CockatielEngine.Concurrency.TaskPool

/-!
# Gate: the operator's last word

A `pipeline_set_paused` request reads the blocked reason and then pauses,
resumes or records the intent.  `clear_block` consumes a recorded intent and
tells its caller to resume, and the caller does so later.

**Main result.**  Along a run the operator's last completed request decides
exactly when no pause completes over a resume that is owed or an intent that
`pause` leaves recorded, and no intent is recorded after the block has gone.
-/

namespace CockatielEngine

open TaskPool

section Defs

/-- The pause state, and what the operator's last completed request asked for:
`some true` for a pause, `some false` for a resume. -/
structure OperatorGate where
  pauseState : PauseState
  lastWord : Option Bool

namespace GateTask

/-- What a request of the operator asks for in the step that completes it. -/
def word : GateTask → Option Bool
  | .pause => some true
  | .deferPause => some true
  | .deferResume => some false
  | .resume false => some false
  | .resume true => none
  | .setPaused _ => none
  | .setBlock _ => none
  | .clearBlock _ => none

end GateTask

/-- A request of the operator, or a change in a dependency. -/
inductive GateEvent where
  | setPaused (paused : Bool)
  | dependencyDown (reason : BlockedReason)
  | dependencyUp (reason : BlockedReason)

def GateEvent.task : GateEvent → GateTask
  | .setPaused paused => .setPaused paused
  | .dependencyDown reason => .setBlock reason
  | .dependencyUp reason => .clearBlock reason

/-- One critical section, with the operator's word kept beside it. -/
def operatorStep (g : OperatorGate) (t : GateTask) :
    Outcome OperatorGate GateTask :=
  Outcome.thenRun
    { pauseState := (t.step g.pauseState).1
      lastWord := t.word.or g.lastWord }
    (t.step g.pauseState).2

/-- Requests and dependency tasks, each at its own critical section. -/
def gateCalls : Program OperatorGate GateTask Unit GateEvent where
  step g t _ := some (operatorStep g t)
  catches _ := false
  event g ev := some (g, [[ev.task]])

abbrev GatePool := Pool OperatorGate GateTask

abbrev GateLabel := Label Unit GateEvent

/-- Some task still has to make the resume that `clear_block` told it to. -/
def OwesToldResume (s : GatePool) : Prop :=
  s.Standing (.resume true)

instance (s : GatePool) : Decidable (OwesToldResume s) :=
  inferInstanceAs (Decidable (s.Standing _))

/-- No request of the operator completes. -/
def ByItself (_ : GatePool) (_ : Unit) (t : GateTask) : Prop :=
  t.word = none

/-- After a pause the engine stays paused whatever it does by itself; after a
resume it runs, unless a block or an owed resume still holds it back. -/
def LastWordWins (s : GatePool) : Prop :=
  (s.shared.lastWord = some true →
    ∀ s', Reachable gateCalls (OnRun ByItself) s s' →
      s'.shared.pauseState.paused = true) ∧
  (s.shared.lastWord = some false →
    s.shared.pauseState.blocked = none →
    ¬ OwesToldResume s →
    s.shared.pauseState.paused = false)

/-- A pause completes over no owed resume, and `pause` over no recorded intent;
an intent is recorded while there is a block to clear, or over an engine that
runs or is about to. -/
def DecidesInTime (s : GatePool) (_ : Unit) : GateTask → Prop
  | .pause =>
      ¬ OwesToldResume s ∧ s.shared.pauseState.resumeWhenUnblocked = false
  | .deferPause => ¬ OwesToldResume s
  | .deferResume =>
      s.shared.pauseState.blocked.isSome = true ∨
        s.shared.pauseState.paused = false ∨ OwesToldResume s
  | _ => True

instance (s : GatePool) (a : Unit) (t : GateTask) :
    Decidable (DecidesInTime s a t) :=
  match t with
  | .pause => inferInstanceAs (Decidable (_ ∧ _))
  | .deferPause => inferInstanceAs (Decidable (¬ _))
  | .deferResume => inferInstanceAs (Decidable (_ ∨ _))
  | .resume _ | .setPaused _ | .setBlock _ | .clearBlock _ => .isTrue trivial

/-- Nothing in the engine is going to lift the pause. -/
structure StaysPaused (s : GatePool) : Prop where
  paused : s.shared.pauseState.paused = true
  no_intent : s.shared.pauseState.resumeWhenUnblocked = false
  not_owed : ¬ OwesToldResume s

/-- The engine runs, or something in it is going to lift the pause. -/
def WillRun (s : GatePool) : Prop :=
  s.shared.pauseState.paused = false ∨ OwesToldResume s ∨
    (s.shared.pauseState.blocked.isSome = true ∧
      s.shared.pauseState.resumeWhenUnblocked = true)

/-- What every state of a run in time satisfies. -/
structure WordKept (s : GatePool) : Prop where
  single : s.Waiting (fun _ => False)
  stays : s.shared.lastWord = some true → StaysPaused s
  runs : s.shared.lastWord = some false → WillRun s

end Defs

section Steps

variable {s s' : GatePool} {l : GateLabel}
variable {i : Nat} {t : GateTask} {rest : List GateTask}

/-- The pool after task `i` has run its critical section. -/
def afterTask (s : GatePool) (i : Nat) (t : GateTask) (rest : List GateTask) :
    GatePool where
  shared := (operatorStep s.shared t).shared
  threads :=
    s.threads.set i (gateCalls.unwind (operatorStep s.shared t).next rest) ++
      (operatorStep s.shared t).spawned

@[simp] theorem pauseState_afterTask :
    (afterTask s i t rest).shared.pauseState =
      (t.step s.shared.pauseState).1 := rfl

@[simp] theorem lastWord_afterTask :
    (afterTask s i t rest).shared.lastWord = t.word.or s.shared.lastWord := rfl

/-- A request or a dependency starts a task and changes nothing else. -/
theorem gateCalls_fire_cases
    (h : gateCalls.fire s l = some s') :
    (∃ i a t rest, l = .run i a ∧ s.threads[i]? = some (t :: rest) ∧
      s' = afterTask s i t rest) ∨
    (∃ ev, l = .world ev ∧
      s' = { shared := s.shared, threads := s.threads ++ [[ev.task]] }) := by
  cases l with
  | run i a =>
      obtain ⟨t, rest, o, hi, ho, rfl⟩ := fire_run_cases h
      obtain rfl := Option.some.inj ho
      exact Or.inl ⟨i, a, t, rest, rfl, hi, rfl⟩
  | world ev =>
      obtain ⟨r, hr, rfl⟩ := fire_world_cases h
      obtain rfl := Option.some.inj hr
      exact Or.inr ⟨ev, rfl, rfl⟩

theorem gateCalls_leavesWaiting :
    gateCalls.LeavesWaiting (fun _ => False) where
  next := by
    rintro g t a o fs ho hfs
    obtain rfl := Option.some.inj ho
    obtain rfl := Option.some.inj hfs
    cases t with
    | clearBlock reason =>
        cases hc : (g.pauseState.clearBlock reason).1 <;>
          simp [GateTask.step, hc]
    | _ => simp [GateTask.step]
  spawned := by
    rintro g t a o ho ts hts
    obtain rfl := Option.some.inj ho
    simp [operatorStep, Outcome.thenRun] at hts
  event := by
    rintro g ev r hr
    obtain rfl := Option.some.inj hr
    simp

/-- A told resume that is owed stays owed until it runs. -/
theorem OwesToldResume.afterTask
    (h : OwesToldResume s)
    (hi : s.threads[i]? = some (t :: rest))
    (ht : t ≠ .resume true) :
    OwesToldResume (afterTask s i t rest) :=
  Pool.Standing.run h hi (Ne.symm ht)

/-- What a task owes after a step it owed before, or was just told to make. -/
theorem owesToldResume_afterTask
    (hs : s.Waiting (fun _ => False))
    (hi : s.threads[i]? = some (t :: rest))
    (h : OwesToldResume (afterTask s i t rest)) :
    OwesToldResume s ∨
      GateTask.resume true ∈ (t.step s.shared.pauseState).2 := by
  rcases standing_after_run hs hi h with h | h | h
  · exact Or.inl h
  · exact Or.inr (by simpa [operatorStep] using h)
  · exact h.elim

/-- A task told to resume by its step owes it. -/
theorem owesToldResume_of_told
    (hi : s.threads[i]? = some (t :: rest))
    (ht : (t.step s.shared.pauseState).2 = [.resume true]) :
    OwesToldResume (afterTask s i t rest) := by
  have hnext : (operatorStep s.shared t).next = some [.resume true] :=
    congrArg some ht
  exact standing_of_next hi hnext

section Task

variable {p : PauseState}

/-- Only `clear_block` tells its caller to resume, and only over an intent. -/
theorem intent_of_told
    (h : GateTask.resume true ∈ (t.step p).2) :
    p.resumeWhenUnblocked = true := by
  cases t with
  | clearBlock reason =>
      simp only [GateTask.step, PauseState.clearBlock] at h
      split at h
      · simpa using h
      · simp at h
  | setPaused paused =>
      cases paused <;> cases hb : p.blocked <;>
        simp [GateTask.step, GateTask.ofRequest, hb] at h
  | _ => simp [GateTask.step] at h

/-- Of the tasks that are no request of the operator only a resume moves the
pause. -/
theorem paused_step
    (ht : t.word = none)
    (hr : t ≠ .resume true) :
    (t.step p).1.paused = p.paused := by
  cases t with
  | resume told => cases told <;> simp_all [GateTask.word]
  | pause | deferPause => simp [GateTask.word] at ht
  | _ => simp [GateTask.step, PauseState.deferResume]

/-- Only the operator records an intent. -/
theorem resumeWhenUnblocked_step
    (ht : t.word = none)
    (hp : p.resumeWhenUnblocked = false) :
    (t.step p).1.resumeWhenUnblocked = false := by
  cases t with
  | deferResume => simp [GateTask.word] at ht
  | clearBlock reason =>
      simp only [GateTask.step, PauseState.clearBlock]
      split
      · rfl
      · exact hp
  | _ => simp [GateTask.step, PauseState.resume, PauseState.pause,
      PauseState.deferPause, hp] <;> split <;> simp [hp]

end Task

/-- The engine by itself never lifts a pause that nothing is going to lift. -/
theorem StaysPaused.afterTask
    (h : StaysPaused s)
    (hs : s.Waiting (fun _ => False))
    (hi : s.threads[i]? = some (t :: rest))
    (ht : t.word = none) :
    StaysPaused (afterTask s i t rest) where
  paused := by
    refine (paused_step ht ?_).trans h.paused
    rintro rfl
    exact h.not_owed ⟨_, List.mem_of_getElem? hi, rfl⟩
  no_intent := resumeWhenUnblocked_step ht h.no_intent
  not_owed := by
    intro howes
    rcases owesToldResume_afterTask hs hi howes with howes | htold
    · exact h.not_owed howes
    · exact absurd (intent_of_told htold) (by simp [h.no_intent])

/-- A task the world starts is never a told resume. -/
theorem owesToldResume_world_iff
    {ev : GateEvent} :
    OwesToldResume { shared := s.shared, threads := s.threads ++ [[ev.task]] } ↔
      OwesToldResume s := by
  refine ⟨?_, Pool.Standing.world (r := (s.shared, [[ev.task]]))⟩
  rintro ⟨ts, hts, hhead⟩
  rcases List.mem_append.mp hts with hts | hts
  · exact ⟨ts, hts, hhead⟩
  · rw [List.mem_singleton.mp hts] at hhead
    cases ev <;> cases hhead

theorem StaysPaused.fire
    (h : StaysPaused s)
    (hs : s.Waiting (fun _ => False))
    (hok : OnRun ByItself s l)
    (hfire : gateCalls.fire s l = some s') :
    StaysPaused s' := by
  rcases gateCalls_fire_cases hfire with
    ⟨i, a, t, rest, rfl, hi, rfl⟩ | ⟨ev, rfl, rfl⟩
  · exact h.afterTask hs hi (hok.top hi)
  · exact ⟨h.paused, h.no_intent, owesToldResume_world_iff.not.mpr h.not_owed⟩

/-- The engine by itself stays paused for good. -/
theorem StaysPaused.for_good
    (h : StaysPaused s)
    (hs : s.Waiting (fun _ => False))
    (hreach : Reachable gateCalls (OnRun ByItself) s s') :
    s'.shared.pauseState.paused = true := by
  have hinv : StaysPaused s' ∧ s'.Waiting (fun _ => False) := by
    refine hreach.invariant
      (I := fun s => StaysPaused s ∧ s.Waiting (fun _ => False)) ⟨h, hs⟩ ?_
    rintro s s' l ⟨hstays, hwait⟩ hok hfire
    exact ⟨hstays.fire hwait hok hfire, hwait.fire gateCalls_leavesWaiting hfire⟩
  exact hinv.1.paused

/-- What is going to lift the pause is not lost by the engine itself. -/
theorem WillRun.afterTask
    (h : WillRun s)
    (hi : s.threads[i]? = some (t :: rest))
    (ht : t.word = none) :
    WillRun (afterTask s i t rest) := by
  by_cases hr : t = .resume true
  · subst hr
    exact Or.inl rfl
  rcases h with hrunning | howes | ⟨hb, hintent⟩
  · exact Or.inl ((paused_step ht hr).trans hrunning)
  · exact Or.inr (Or.inl (howes.afterTask hi hr))
  · cases t with
    | setBlock reason =>
        exact Or.inr (Or.inr (by simp [GateTask.step, hintent]))
    | setPaused paused =>
        exact Or.inr (Or.inr ⟨hb, hintent⟩)
    | clearBlock reason =>
        by_cases hreason : s.shared.pauseState.blocked = some reason
        · -- the answer tells this caller to resume
          refine Or.inr (Or.inl (owesToldResume_of_told hi ?_))
          simp [GateTask.step, PauseState.clearBlock, hreason, hintent]
        · refine Or.inr (Or.inr ?_)
          simpa [GateTask.step, PauseState.clearBlock, hreason] using ⟨hb, hintent⟩
    | resume told => cases told <;> simp_all [GateTask.word]
    | pause | deferPause | deferResume => simp [GateTask.word] at ht

theorem WordKept.afterTask
    (h : WordKept s)
    (hi : s.threads[i]? = some (t :: rest))
    (hok : DecidesInTime s () t) :
    ((afterTask s i t rest).shared.lastWord = some true →
      StaysPaused (afterTask s i t rest)) ∧
    ((afterTask s i t rest).shared.lastWord = some false →
      WillRun (afterTask s i t rest)) := by
  have hkeeps (hno : GateTask.resume true ∉ (t.step s.shared.pauseState).2)
      (howes : ¬ OwesToldResume s) :
      ¬ OwesToldResume (CockatielEngine.afterTask s i t rest) := fun howes' =>
    (owesToldResume_afterTask h.single hi howes').elim howes hno
  cases hw : t.word with
  | none =>
      simp only [lastWord_afterTask, hw, Option.none_or]
      exact ⟨fun hlast => (h.stays hlast).afterTask h.single hi hw,
        fun hlast => (h.runs hlast).afterTask hi hw⟩
  | some word =>
      simp only [lastWord_afterTask, hw, Option.some_or, Option.some.injEq]
      cases t with
      | pause =>
          obtain ⟨howes, hintent⟩ := hok
          refine ⟨fun _ => ⟨?_, ?_, hkeeps (by simp [GateTask.step]) howes⟩, ?_⟩
          · simp [GateTask.step, PauseState.pause]
            split <;> simp_all
          · simp [GateTask.step, PauseState.pause]
            split <;> simp_all
          · rintro rfl
            simp [GateTask.word] at hw
      | deferPause =>
          refine ⟨fun _ => ⟨rfl, rfl, hkeeps (by simp [GateTask.step]) hok⟩, ?_⟩
          rintro rfl
          simp [GateTask.word] at hw
      | deferResume =>
          refine ⟨?_, fun _ => ?_⟩
          · rintro rfl
            simp [GateTask.word] at hw
          · rcases hok with hb | hrunning | howes
            · exact Or.inr (Or.inr ⟨hb, rfl⟩)
            · exact Or.inl hrunning
            · exact Or.inr (Or.inl (howes.afterTask hi (by simp)))
      | resume told =>
          cases told with
          | false =>
              refine ⟨?_, fun _ => Or.inl rfl⟩
              rintro rfl
              simp [GateTask.word] at hw
          | true => simp [GateTask.word] at hw
      | setPaused | setBlock | clearBlock => simp [GateTask.word] at hw

/-- A run in time keeps the operator's word. -/
theorem WordKept.fire
    (h : WordKept s)
    (hok : OnRun DecidesInTime s l)
    (hfire : gateCalls.fire s l = some s') :
    WordKept s' := by
  have hsingle := h.single.fire gateCalls_leavesWaiting hfire
  rcases gateCalls_fire_cases hfire with
    ⟨i, a, t, rest, rfl, hi, rfl⟩ | ⟨ev, rfl, rfl⟩
  · obtain ⟨hstays, hruns⟩ := h.afterTask hi (hok.top hi)
    exact ⟨hsingle, hstays, hruns⟩
  · refine ⟨hsingle, fun hlast => ?_, fun hlast => ?_⟩
    · exact (h.stays hlast).fire (l := .world ev) h.single trivial hfire
    · rcases h.runs hlast with hrunning | howes | hintent
      · exact Or.inl hrunning
      · exact Or.inr (Or.inl (owesToldResume_world_iff.mpr howes))
      · exact Or.inr (Or.inr hintent)

theorem WordKept.lastWordWins
    (h : WordKept s) :
    LastWordWins s := by
  refine ⟨fun hlast s' hreach => (h.stays hlast).for_good h.single hreach, ?_⟩
  intro hlast hb howes
  rcases h.runs hlast with hrunning | howes' | ⟨hblocked, -⟩
  · exact hrunning
  · exact absurd howes' howes
  · simp [hb] at hblocked

/-- An owed resume lifts the pause. -/
theorem resumes_of_owed
    (h : OwesToldResume s) :
    ∃ s', Reachable gateCalls (OnRun ByItself) s s' ∧
      s'.shared.pauseState.paused = false := by
  obtain ⟨s', hreach, hshared, -, -⟩ :=
    Reachable.run_standing (P := gateCalls) (c := ByItself) (a := ()) .start h rfl rfl
  exact ⟨s', hreach, by rw [hshared]; rfl⟩

/-- A task that the world starts can run at once. -/
theorem reachable_of_event
    {s₀ : GatePool}
    (hs : Reachable gateCalls (OnRun ByItself) s₀ s)
    (ev : GateEvent)
    (hw : ev.task.word = none) :
    ∃ s', Reachable gateCalls (OnRun ByItself) s₀ s' ∧
      s'.shared = (operatorStep s.shared ev.task).shared ∧
      ∀ t ts, (ev.task.step s.shared.pauseState).2 = t :: ts → s'.Standing t := by
  have hstart : Reachable gateCalls (OnRun ByItself) s₀
      { shared := s.shared, threads := s.threads ++ [[ev.task]] } :=
    .step (l := .world ev) hs trivial rfl
  have hstanding : Pool.Standing ev.task
      { shared := s.shared, threads := s.threads ++ [[ev.task]] } :=
    ⟨[ev.task], List.mem_append_right _ (List.mem_singleton.mpr rfl), rfl⟩
  obtain ⟨s', hreach, hshared, hnext, -⟩ :=
    hstart.run_standing (a := ()) hstanding hw rfl
  exact ⟨s', hreach, hshared, fun t ts ht => hnext t ts (congrArg some ht)⟩

/-- A recorded intent lifts the pause as soon as a dependency comes back. -/
theorem resumes_of_intent
    (h : s.shared.pauseState.resumeWhenUnblocked = true) :
    ∃ s', Reachable gateCalls (OnRun ByItself) s s' ∧
      s'.shared.pauseState.paused = false := by
  obtain ⟨s₁, reason, hs₁, hb, hintent⟩ : ∃ s₁ reason,
      Reachable gateCalls (OnRun ByItself) s s₁ ∧
        s₁.shared.pauseState.blocked = some reason ∧
        s₁.shared.pauseState.resumeWhenUnblocked = true := by
    obtain ⟨s₁, hs₁, hshared, -⟩ :=
      reachable_of_event .start (.dependencyDown .userDb) rfl
    have hblocked := s.shared.pauseState.blocked_isSome_setBlock .userDb
    obtain ⟨reason, hreason⟩ := Option.isSome_iff_exists.mp hblocked
    refine ⟨s₁, reason, hs₁, ?_, ?_⟩
    · rw [hshared]
      exact hreason
    · rw [hshared]
      simpa [operatorStep, GateEvent.task, GateTask.step] using h
  obtain ⟨s₂, hs₂, -, howes⟩ :=
    reachable_of_event hs₁ (.dependencyUp reason) rfl
  have hstanding : OwesToldResume s₂ := by
    refine howes _ [] ?_
    simp [GateEvent.task, GateTask.step, PauseState.clearBlock, hb, hintent]
  obtain ⟨s₃, hs₃, hshared, -, -⟩ :=
    hs₂.run_standing (a := ()) hstanding rfl rfl
  exact ⟨s₃, hs₃, by rw [hshared]; rfl⟩

/-- A step that keeps the operator's word was decided in time. -/
theorem decidesInTime_of_lastWordWins
    (hs : s.Waiting (fun _ => False))
    (hfire : gateCalls.fire s l = some s')
    (h : LastWordWins s') :
    OnRun DecidesInTime s l := by
  rcases gateCalls_fire_cases hfire with
    ⟨i, a, t, rest, rfl, hi, rfl⟩ | ⟨ev, rfl, rfl⟩
  · intro g hg
    obtain rfl : t = g := by simpa [Pool.top, hi] using hg
    have hstuck (hlast : t.word = some true) :
        ¬ ∃ s', Reachable gateCalls (OnRun ByItself) (afterTask s i t rest) s' ∧
          s'.shared.pauseState.paused = false := by
      rintro ⟨s', hreach, hrunning⟩
      have hpaused := h.1 (by simp [hlast]) s' hreach
      simp [hrunning] at hpaused
    cases t with
    | pause =>
        refine ⟨fun howes => hstuck rfl (resumes_of_owed (howes.afterTask hi ?_)), ?_⟩
        · simp
        · by_contra hintent
          refine hstuck rfl (resumes_of_intent ?_)
          simp only [pauseState_afterTask, GateTask.step, PauseState.pause]
          split <;> simpa using hintent
    | deferPause =>
        exact fun howes => hstuck rfl (resumes_of_owed (howes.afterTask hi (by simp)))
    | deferResume =>
        by_contra hlate
        simp only [DecidesInTime, not_or, Bool.not_eq_true,
          Option.isSome_eq_false_iff, Option.isNone_iff_eq_none,
          Bool.not_eq_false] at hlate
        obtain ⟨hb, hpaused, howes⟩ := hlate
        have hrunning := h.2 rfl hb fun howes' => by
          rcases owesToldResume_afterTask hs hi howes' with howes' | htold
          · exact howes howes'
          · simp [GateTask.step] at htold
        simp [GateTask.step, PauseState.deferResume, hpaused] at hrunning
    | _ => trivial
  · trivial

end Steps

/-- The gate before the operator's first request: no task is under way. -/
def gateStart (pauseState : PauseState) : GatePool where
  shared := { pauseState := pauseState, lastWord := none }
  threads := []

/-- **Main theorem.**  Along a run of requests and dependency tasks the
operator's last completed request decides in every state exactly when every
step of the run decides in time. -/
theorem lastWordWins_iff_decidesInTime
    (pauseState : PauseState)
    (ls : List GateLabel)
    (hrun : (gateCalls.exec (gateStart pauseState) ls).isSome = true) :
    AllStates gateCalls LastWordWins (gateStart pauseState) ls ↔
      AllSteps gateCalls (OnRun DecidesInTime) (gateStart pauseState) ls := by
  refine allStates_iff_allSteps (I := WordKept) WordKept.lastWordWins
    WordKept.fire (fun h hfire => decidesInTime_of_lastWordWins h.single hfire)
    ⟨?_, ?_, ?_⟩ hrun
  · simp [Pool.Waiting, gateStart]
  · simp [gateStart]
  · simp [gateStart]

/-- The operator resumes a blocked engine, and pauses it after the block has
cleared. -/
def pausedOverOwedResume : List GateLabel :=
  [.world (.dependencyDown .userDb), .run 0 (),
   .world (.setPaused false), .run 1 (), .run 1 (),
   .world (.dependencyUp .userDb), .run 2 (),
   .world (.setPaused true), .run 3 (), .run 3 ()]

theorem lastWordWins_iff_decidesInTime_pausedOverOwedResume :
    AllStates gateCalls LastWordWins (gateStart {}) pausedOverOwedResume ↔
      AllSteps gateCalls (OnRun DecidesInTime) (gateStart {})
        pausedOverOwedResume :=
  lastWordWins_iff_decidesInTime {} pausedOverOwedResume (by decide)

/-- The engine then resumes by itself. -/
theorem resumes_after_pause :
    ¬ ∀ (pauseState : PauseState) (ls : List GateLabel) (s : GatePool),
      gateCalls.exec (gateStart pauseState) ls = some s →
      LastWordWins s := by
  intro h
  have hwins := h {} pausedOverOwedResume _ rfl
  have hpaused := hwins.1 rfl _
    (.step (l := .run 2 ()) .start (by
      intro t ht
      obtain rfl := Option.some.inj ht
      rfl) rfl)
  exact absurd hpaused (by decide)

end CockatielEngine
