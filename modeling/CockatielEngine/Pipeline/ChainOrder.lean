import CockatielEngine.Pipeline.ChainToken

/-!
# Pipeline: the in-process chain under reconfiguration

A message remembers its place in the in-process chain as an index into the
configured list, and the list may be replaced at any time.  A change that moves
what the message has been through makes the index point at another module.

**Main result.**  When every change of the list leaves the part that a message
has passed as it is, no module of the chain is dispatched the message twice,
and none that is always listed and reachable is skipped.
-/

namespace CockatielEngine

open TaskPool

section Defs

variable (uuid7 : String)

/-- The module that a dispatch of the chain went to. -/
def Event.chainSent : Event → Option String
  | .sent v .inProcess moduleName _ => if v = uuid7 then some moduleName else none
  | _ => none

/-- The modules the chain has dispatched the message to, newest first. -/
def dispatched (e : Engine) : List String :=
  e.log.filterMap (Event.chainSent uuid7)

/-- The index of the message in the chain. -/
def chainIndex (e : Engine) : Option Nat :=
  (e.pipelineStates uuid7).map (·.currentInProcessIndex)

/-- How many modules of the list the frame that carries the message's token has
passed; `index` is that of the message. -/
def passedAt (index : Option Nat) : Frame → Option Nat
  | .inProcess (.enter v) => if v = uuid7 then index else none
  | .inProcess (.audit v) => if v = uuid7 then index else none
  | .inProcess (.load v) => if v = uuid7 then index else none
  | .inProcess (.config v state) =>
      if v = uuid7 then some state.currentInProcessIndex else none
  | .resume (.spawnReplay held) =>
      if 0 < heldTokens uuid7 held then index else none
  | .resume (.replayNext held) =>
      if 0 < heldTokens uuid7 held then index else none
  | f => if 0 < chainTokens uuid7 f then index.map (· + 1) else none

/-- The message leaves the stage by a length of the list that still holds. -/
def LeavesByLength (e : Engine) (len : Nat) : Prop :=
  ∀ n ∈ chainIndex uuid7 e, len ≤ n + 1 → e.config.inProcessModules.length ≤ n + 1

/-- The message gets its in-memory state before it leaves pre-process, and a
handler that takes it out of the chain does so by a length that still holds. -/
def KeepsIndex (s : EnginePool) : Frame → Prop
  | .ingest (.insertState msg) =>
      msg.uuid7 = uuid7 → timesLeft uuid7 .preProcess s.shared = 0
  | .recovery (.insertState v _) =>
      v = uuid7 → timesLeft uuid7 .preProcess s.shared = 0
  | .advance (.nextIndex v len) => v = uuid7 → LeavesByLength uuid7 s.shared len
  | .inProcess (.skip v len) => v = uuid7 → LeavesByLength uuid7 s.shared len
  | _ => True

/-- The list `l` agrees with the configured one on what the message has passed. -/
def AgreesOnPassed (s : EnginePool) (l : List String) : Prop :=
  (∀ f ∈ s.frames, ∀ n ∈ passedAt uuid7 (chainIndex uuid7 s.shared) f,
    l.take n = s.shared.config.inProcessModules.take n) ∧
  (0 < pendingTokens uuid7 s.shared.ackTracker →
    ∀ n ∈ chainIndex uuid7 s.shared,
      l.take (n + 1) = s.shared.config.inProcessModules.take (n + 1)) ∧
  (0 < heldTokens uuid7 s.shared.pauseState.held →
    ∀ n ∈ chainIndex uuid7 s.shared,
      l.take n = s.shared.config.inProcessModules.take n)

/-- The steps that keep the message's place in the chain: it leaves pre-process
cleanly, and a new list names no module twice and leaves what the message has
passed where it is. -/
def KeepsChain (s : EnginePool) : EngineLabel → Prop
  | .run i a =>
      OnRun (fun s a f =>
        LeavesCleanly uuid7 .preProcess s a f ∧ KeepsIndex uuid7 s f) s
        (.run i a : EngineLabel)
  | .world (.setConfig cfg) =>
      cfg.inProcessModules.Nodup ∧ AgreesOnPassed uuid7 s cfg.inProcessModules
  | .world _ => True

/-- Wherever the message meets it, the module is listed, a recipient, permitted
and connected. -/
def Welcomes (moduleName : String) (s : EnginePool) (a : Answer) : Frame → Prop
  | .inProcess (.config v state) =>
      v = uuid7 → moduleName ∈ s.shared.config.inProcessModules ∧
        moduleName ∈ commandRecipients state.parsedCommand
          s.shared.commandRegistry s.shared.config.inProcessModules
  | .inProcess (.send v _ m _ _) =>
      v = uuid7 → m = moduleName → a.permitted = true ∧ a.outcome = .sent
  | .inProcess (.skip v _) =>
      v = uuid7 → moduleName ∈ s.shared.config.inProcessModules
  | .advance (.nextIndex v _) =>
      v = uuid7 → moduleName ∈ s.shared.config.inProcessModules
  | _ => True

instance (e : Engine) (len : Nat) : Decidable (LeavesByLength uuid7 e len) :=
  inferInstanceAs (Decidable (∀ n ∈ chainIndex uuid7 e, _))

instance (s : EnginePool) (f : Frame) : Decidable (KeepsIndex uuid7 s f) :=
  match f with
  | .ingest (.insertState _) => inferInstanceAs (Decidable (_ → _))
  | .recovery (.insertState _ _) => inferInstanceAs (Decidable (_ → _))
  | .inProcess (.skip _ _) => inferInstanceAs (Decidable (_ → _))
  | .advance (.nextIndex _ _) => inferInstanceAs (Decidable (_ → _))
  | .ingest (.insertEvent _) | .ingest (.setCommand _ _) | .ingest (.setUserUuid _)
  | .recovery (.check _) | .recovery (.load _) | .recovery .drainQueued
  | .recovery (.drainNext _) | .broadcast _ | .fanout _ | .inProcess (.enter _)
  | .inProcess (.audit _) | .inProcess (.load _) | .inProcess (.config _ _)
  | .inProcess (.send _ _ _ _ _) | .inProcess (.track _ _ _) | .postProcess _
  | .terminal _ | .reply _ | .advance (.notePre _) | .advance (.noteIn _ _)
  | .advance (.refresh _) | .advance (.storeUserData _ _) | .sweep _ | .gate _
  | .resume _ | .audit _ => instDecidableTrue

instance (s : EnginePool) (l : List String) :
    Decidable (AgreesOnPassed uuid7 s l) := by
  unfold AgreesOnPassed
  infer_instance

instance (s : EnginePool) (l : EngineLabel) : Decidable (KeepsChain uuid7 s l) :=
  match l with
  | .run i a =>
      inferInstanceAs (Decidable (OnRun (fun s a f =>
        LeavesCleanly uuid7 .preProcess s a f ∧ KeepsIndex uuid7 s f) s
        (.run i a : EngineLabel)))
  | .world (.setConfig _) => inferInstanceAs (Decidable (_ ∧ _))
  | .world (.tick _) | .world (.setRegistry _) | .world (.ingest _) | .world .recover
  | .world (.reply _) | .world (.receipt _ _) | .world .sweep | .world .boot
  | .world (.operator _) | .world (.dependencyDown _) | .world (.dependencyUp _)
  | .world (.auditFlag _ _) | .world (.auditDecision _ _) => instDecidableTrue

instance (m : String) (s : EnginePool) (a : Answer) (f : Frame) :
    Decidable (Welcomes uuid7 m s a f) :=
  match f with
  | .inProcess (.config _ _) => inferInstanceAs (Decidable (_ → _))
  | .inProcess (.send _ _ _ _ _) => inferInstanceAs (Decidable (_ → _))
  | .inProcess (.skip _ _) => inferInstanceAs (Decidable (_ → _))
  | .advance (.nextIndex _ _) => inferInstanceAs (Decidable (_ → _))
  | .ingest _ | .recovery _ | .broadcast _ | .fanout _ | .inProcess (.enter _)
  | .inProcess (.audit _) | .inProcess (.load _) | .inProcess (.track _ _ _)
  | .postProcess _ | .terminal _ | .reply _ | .advance (.notePre _)
  | .advance (.noteIn _ _) | .advance (.refresh _) | .advance (.storeUserData _ _)
  | .sweep _ | .gate _ | .resume _ | .audit _ => instDecidableTrue

end Defs

/-- Where a message that has passed `n` modules stands: it was dispatched to
modules among these only, and to those of them that welcome it. -/
structure Place (uuid7 : String) (welcome : String → Prop) (e : Engine)
    (n : Nat) : Prop where
  passed : ∀ m ∈ dispatched uuid7 e, m ∈ e.config.inProcessModules.take n
  reached : ∀ m, welcome m → m ∈ e.config.inProcessModules.take n →
    m ∈ dispatched uuid7 e

/-- What holds of a frame that carries the message's token. -/
def InPlace (uuid7 : String) (welcome : String → Prop) (e : Engine) :
    Frame → Prop
  | .inProcess (.config v state) =>
      v = uuid7 → Place uuid7 welcome e state.currentInProcessIndex ∧
        ∀ n ∈ chainIndex uuid7 e, n = state.currentInProcessIndex
  | .inProcess (.send v _ m _ _) =>
      v = uuid7 → m ∉ dispatched uuid7 e ∧
        ∀ n ∈ chainIndex uuid7 e, Place uuid7 welcome e n ∧
          e.config.inProcessModules[n]? = some m
  | f => ∀ n ∈ passedAt uuid7 (chainIndex uuid7 e) f, Place uuid7 welcome e n

/-- The frame takes the message on from the end of the chain. -/
def Beyond (uuid7 : String) : Frame → Prop
  | .advance (.refresh v) => v = uuid7
  | .advance (.storeUserData v _) => v = uuid7
  | .postProcess (.enter v) => v = uuid7
  | .resume (.spawnReplay held) => (uuid7, .postProcess) ∈ held
  | .resume (.replayNext held) => (uuid7, .postProcess) ∈ held
  | _ => False

/-- The message has been dispatched to every module that welcomes it. -/
def Reached (uuid7 : String) (welcome : String → Prop) (e : Engine) : Prop :=
  ∀ m, welcome m → m ∈ dispatched uuid7 e

/-- The invariant of a run that keeps the message's place. -/
structure InOrder (uuid7 : String) (welcome : String → Prop)
    (s : EnginePool) : Prop where
  guarded : Guarded uuid7 .preProcess s
  apart : s.total (fansOut uuid7 .inProcess) = 0
  tokens : chain uuid7 s ≤ timesLeft uuid7 .preProcess s.shared
  listed : s.shared.config.inProcessModules.Nodup
  once : (dispatched uuid7 s.shared).Nodup
  unborn : timesLeft uuid7 .preProcess s.shared = 0 →
    dispatched uuid7 s.shared = [] ∧ ∀ n ∈ chainIndex uuid7 s.shared, n = 0
  tasks : ∀ f ∈ s.frames, InPlace uuid7 welcome s.shared f
  pending : 0 < pendingTokens uuid7 s.shared.ackTracker →
    ∀ n ∈ chainIndex uuid7 s.shared, Place uuid7 welcome s.shared (n + 1)
  held : 0 < heldTokens uuid7 s.shared.pauseState.held →
    ∀ n ∈ chainIndex uuid7 s.shared, Place uuid7 welcome s.shared n
  beyond : ∀ f ∈ s.frames, Beyond uuid7 f → Reached uuid7 welcome s.shared
  heldBeyond : (uuid7, .postProcess) ∈ s.shared.pauseState.held →
    Reached uuid7 welcome s.shared

section Places

variable {uuid7 : String} {welcome : String → Prop} {e e' : Engine} {n : Nat}

theorem Place.congr
    (h : Place uuid7 welcome e n)
    (hsent : dispatched uuid7 e' = dispatched uuid7 e)
    (hlist : e'.config.inProcessModules.take n =
      e.config.inProcessModules.take n) :
    Place uuid7 welcome e' n := by
  refine ⟨?_, ?_⟩
  · rw [hsent, hlist]
    exact h.passed
  · rw [hsent, hlist]
    exact h.reached

/-- Nothing has been passed at the start. -/
theorem Place.zero
    (h : dispatched uuid7 e = []) :
    Place uuid7 welcome e 0 :=
  ⟨by simp [h], by simp⟩

/-- A message that has passed the whole list has reached all that welcome it. -/
theorem Place.all
    (h : Place uuid7 welcome e n)
    (hlen : e.config.inProcessModules.length ≤ n)
    (hlisted : ∀ m, welcome m → m ∈ e.config.inProcessModules) :
    Reached uuid7 welcome e := by
  intro m hm
  refine h.reached m hm ?_
  rw [List.take_of_length_le hlen]
  exact hlisted m hm

/-- The module at the index is passed over when it does not welcome the
message. -/
theorem Place.skip
    {m : String}
    (h : Place uuid7 welcome e n)
    (hat : e.config.inProcessModules[n]? = some m)
    (hm : ¬ welcome m) :
    Place uuid7 welcome e (n + 1) := by
  have htake : e.config.inProcessModules.take (n + 1) =
      e.config.inProcessModules.take n ++ [m] := by
    rw [List.take_add_one, hat]
    rfl
  refine ⟨fun x hx => ?_, fun x hx hmem => ?_⟩
  · rw [htake]
    exact List.mem_append_left _ (h.passed x hx)
  · rw [htake] at hmem
    rcases List.mem_append.mp hmem with hmem | hmem
    · exact h.reached x hx hmem
    · obtain rfl := List.mem_singleton.mp hmem
      exact absurd hx hm

/-- The dispatch to the module at the index. -/
theorem Place.send
    {m : String}
    (h : Place uuid7 welcome e n)
    (hat : e.config.inProcessModules[n]? = some m)
    (hlist : e'.config = e.config)
    (hsent : dispatched uuid7 e' = m :: dispatched uuid7 e) :
    Place uuid7 welcome e' (n + 1) := by
  have htake : e'.config.inProcessModules.take (n + 1) =
      e.config.inProcessModules.take n ++ [m] := by
    rw [hlist, List.take_add_one, hat]
    rfl
  refine ⟨fun x hx => ?_, fun x hx hmem => ?_⟩
  · rw [htake]
    rw [hsent] at hx
    rcases List.mem_cons.mp hx with rfl | hx
    · exact List.mem_append_right _ (List.mem_singleton.mpr rfl)
    · exact List.mem_append_left _ (h.passed x hx)
  · rw [htake] at hmem
    rw [hsent]
    rcases List.mem_append.mp hmem with hmem | hmem
    · exact List.mem_cons_of_mem _ (h.reached x hx hmem)
    · obtain rfl := List.mem_singleton.mp hmem
      exact List.mem_cons_self ..

/-- The module at the index is not among those before it. -/
theorem Place.fresh
    {m : String}
    (h : Place uuid7 welcome e n)
    (hlisted : e.config.inProcessModules.Nodup)
    (hat : e.config.inProcessModules[n]? = some m) :
    m ∉ dispatched uuid7 e := by
  intro hm
  have htake : e.config.inProcessModules.take (n + 1) =
      e.config.inProcessModules.take n ++ [m] := by
    rw [List.take_add_one, hat]
    rfl
  have hnodup := hlisted.sublist (List.take_sublist (n + 1) _)
  rw [htake] at hnodup
  exact (List.nodup_append.mp hnodup).2.2 m (h.passed m hm) m
    (List.mem_singleton.mpr rfl) rfl

/-- Without a token the frame has no place to keep. -/
theorem inPlace_of_chainTokens
    {f : Frame}
    (h : chainTokens uuid7 f = 0) :
    InPlace uuid7 welcome e f := by
  cases f with
  | inProcess f =>
      cases f with
      | config v state =>
          rintro rfl
          simp [chainTokens] at h
      | send v state m timeout len =>
          rintro rfl
          simp [chainTokens] at h
      | _ =>
          intro n hn
          simp only [chainTokens, ite_eq_right_iff, one_ne_zero, imp_false] at h
          simp [passedAt, chainTokens, h] at hn
  | resume f =>
      intro n hn
      cases f <;> simp_all [passedAt, chainTokens]
  | _ =>
      intro n hn
      simp [passedAt, h] at hn

/-- A frame keeps its place while nothing moves. -/
theorem InPlace.congr
    {f : Frame}
    (h : InPlace uuid7 welcome e f)
    (hsent : dispatched uuid7 e' = dispatched uuid7 e)
    (hlist : e'.config = e.config)
    (hindex : chainIndex uuid7 e' = chainIndex uuid7 e ∨
      chainIndex uuid7 e' = none) :
    InPlace uuid7 welcome e' f := by
  have hplace {n : Nat} (hp : Place uuid7 welcome e n) : Place uuid7 welcome e' n :=
    hp.congr hsent (by rw [hlist])
  have hmem {n : Nat} (hn : n ∈ chainIndex uuid7 e') : n ∈ chainIndex uuid7 e := by
    rcases hindex with heq | hnone
    · rwa [← heq]
    · simp [hnone] at hn
  have hother {g : Frame}
      (hg : ∀ n ∈ passedAt uuid7 (chainIndex uuid7 e) g, Place uuid7 welcome e n)
      (hnone : passedAt uuid7 none g = none) :
      ∀ n ∈ passedAt uuid7 (chainIndex uuid7 e') g, Place uuid7 welcome e' n := by
    intro n hn
    rcases hindex with heq | hgone
    · rw [heq] at hn
      exact hplace (hg n hn)
    · rw [hgone, hnone] at hn
      cases hn
  have hgone (g : Frame) :
      (if 0 < chainTokens uuid7 g then (none : Option Nat).map (· + 1) else none) =
        none := by
    split <;> rfl
  cases f with
  | inProcess f =>
      cases f with
      | config v state =>
          intro hv
          exact ⟨hplace (h hv).1, fun n hn => (h hv).2 n (hmem hn)⟩
      | send v state m timeout len =>
          intro hv
          refine ⟨by rw [hsent]; exact (h hv).1, fun n hn => ?_⟩
          rw [hlist]
          exact ⟨hplace ((h hv).2 n (hmem hn)).1, ((h hv).2 n (hmem hn)).2⟩
      | enter v => exact hother h (ite_self _)
      | audit v => exact hother h (ite_self _)
      | load v => exact hother h (ite_self _)
      | track v m timeout => exact hother h (hgone (.inProcess (.track v m timeout)))
      | skip v len => exact hother h (hgone (.inProcess (.skip v len)))
  | resume f =>
      cases f with
      | restartClocks => exact hother h (hgone (.resume .restartClocks))
      | _ => exact hother h (ite_self _)
  | ingest f => exact hother h (hgone (.ingest f))
  | recovery f => exact hother h (hgone (.recovery f))
  | broadcast f => exact hother h (hgone (.broadcast f))
  | fanout f => exact hother h (hgone (.fanout f))
  | postProcess f => exact hother h (hgone (.postProcess f))
  | terminal f => exact hother h (hgone (.terminal f))
  | reply f => exact hother h (hgone (.reply f))
  | advance f => exact hother h (hgone (.advance f))
  | sweep f => exact hother h (hgone (.sweep f))
  | gate t => exact hother h (hgone (.gate t))
  | audit f => exact hother h (hgone (.audit f))

end Places

section Effects

variable {uuid7 : String} {e : Engine} {a : Answer}

/-- Only the chain's own send adds to what it has dispatched. -/
theorem dispatched_step
    {f : Frame}
    (hf : fansOut uuid7 .inProcess f = 0)
    (hsend : ∀ state m timeout len,
      f ≠ .inProcess (.send uuid7 state m timeout len)) :
    dispatched uuid7 (f.step e a).shared = dispatched uuid7 e := by
  obtain ⟨evs, hlog, hevs⟩ := f.records e a
  have hnone : evs.filterMap (Event.chainSent uuid7) = [] := by
    refine List.filterMap_eq_nil_iff.mpr fun ev hev => ?_
    cases hevs ev hev with
    | @fanout_sent fo m todo _ _ =>
        cases hst : fo.stage with
        | inProcess =>
            have hu : fo.uuid7 ≠ uuid7 := by simpa [hst] using hf
            simp [Event.chainSent, hu]
        | _ => rfl
    | @inProcess_sent v state m timeout len _ _ =>
        have hv : v ≠ uuid7 := by
          rintro rfl
          exact hsend _ _ _ _ rfl
        simp [Event.chainSent, hv]
    | _ => rfl
  rw [dispatched, hlog, List.filterMap_append, hnone]
  rfl

/-- What has been dispatched stays on record. -/
theorem dispatched_mono
    {m : String} (f : Frame)
    (hm : m ∈ dispatched uuid7 e) :
    m ∈ dispatched uuid7 (f.step e a).shared := by
  obtain ⟨evs, hlog, -⟩ := f.records e a
  rw [dispatched, hlog, List.filterMap_append]
  exact List.mem_append_right _ hm

/-- The frames that move the message to the next index. -/
def movesIndex (uuid7 : String) : Frame → Prop
  | .inProcess (.skip v _) => v = uuid7
  | .advance (.nextIndex v _) => v = uuid7
  | _ => False

/-- An update of a state that leaves its index alone. -/
theorem chainIndex_modifyState
    (uuid7 : String) (e : Engine) (v : String) (f : PipelineState → PipelineState)
    (hf : ∀ state, (f state).currentInProcessIndex = state.currentInProcessIndex) :
    chainIndex uuid7 (e.modifyState v f) = chainIndex uuid7 e := by
  by_cases hv : uuid7 = v
  · subst hv
    cases hstate : e.pipelineStates uuid7 <;>
      simp [chainIndex, Engine.modifyState, Engine.putState, hstate, hf]
  · simp [chainIndex, Engine.modifyState, Engine.putState, hv]

/-- The index stays, unless the message is moved on, ends, or is installed. -/
theorem chainIndex_step
    {f : Frame}
    (hmove : ¬ movesIndex uuid7 f)
    (hinstall : f.installs ≠ some uuid7) :
    chainIndex uuid7 (f.step e a).shared = chainIndex uuid7 e ∨
      chainIndex uuid7 (f.step e a).shared = none := by
  by_cases hsub : f.stateSubject = some uuid7
  · cases f with
    | ingest f => cases f <;> simp_all [Frame.stateSubject, Frame.installs]
    | recovery f => cases f <;> simp_all [Frame.stateSubject, Frame.installs]
    | inProcess f =>
        cases f <;>
          simp only [Frame.stateSubject, Option.some.injEq, reduceCtorEq] at hsub
        case load =>
          subst hsub
          left
          simp only [Frame.step, InProcessFrame.step]
          split <;> simp_all [chainIndex, Engine.putState]
        case skip => exact absurd hsub hmove
    | postProcess f =>
        cases f <;>
          simp only [Frame.stateSubject, Option.some.injEq, reduceCtorEq] at hsub
        subst hsub
        left
        simp only [Frame.step, PostProcessFrame.step]
        split <;> simp_all [chainIndex, Engine.putState]
    | terminal f =>
        cases f <;>
          simp only [Frame.stateSubject, Option.some.injEq, reduceCtorEq] at hsub
        subst hsub
        right
        simp only [Frame.step, TerminalFrame.step]
        split <;> simp_all [chainIndex, Engine.putState]
    | reply f =>
        cases f <;>
          simp only [Frame.stateSubject, Option.some.injEq, reduceCtorEq] at hsub
        case record => exact Or.inl (chainIndex_modifyState _ _ _ _ fun _ => rfl)
        case audio r =>
          refine Or.inl (chainIndex_modifyState _ _ _ _ fun state => ?_)
          unfold PipelineState.storeAudio
          split <;> rfl
    | advance f =>
        cases f <;>
          simp only [Frame.stateSubject, Option.some.injEq, reduceCtorEq] at hsub
        case nextIndex => exact absurd hsub hmove
        all_goals exact Or.inl (chainIndex_modifyState _ _ _ _ fun _ => rfl)
    | _ => simp [Frame.stateSubject] at hsub
  · left
    simp only [chainIndex]
    rw [Frame.step_pipelineStates e a hsub]

/-- An installed state starts at the head of the chain. -/
theorem chainIndex_installs
    {f : Frame}
    (h : f.installs = some uuid7) :
    chainIndex uuid7 (f.step e a).shared = some 0 := by
  cases f with
  | ingest f =>
      cases f <;> simp only [Frame.installs, Option.some.injEq, reduceCtorEq] at h
      subst h
      simp [Frame.step, IngestFrame.step, chainIndex, Engine.putState,
        PipelineState.ofMessage]
  | recovery f =>
      cases f <;> simp only [Frame.installs, Option.some.injEq, reduceCtorEq] at h
      subst h
      simp [Frame.step, RecoveryFrame.step, chainIndex, Engine.putState,
        PipelineState.ofQueued]
  | _ => simp [Frame.installs] at h

/-- A pending token after a step was pending before, or the frame that ran
carried it and has just tracked it. -/
theorem pending_of_step
    {f : Frame}
    (hf : fansOut uuid7 .inProcess f = 0)
    (h : 0 < pendingTokens uuid7 (f.step e a).shared.ackTracker) :
    0 < pendingTokens uuid7 e.ackTracker ∨
      0 < chainTokens uuid7 f ∧ ∃ y, f.tracks e.now = some y := by
  obtain ⟨y, hy, hof⟩ := List.countP_pos_iff.mp h
  rcases Frame.mem_pending_step e a hy with ⟨x, hx, hyx⟩ | htracks
  · refine Or.inl (List.countP_pos_iff.mpr ⟨x, hx, ?_⟩)
    rcases hyx with rfl | rfl | ⟨-, rfl⟩ <;> exact hof
  · obtain ⟨hu, hst⟩ : y.uuid7 = uuid7 ∧ y.stage = .inProcess :=
      of_decide_eq_true hof
    refine Or.inr ⟨?_, y, htracks⟩
    cases f with
    | fanout f =>
        cases f with
        | send => simp [Frame.tracks] at htracks
        | track fo m todo =>
            obtain rfl := Option.some.inj htracks
            simp [show fo.uuid7 = uuid7 from hu,
              show fo.stage = .inProcess from hst] at hf
    | inProcess f =>
        cases f with
        | track v m timeout =>
            obtain rfl := Option.some.inj htracks
            simp [chainTokens, show v = uuid7 from hu]
        | _ => simp [Frame.tracks] at htracks
    | sweep f =>
        cases f with
        | resendTrack sw entry =>
            obtain rfl := Option.some.inj htracks
            have hentry : entry.isOf uuid7 .inProcess = true :=
              decide_eq_true ⟨hu, hst⟩
            simp [chainTokens, drainedTokens_cons, hentry]
        | _ => simp [Frame.tracks] at htracks
    | _ => simp [Frame.tracks] at htracks

/-- A held token after a step was held before, or the frame that ran carried
it. -/
theorem held_of_step
    {f : Frame}
    (h : 0 < heldTokens uuid7 (f.step e a).shared.pauseState.held) :
    0 < heldTokens uuid7 e.pauseState.held ∨ f = .inProcess (.enter uuid7) := by
  rcases Frame.mem_held_step e a (List.count_pos_iff.mp h) with hheld | hhold
  · exact Or.inl (List.count_pos_iff.mpr hheld)
  · right
    cases f with
    | inProcess f => cases f <;> simp_all [Frame.hold]
    | broadcast f => cases f <;> simp [Frame.hold] at hhold
    | postProcess f => cases f <;> simp [Frame.hold] at hhold
    | _ => simp [Frame.hold] at hhold

end Effects

section Moves

variable {uuid7 : String} {welcome : String → Prop} {e : Engine} {a : Answer}

@[simp] theorem dispatched_putState (v : String) (state : Option PipelineState) :
    dispatched uuid7 (e.putState v state) = dispatched uuid7 e := rfl

@[simp] theorem config_putState (v : String) (state : Option PipelineState) :
    (e.putState v state).config = e.config := rfl

@[simp] theorem chainIndex_putState_self (state : Option PipelineState) :
    chainIndex uuid7 (e.putState uuid7 state) =
      state.map (·.currentInProcessIndex) := by
  simp [chainIndex, Engine.putState]

/-- The module at the message's place is sent the message next, or passed over when
it does not welcome it. -/
theorem InProcessFrame.inPlace_config
    {state : PipelineState} {g : Frame}
    (h : InPlace uuid7 welcome e (.inProcess (.config uuid7 state)))
    (hlisted : e.config.inProcessModules.Nodup)
    (hwelcome : ∀ m, welcome m → ∀ s : EnginePool, s.shared = e →
      Welcomes uuid7 m s a (.inProcess (.config uuid7 state)))
    (hg : g ∈ ((config uuid7 state).step e a).new) :
    InPlace uuid7 welcome ((config uuid7 state).step e a).shared g := by
  obtain ⟨hplace, hindex⟩ := h rfl
  cases hat : e.config.inProcessModules[state.currentInProcessIndex]? with
  | none =>
      simp only [step, hat, new_go, List.mem_singleton] at hg
      subst hg
      exact inPlace_of_chainTokens rfl
  | some m =>
      by_cases hrecipient : (commandRecipients state.parsedCommand
          e.commandRegistry e.config.inProcessModules).contains m
      · simp only [step, hat, hrecipient, if_true, new_go, shared_go,
          List.mem_singleton] at hg ⊢
        subst hg
        intro _
        refine ⟨hplace.fresh hlisted hat, fun n hn => ?_⟩
        rw [hindex n hn]
        exact ⟨hplace, hat⟩
      · -- a module that is no recipient does not welcome the message
        simp only [step, hat, hrecipient, if_false, new_go, shared_go,
          List.mem_singleton, Bool.false_eq_true] at hg ⊢
        subst hg
        intro n hn
        simp only [passedAt, chainTokens, if_true, Nat.zero_lt_one] at hn
        obtain ⟨k, hk, rfl⟩ := Option.map_eq_some_iff.mp hn
        rw [hindex k hk]
        refine hplace.skip hat fun hm => hrecipient ?_
        have hin := (hwelcome m hm ⟨e, []⟩ rfl rfl).2
        simpa using hin

/-- A send advances the message's place, and a failed one passes over a module that
does not welcome it. -/
theorem InProcessFrame.inPlace_send
    {state : PipelineState} {m : String} {timeout len : Nat} {g : Frame}
    (h : InPlace uuid7 welcome e (.inProcess (.send uuid7 state m timeout len)))
    (hwelcome : ∀ m', welcome m' → ∀ s : EnginePool, s.shared = e →
      Welcomes uuid7 m' s a (.inProcess (.send uuid7 state m timeout len)))
    (hg : g ∈ ((send uuid7 state m timeout len).step e a).new) :
    InPlace uuid7 welcome ((send uuid7 state m timeout len).step e a).shared g := by
  obtain ⟨hfresh, hplace⟩ := h rfl
  by_cases hsent : (a.permitted && decide (a.outcome = .sent)) = true
  · simp only [step, hsent, if_true, new_go, shared_go, List.mem_singleton] at hg ⊢
    subst hg
    intro n hn
    simp only [passedAt, chainTokens, if_true, Nat.zero_lt_one] at hn
    obtain ⟨k, hk, rfl⟩ := Option.map_eq_some_iff.mp hn
    obtain ⟨hp, hat⟩ := hplace k hk
    refine hp.send hat rfl ?_
    simp [dispatched, Engine.logged, Event.chainSent]
  · simp only [step, hsent, if_false, new_go, shared_go, List.mem_singleton,
      Bool.false_eq_true] at hg ⊢
    subst hg
    intro n hn
    simp only [passedAt, chainTokens, if_true, Nat.zero_lt_one] at hn
    obtain ⟨k, hk, rfl⟩ := Option.map_eq_some_iff.mp hn
    obtain ⟨hp, hat⟩ := hplace k hk
    refine hp.skip hat fun hm => hsent ?_
    obtain ⟨hpermitted, houtcome⟩ := hwelcome m hm ⟨e, []⟩ rfl rfl rfl
    simp [hpermitted, houtcome]

/-- The stage starter keeps the message's place from step to step. -/
theorem InProcessFrame.inPlace_new
    {f : InProcessFrame} {g : Frame}
    (h : InPlace uuid7 welcome e (.inProcess f))
    (hlisted : e.config.inProcessModules.Nodup)
    (hwelcome : ∀ m, welcome m → ∀ s : EnginePool, s.shared = e →
      Welcomes uuid7 m s a (.inProcess f))
    (hpos : 0 < chainTokens uuid7 (.inProcess f))
    (hg : g ∈ (f.step e a).new) :
    InPlace uuid7 welcome (f.step e a).shared g := by
  cases f with
  | enter v =>
      simp only [step] at hg ⊢
      split at hg
      · simp at hg
      · obtain rfl : g = _ := by simpa using hg
        simp_all only [shared_go]
        exact h
  | audit v =>
      simp only [step] at hg ⊢
      repeat' split at hg
      all_goals simp at hg
      obtain rfl := hg
      simp_all only [if_true, Bool.false_eq_true, if_false, shared_go]
      exact h
  | load v =>
      obtain rfl : v = uuid7 := by
        simpa [chainTokens, Nat.pos_iff_ne_zero] using hpos
      simp only [step] at hg ⊢
      cases hstate : e.pipelineStates v with
      | none => simp [hstate] at hg
      | some state =>
          simp only [hstate, new_go, List.mem_singleton] at hg
          subst hg
          intro _
          refine ⟨(h state.currentInProcessIndex ?_).congr rfl rfl, fun n hn => ?_⟩
          · simp [passedAt, chainIndex, hstate]
          · simpa [eq_comm] using hn
  | config v state =>
      obtain rfl : v = uuid7 := by
        simpa [chainTokens, Nat.pos_iff_ne_zero] using hpos
      exact inPlace_config h hlisted hwelcome hg
  | send v state m timeout len =>
      obtain rfl : v = uuid7 := by
        simpa [chainTokens, Nat.pos_iff_ne_zero] using hpos
      exact inPlace_send h hwelcome hg
  | track v m timeout => simp [step] at hg
  | skip v len =>
      obtain rfl : v = uuid7 := by
        simpa [chainTokens, Nat.pos_iff_ne_zero] using hpos
      cases hstate : e.pipelineStates v with
      | none => simp [step, hstate] at hg
      | some state =>
          simp only [step, hstate, new_go, shared_go] at hg ⊢
          split at hg
          · obtain rfl : g = _ := by simpa using hg
            exact inPlace_of_chainTokens rfl
          · obtain rfl : g = _ := by simpa using hg
            intro n hn
            obtain rfl : state.currentInProcessIndex + 1 = n := by
              simpa [passedAt] using hn
            refine (h _ ?_).congr rfl rfl
            simp [passedAt, chainTokens, chainIndex, hstate]

/-- The way out of a module's turn keeps the message's place. -/
theorem AdvanceFrame.inPlace_new
    {f : AdvanceFrame} {g : Frame}
    (h : InPlace uuid7 welcome e (.advance f))
    (hpos : 0 < chainTokens uuid7 (.advance f))
    (hg : g ∈ (f.step e a).new) :
    InPlace uuid7 welcome (f.step e a).shared g := by
  cases f with
  | noteIn v len =>
      obtain rfl : v = uuid7 := by
        simpa [chainTokens, Nat.pos_iff_ne_zero] using hpos
      simp only [step, new_go, List.mem_singleton] at hg
      subst hg
      have hindex := chainIndex_modifyState v e v
        (fun s => { s with inProcessCompletedAt := some e.now }) fun _ => rfl
      intro n hn
      rw [step, shared_go, hindex] at hn
      refine (h n ?_).congr rfl rfl
      simpa [passedAt, chainTokens] using hn
  | nextIndex v len =>
      obtain rfl : v = uuid7 := by
        simpa [chainTokens, Nat.pos_iff_ne_zero] using hpos
      cases hstate : e.pipelineStates v with
      | none => simp [step, hstate] at hg
      | some state =>
          simp only [step, hstate, new_go, shared_go] at hg ⊢
          split at hg
          · obtain rfl : g = _ := by simpa using hg
            exact inPlace_of_chainTokens rfl
          · obtain rfl : g = _ := by simpa using hg
            intro n hn
            obtain rfl : state.currentInProcessIndex + 1 = n := by
              simpa [passedAt] using hn
            refine (h _ ?_).congr rfl rfl
            simp [passedAt, chainTokens, chainIndex, hstate]
  | _ => simp [chainTokens] at hpos

/-- A sweep moves neither the index nor what was dispatched. -/
theorem SweepFrame.chain_unmoved
    (uuid7 : String) (e : Engine) (a : Answer) (f : SweepFrame) :
    dispatched uuid7 (f.step e a).shared = dispatched uuid7 e ∧
      chainIndex uuid7 (f.step e a).shared = chainIndex uuid7 e := by
  refine ⟨dispatched_step (f := .sweep f) rfl (by simp), ?_⟩
  have hstates := Frame.step_pipelineStates (f := .sweep f) (v := uuid7) e a
    (by simp [Frame.stateSubject])
  simp only [chainIndex]
  rw [← hstates]
  rfl

/-- A frame of the sweep stands where its drained entry was sent. -/
theorem passedAt_sweep
    {index : Option Nat} {f : SweepFrame}
    (hpos : 0 < chainTokens uuid7 (.sweep f)) :
    passedAt uuid7 index (.sweep f) = index.map (· + 1) := by
  simp [passedAt, hpos]

theorem SweepFrame.inPlace_new
    {f : SweepFrame} {g : Frame}
    (h : InPlace uuid7 welcome e (.sweep f))
    (hpos : 0 < chainTokens uuid7 (.sweep f))
    (hg : g ∈ (f.step e a).new) :
    InPlace uuid7 welcome (f.step e a).shared g := by
  obtain ⟨hsent, hindex⟩ := f.chain_unmoved uuid7 e a
  have hconfig : (f.step e a).shared.config = e.config :=
    Frame.step_config e a (.sweep f)
  by_cases hgpos : 0 < chainTokens uuid7 g
  · have hplace : ∀ n ∈ (chainIndex uuid7 e).map (· + 1),
        Place uuid7 welcome (f.step e a).shared n := by
      intro n hn
      refine (h n ?_).congr hsent (by rw [hconfig])
      rwa [passedAt_sweep hpos]
    have hgo {k : SweepFrame} (hk : g = .sweep k) :
        InPlace uuid7 welcome (f.step e a).shared g := by
      subst hk
      intro n hn
      rw [passedAt_sweep hgpos, hindex] at hn
      exact hplace n hn
    have hexpired {sw : Sweep} {entry : PendingAck} {still : Bool}
        (hexp : Expires sw entry still g) :
        InPlace uuid7 welcome (f.step e a).shared g := by
      rcases hexp.shape with ⟨sw', rfl, -⟩ | ⟨_, rfl⟩ | rfl | ⟨len, rfl⟩ | rfl
      · exact hgo rfl
      · cases hgpos
      · cases hgpos
      · intro n hn
        simp only [passedAt, hgpos, if_true, hindex] at hn
        exact hplace n hn
      · cases hgpos
    have hleads : Leads e a (.sweep f) g := Frame.leads (f := .sweep f) hg
    cases hleads with
    | sweep_expire _ _ hexp => exact hexpired hexp
    | sweep_gone _ hexp => exact hexpired hexp
    | sweep_unsent _ hexp => exact hexpired hexp
    | _ => exact hgo rfl
  · exact inPlace_of_chainTokens (Nat.eq_zero_of_not_pos hgpos)

/-- The replay keeps the places of the messages it holds. -/
theorem ResumeFrame.inPlace_new
    {f : ResumeFrame} {g : Frame}
    (h : InPlace uuid7 welcome e (.resume f))
    (hpos : 0 < chainTokens uuid7 (.resume f))
    (hg : g ∈ (f.step e).new) :
    InPlace uuid7 welcome (f.step e).shared g := by
  by_cases hgpos : 0 < chainTokens uuid7 g
  · cases f with
    | restartClocks => cases hpos
    | spawnReplay held =>
        cases held with
        | nil => cases hpos
        | cons x held =>
            obtain rfl : g = .resume (.replayNext (x :: held)) := by
              simpa [step, Outcome.new] using hg
            exact h
    | replayNext held =>
        cases held with
        | nil => cases hpos
        | cons x held =>
            obtain ⟨v, point⟩ := x
            have hplace : ∀ n ∈ chainIndex uuid7 e, Place uuid7 welcome e n := by
              intro n hn
              refine h n ?_
              exact (if_pos hpos).trans hn
            simp only [step, new_go, List.mem_cons, List.not_mem_nil,
              or_false] at hg
            rcases hg with rfl | rfl
            · cases point with
              | inProcess =>
                  intro n hn
                  have hv : v = uuid7 := by
                    simpa [replayHold, chainTokens, Nat.pos_iff_ne_zero] using hgpos
                  exact hplace n ((if_pos hv).symm.trans hn)
              | _ => cases hgpos
            · intro n hn
              exact hplace n ((if_pos hgpos).symm.trans hn)
  · exact inPlace_of_chainTokens (Nat.eq_zero_of_not_pos hgpos)

end Moves

section Invariant

variable {uuid7 : String} {welcome : String → Prop}
variable {s : EnginePool} {i : Nat} {a : Answer} {f : Frame} {rest : List Frame}

/-- A token that comes from no frame of the chain: it was drained, answered,
taken out of the held queue, or the message has just left pre-process. -/
inductive FirstToken (uuid7 : String) (e : Engine) : Frame → Frame → Prop
  | drained {cfg sw} :
      0 < pendingTokens uuid7 e.ackTracker →
      FirstToken uuid7 e (.sweep (.drain cfg)) (.sweep (.next sw))
  | answered {m len} :
      0 < pendingTokens uuid7 e.ackTracker →
      FirstToken uuid7 e (.reply (.ackModule uuid7 m len))
        (.advance (.noteIn uuid7 len))
  | taken {told} :
      0 < heldTokens uuid7 e.pauseState.held →
      FirstToken uuid7 e (.gate (.resume told))
        (.resume (.spawnReplay e.pauseState.held))
  | nobody {fo} :
      fo.uuid7 = uuid7 →
      fo.stage = .preProcess →
      fo.sentAny = false →
      FirstToken uuid7 e (.fanout (.send fo [])) (.inProcess (.enter uuid7))
  | left :
      FirstToken uuid7 e (.advance (.notePre uuid7)) (.inProcess (.enter uuid7))

theorem Expires.chainTokens_le
    (uuid7 : String) {sw : Sweep} {entry : PendingAck} {still : Bool} {g : Frame}
    (h : Expires sw entry still g) :
    chainTokens uuid7 g ≤ drainedTokens uuid7 ((entry, still) :: sw.todo) := by
  rw [drainedTokens_cons]
  cases h with
  | fail _ _ => exact Nat.zero_le _
  | advance _ _ =>
      cases hst : entry.stage <;>
        simp [SweepFrame.advanceFrame, chainTokens, PendingAck.isOf, hst]
  | _ => simp

/-- Where the tokens of the chain come from. -/
theorem firstToken_of_new
    {e : Engine} {g : Frame}
    (hfan : fansOut uuid7 .inProcess f = 0)
    (hzero : chainTokens uuid7 f = 0)
    (hg : g ∈ (f.step e a).new)
    (hpos : 0 < chainTokens uuid7 g) :
    FirstToken uuid7 e f g := by
  have hexpired {sw : Sweep} {entry : PendingAck} {still : Bool}
      (hexp : Expires sw entry still g)
      (hf : drainedTokens uuid7 ((entry, still) :: sw.todo) = 0) : False := by
    have hle := hexp.chainTokens_le uuid7
    omega
  cases Frame.leads hg with
  | @fanout_nobody fo hsent =>
      cases hst : fo.stage with
      | preProcess =>
          have hu : fo.uuid7 = uuid7 := by
            simpa [FanoutFrame.nobody, hst, chainTokens, Nat.pos_iff_ne_zero]
              using hpos
          rw [hu]
          exact .nobody hu hst hsent
      | inProcess =>
          have hu : fo.uuid7 ≠ uuid7 := by simpa [hst] using hfan
          simp [FanoutFrame.nobody, hst, chainTokens, hu] at hpos
      | postProcess => simp [FanoutFrame.nobody, hst] at hpos
  | @notePre v =>
      have hv : v = uuid7 := by
        simpa [chainTokens, Nat.pos_iff_ne_zero] using hpos
      subst hv
      exact .left
  | @ack_in v m len elapsed still tracker hack =>
      have hv : v = uuid7 := by
        simpa [chainTokens, Nat.pos_iff_ne_zero] using hpos
      subst hv
      have hle := pendingTokens_ackModule v e.ackTracker e.now v m
      simp only [hack, Option.map_some, and_self, if_true] at hle
      exact .answered (by omega)
  | @sweep_first cfg todo htodo =>
      have hdrain := drainedTokens_drained uuid7 a e.ackTracker e.now
      rw [← htodo] at hdrain
      simp only [chainTokens_next] at hpos
      exact .drained (by omega)
  | sweep_expire htodo _ hexp =>
      exact (hexpired hexp (by rw [← htodo]; exact hzero)).elim
  | sweep_gone _ hexp => exact (hexpired hexp hzero).elim
  | sweep_unsent _ hexp => exact (hexpired hexp hzero).elim
  | sweep_resendLoad htodo _ =>
      rw [chainTokens_next, htodo] at hzero
      exact absurd hzero (Nat.ne_of_gt hpos)
  | @sweep_resent sw entry =>
      simp only [chainTokens, drainedTokens_cons] at hzero hpos
      omega
  | resume_spawnReplay => exact .taken hpos
  | @replay_hold v point held =>
      cases point with
      | inProcess =>
          simp only [chainTokens, heldTokens, List.count_cons] at hzero
          by_cases hv : v = uuid7
          · simp [hv] at hzero
          · simp [replayHold, chainTokens, hv] at hpos
      | _ => cases hpos
  | @replay_next v point held =>
      simp only [chainTokens, heldTokens, List.count_cons] at hzero hpos
      omega
  | _ =>
      first
        | exact absurd hzero (Nat.ne_of_gt hpos)
        | cases hpos

/-- The tokens of the chain after a step. -/
theorem chain_run
    (hfan : fansOut uuid7 .inProcess f = 0)
    (hi : s.threads[i]? = some (f :: rest)) :
    chain uuid7 (afterRun s i a f rest) + timesLeft uuid7 .preProcess s.shared ≤
      chain uuid7 s +
        timesLeft uuid7 .preProcess (afterRun s i a f rest).shared := by
  have htotal := total_fire_run_le (P := engine) (chainTokens uuid7)
    (o := f.step s.shared a) hi
  have hbudget := chain_budget (e := s.shared) (a := a) f hfan
  simp only [Budgeted] at hbudget
  simp only [chain, afterRun]
  omega

theorem InOrder.fansOut_eq
    (h : InOrder uuid7 welcome s)
    {g : Frame} (hg : g ∈ s.frames) :
    fansOut uuid7 .inProcess g = 0 := by
  have hle := le_total (fansOut uuid7 .inProcess) hg
  have hapart := h.apart
  omega

/-- Before the message has left pre-process, the chain has no token. -/
theorem InOrder.no_token
    (h : InOrder uuid7 welcome s)
    (hleft : timesLeft uuid7 .preProcess s.shared = 0) :
    chain uuid7 s = 0 := by
  have htokens := h.tokens
  omega

/-- The chain has one token at most. -/
theorem InOrder.one_token
    (h : InOrder uuid7 welcome s) :
    chain uuid7 s ≤ 1 := by
  have honce := h.guarded.once
  have htokens := h.tokens
  simp only [departures] at honce
  omega

/-- A step that carries no token leaves what was dispatched alone. -/
theorem InOrder.dispatched_idle
    (h : InOrder uuid7 welcome s)
    (hf : f ∈ s.frames)
    (hzero : chainTokens uuid7 f = 0) :
    dispatched uuid7 (f.step s.shared a).shared = dispatched uuid7 s.shared := by
  refine dispatched_step (h.fansOut_eq hf) ?_
  rintro state m timeout len rfl
  simp [chainTokens] at hzero

/-- A step that carries no token leaves the index alone, takes the state away,
or installs it while the chain has no token. -/
theorem InOrder.index_idle
    (h : InOrder uuid7 welcome s)
    (hkeeps : KeepsIndex uuid7 s f)
    (hzero : chainTokens uuid7 f = 0) :
    (chainIndex uuid7 (f.step s.shared a).shared = chainIndex uuid7 s.shared ∨
      chainIndex uuid7 (f.step s.shared a).shared = none) ∨
    (f.installs = some uuid7 ∧ chain uuid7 s = 0 ∧
      timesLeft uuid7 .preProcess s.shared = 0) := by
  by_cases hinstall : f.installs = some uuid7
  · have hleft : timesLeft uuid7 .preProcess s.shared = 0 := by
      cases f with
      | ingest f =>
          cases f <;>
            simp only [Frame.installs, Option.some.injEq, reduceCtorEq] at hinstall
          exact hkeeps hinstall
      | recovery f =>
          cases f <;>
            simp only [Frame.installs, Option.some.injEq, reduceCtorEq] at hinstall
          exact hkeeps hinstall
      | _ => simp [Frame.installs] at hinstall
    exact Or.inr ⟨hinstall, h.no_token hleft, hleft⟩
  · refine Or.inl (chainIndex_step ?_ hinstall)
    intro hmove
    cases f with
    | inProcess f => cases f <;> simp_all [movesIndex, chainTokens]
    | advance f => cases f <;> simp_all [movesIndex, chainTokens]
    | _ => exact hmove

/-- A step that installs a state makes no token and no departure. -/
theorem chain_installs
    (hinstall : f.installs = some uuid7)
    (hfan : fansOut uuid7 .inProcess f = 0)
    (hi : s.threads[i]? = some (f :: rest)) :
    chain uuid7 (afterRun s i a f rest) ≤ chain uuid7 s := by
  have hchain := chain_run (a := a) hfan hi
  have hleft : timesLeft uuid7 .preProcess (f.step s.shared a).shared =
      timesLeft uuid7 .preProcess s.shared := by
    have hquiet : f.touchesLog = false := by
      cases f with
      | ingest f => rfl
      | recovery f => rfl
      | _ => simp [Frame.installs] at hinstall
    simp only [timesLeft]
    rw [Frame.step_log _ _ hquiet]
  simp only [afterRun] at hchain ⊢
  omega

/-- The tasks keep their places in a step that carries no token. -/
theorem InOrder.tasks_idle
    (h : InOrder uuid7 welcome s)
    (hkeeps : KeepsIndex uuid7 s f)
    (honce : timesLeft uuid7 .preProcess (f.step s.shared a).shared ≤ 1)
    (hi : s.threads[i]? = some (f :: rest))
    (hzero : chainTokens uuid7 f = 0) :
    ∀ g ∈ (afterRun s i a f rest).frames,
      InPlace uuid7 welcome (afterRun s i a f rest).shared g := by
  have hf := mem_frames_of_getElem? hi (List.mem_cons_self ..)
  have hfan := h.fansOut_eq hf
  have hsent := h.dispatched_idle (a := a) hf hzero
  have hconfig := Frame.step_config s.shared a f
  intro g hg
  rcases h.index_idle (a := a) hkeeps hzero with hindex | ⟨hinstall, hnone, -⟩
  · have hmem {n : Nat}
        (hn : n ∈ chainIndex uuid7 (f.step s.shared a).shared) :
        n ∈ chainIndex uuid7 s.shared := by
      rcases hindex with heq | hgone
      · rwa [← heq]
      · simp [hgone] at hn
    have hplace {n : Nat} (hp : Place uuid7 welcome s.shared n) :
        Place uuid7 welcome (f.step s.shared a).shared n :=
      hp.congr hsent (by rw [hconfig])
    rcases mem_frames_after_run hi hg with hg | hg
    · by_cases hpos : 0 < chainTokens uuid7 g
      · -- the step has just given the message a token
        cases firstToken_of_new hfan hzero hg hpos with
        | drained hp =>
            intro n hn
            simp only [passedAt, hpos, if_true] at hn
            obtain ⟨k, hk, rfl⟩ := Option.map_eq_some_iff.mp hn
            exact hplace (h.pending hp k (hmem hk))
        | answered hp =>
            intro n hn
            simp only [passedAt, hpos, if_true] at hn
            obtain ⟨k, hk, rfl⟩ := Option.map_eq_some_iff.mp hn
            exact hplace (h.pending hp k (hmem hk))
        | taken hp =>
            intro n hn
            simp only [passedAt, hp, if_true] at hn
            exact hplace (h.held hp n (hmem hn))
        | @nobody fo hu hst hsentAny =>
            have hleft : timesLeft uuid7 .preProcess s.shared = 0 := by
              simp [Frame.step, FanoutFrame.step, hsentAny, hu, hst] at honce
              omega
            obtain ⟨hempty, hfirst⟩ := h.unborn hleft
            intro n hn
            simp only [passedAt, if_true] at hn
            rw [hfirst n (hmem hn)]
            exact Place.zero (hsent.trans hempty)
        | left =>
            have hleft : timesLeft uuid7 .preProcess s.shared = 0 := by
              simp [Frame.step, AdvanceFrame.step] at honce
              simpa [timesLeft, Engine.modifyState, Engine.putState] using honce
            obtain ⟨hempty, hfirst⟩ := h.unborn hleft
            intro n hn
            simp only [passedAt, if_true] at hn
            rw [hfirst n (hmem hn)]
            exact Place.zero (hsent.trans hempty)
      · exact inPlace_of_chainTokens (Nat.eq_zero_of_not_pos hpos)
    · exact (h.tasks g hg).congr hsent hconfig hindex
  · -- nothing of the chain is under way
    have hle := chain_installs (a := a) hinstall hfan hi
    have htoken := le_total (chainTokens uuid7) hg
    simp only [chain] at hle hnone
    exact inPlace_of_chainTokens (by omega)

/-- When a frame of the chain runs, nothing else carries a token. -/
theorem InOrder.alone
    (h : InOrder uuid7 welcome s)
    (hf : f ∈ s.frames)
    (hpos : 0 < chainTokens uuid7 f) :
    pendingTokens uuid7 s.shared.ackTracker = 0 ∧
      heldTokens uuid7 s.shared.pauseState.held = 0 := by
  have hone := h.one_token
  have hself := le_total (chainTokens uuid7) hf
  simp only [chain] at hone
  omega

/-- The tasks keep their places when the token moves. -/
theorem InOrder.tasks_busy
    (h : InOrder uuid7 welcome s)
    (hwelcome : ∀ m, welcome m → Welcomes uuid7 m s a f)
    (hi : s.threads[i]? = some (f :: rest))
    (hpos : 0 < chainTokens uuid7 f) :
    ∀ g ∈ (afterRun s i a f rest).frames,
      InPlace uuid7 welcome (afterRun s i a f rest).shared g := by
  have hf := mem_frames_of_getElem? hi (List.mem_cons_self ..)
  have hplace := h.tasks f hf
  intro g hg
  rcases weight_after_run (chainTokens uuid7) hi hg with hg | ⟨-, hweight⟩
  · cases f with
    | inProcess f =>
        refine InProcessFrame.inPlace_new hplace h.listed ?_ hpos hg
        intro m hm s' hs'
        have hw := hwelcome m hm
        cases f with
        | config v state => simpa only [Welcomes, hs'] using hw
        | send v state moduleName ms len => simpa only [Welcomes, hs'] using hw
        | skip v len => simpa only [Welcomes, hs'] using hw
        | _ => trivial
    | advance f => exact AdvanceFrame.inPlace_new hplace hpos hg
    | sweep f => exact SweepFrame.inPlace_new hplace hpos hg
    | resume f => exact ResumeFrame.inPlace_new hplace hpos hg
    | _ => cases hpos
  · have hone := h.one_token
    simp only [chain] at hone
    exact inPlace_of_chainTokens (by omega)

/-- A message that comes out of the chain has been through it. -/
theorem InOrder.reached_of_new
    (h : InOrder uuid7 welcome s)
    (hkeeps : KeepsIndex uuid7 s f)
    (hwelcome : ∀ m, welcome m → Welcomes uuid7 m s a f)
    (hf : f ∈ s.frames)
    {g : Frame}
    (hg : g ∈ (f.step s.shared a).new)
    (hbeyond : Beyond uuid7 g) :
    Reached uuid7 welcome s.shared := by
  have hplace := h.tasks f hf
  have hexpired {sw : Sweep} {entry : PendingAck} {still : Bool}
      (hexp : Expires sw entry still g) : False := by
    rcases hexp.shape with ⟨_, rfl, -⟩ | ⟨_, rfl⟩ | rfl | ⟨_, rfl⟩ | rfl <;>
      exact hbeyond
  cases Frame.leads hg with
  | inProcess_end hnone =>
      refine (hplace hbeyond).1.all (List.getElem?_eq_none_iff.mp hnone) ?_
      exact fun m hm => (hwelcome m hm hbeyond).1
  | @inProcess_last v len =>
      obtain rfl : v = uuid7 := hbeyond
      cases hstate : s.shared.pipelineStates v with
      | none => simp [Frame.step, InProcessFrame.step, hstate] at hg
      | some state =>
          have hindex : chainIndex v s.shared =
              some state.currentInProcessIndex := by
            simp [chainIndex, hstate]
          simp only [Frame.step, InProcessFrame.step, hstate, new_go] at hg
          split at hg
          · rename_i hlen
            have hat := hplace (state.currentInProcessIndex + 1)
              (by simp [passedAt, chainTokens, hindex])
            exact hat.all (hkeeps rfl _ hindex hlen) fun m hm => hwelcome m hm rfl
          · simp at hg
  | @nextIndex_refresh v len =>
      obtain rfl : v = uuid7 := hbeyond
      cases hstate : s.shared.pipelineStates v with
      | none => simp [Frame.step, AdvanceFrame.step, hstate] at hg
      | some state =>
          have hindex : chainIndex v s.shared =
              some state.currentInProcessIndex := by
            simp [chainIndex, hstate]
          simp only [Frame.step, AdvanceFrame.step, hstate, new_go] at hg
          split at hg
          · rename_i hlen
            have hat := hplace (state.currentInProcessIndex + 1)
              (by simp [passedAt, chainTokens, hindex])
            exact hat.all (hkeeps rfl _ hindex hlen) fun m hm => hwelcome m hm rfl
          · simp at hg
  | refresh_store => exact h.beyond _ hf hbeyond
  | refresh_postProcess => exact h.beyond _ hf hbeyond
  | store_postProcess => exact h.beyond _ hf hbeyond
  | resume_spawnReplay => exact h.heldBeyond hbeyond
  | replay_spawn => exact h.beyond _ hf hbeyond
  | replay_next => exact h.beyond _ hf (List.mem_cons_of_mem _ hbeyond)
  | @replay_hold v point held =>
      cases point with
      | postProcess =>
          obtain rfl : v = uuid7 := hbeyond
          exact h.beyond _ hf (List.mem_cons_self ..)
      | _ => exact hbeyond.elim
  | @fanout_nobody fo _ =>
      cases hst : fo.stage <;> rw [hst] at hbeyond <;> exact hbeyond.elim
  | sweep_expire _ _ hexp => exact (hexpired hexp).elim
  | sweep_gone _ hexp => exact (hexpired hexp).elim
  | sweep_unsent _ hexp => exact (hexpired hexp).elim
  | _ => exact hbeyond.elim

/-- The frame that tracks an ack stands behind the module it was sent to. -/
theorem passedAt_of_tracks
    {now : Nat} {y : PendingAck} (index : Option Nat)
    (htracks : f.tracks now = some y)
    (hpos : 0 < chainTokens uuid7 f) :
    passedAt uuid7 index f = index.map (· + 1) := by
  cases f with
  | inProcess f =>
      cases f <;> simp only [Frame.tracks, reduceCtorEq] at htracks
      exact if_pos hpos
  | sweep f => exact if_pos hpos
  | fanout f => exact if_pos hpos
  | _ => simp [Frame.tracks] at htracks

/-- A step that tracks an ack or holds a dispatch leaves the index alone. -/
theorem chainIndex_of_subject
    (hsub : f.stateSubject ≠ some uuid7) :
    chainIndex uuid7 (f.step s.shared a).shared = chainIndex uuid7 s.shared := by
  simp only [chainIndex]
  rw [Frame.step_pipelineStates _ a hsub]

theorem stateSubject_of_tracks
    {now : Nat} {y : PendingAck}
    (htracks : f.tracks now = some y) :
    f.stateSubject = none := by
  cases f with
  | inProcess f => cases f <;> simp_all [Frame.tracks, Frame.stateSubject]
  | sweep f => rfl
  | fanout f => rfl
  | _ => simp [Frame.tracks] at htracks

theorem InOrder.pending_run
    (h : InOrder uuid7 welcome s)
    (hkeeps : KeepsIndex uuid7 s f)
    (hf : f ∈ s.frames)
    (hpos : 0 < pendingTokens uuid7 (f.step s.shared a).shared.ackTracker) :
    ∀ n ∈ chainIndex uuid7 (f.step s.shared a).shared,
      Place uuid7 welcome (f.step s.shared a).shared (n + 1) := by
  have hconfig := Frame.step_config s.shared a f
  rcases pending_of_step (h.fansOut_eq hf) hpos with hbefore | ⟨htoken, y, htracks⟩
  · have hzero : chainTokens uuid7 f = 0 := by
      by_contra hne
      have halone := h.alone hf (Nat.pos_of_ne_zero hne)
      omega
    have hsent := h.dispatched_idle (a := a) hf hzero
    intro n hn
    rcases h.index_idle (a := a) hkeeps hzero with (heq | hgone) | ⟨-, hnone, -⟩
    · rw [heq] at hn
      exact (h.pending hbefore n hn).congr hsent (by rw [hconfig])
    · simp [hgone] at hn
    · simp only [chain] at hnone
      omega
  · -- the ack of the module that the message has just been sent to
    intro n hn
    rw [chainIndex_of_subject (by rw [stateSubject_of_tracks htracks]; simp)] at hn
    have hsent : dispatched uuid7 (f.step s.shared a).shared =
        dispatched uuid7 s.shared := by
      refine dispatched_step (h.fansOut_eq hf) ?_
      rintro state m timeout len rfl
      simp [Frame.tracks] at htracks
    have hpassed := passedAt_of_tracks (chainIndex uuid7 s.shared) htracks
      htoken
    have hplace : ∀ k ∈ passedAt uuid7 (chainIndex uuid7 s.shared) f,
        Place uuid7 welcome s.shared k := by
      have htask := h.tasks f hf
      cases f with
      | inProcess f =>
          cases f <;> simp only [Frame.tracks, reduceCtorEq] at htracks
          exact htask
      | _ => exact htask
    refine (hplace (n + 1) ?_).congr hsent (by rw [hconfig])
    rw [hpassed]
    exact Option.mem_map_of_mem _ hn

theorem InOrder.held_run
    (h : InOrder uuid7 welcome s)
    (hkeeps : KeepsIndex uuid7 s f)
    (hf : f ∈ s.frames)
    (hpos : 0 < heldTokens uuid7 (f.step s.shared a).shared.pauseState.held) :
    ∀ n ∈ chainIndex uuid7 (f.step s.shared a).shared,
      Place uuid7 welcome (f.step s.shared a).shared n := by
  have hconfig := Frame.step_config s.shared a f
  rcases held_of_step hpos with hbefore | rfl
  · have hzero : chainTokens uuid7 f = 0 := by
      by_contra hne
      have halone := h.alone hf (Nat.pos_of_ne_zero hne)
      omega
    have hsent := h.dispatched_idle (a := a) hf hzero
    intro n hn
    rcases h.index_idle (a := a) hkeeps hzero with (heq | hgone) | ⟨-, hnone, -⟩
    · rw [heq] at hn
      exact (h.held hbefore n hn).congr hsent (by rw [hconfig])
    · simp [hgone] at hn
    · simp only [chain] at hnone
      omega
  · intro n hn
    rw [chainIndex_of_subject (by simp [Frame.stateSubject])] at hn
    refine (h.tasks _ hf n (by simpa [passedAt] using hn)).congr ?_
      (by rw [hconfig])
    exact dispatched_step rfl (by simp)

/-- Before the message has left pre-process, it is at the head of the chain. -/
theorem InOrder.unborn_run
    (h : InOrder uuid7 welcome s)
    (hkeeps : KeepsIndex uuid7 s f)
    (hf : f ∈ s.frames)
    (hleft : timesLeft uuid7 .preProcess (f.step s.shared a).shared = 0) :
    dispatched uuid7 (f.step s.shared a).shared = [] ∧
      ∀ n ∈ chainIndex uuid7 (f.step s.shared a).shared, n = 0 := by
  have hbefore : timesLeft uuid7 .preProcess s.shared = 0 := by
    have hmono := timesLeft_mono uuid7 s.shared a f
    omega
  have hzero : chainTokens uuid7 f = 0 := by
    have hnone := h.no_token hbefore
    have hself := le_total (chainTokens uuid7) hf
    simp only [chain] at hnone
    omega
  obtain ⟨hempty, hfirst⟩ := h.unborn hbefore
  refine ⟨(h.dispatched_idle hf hzero).trans hempty, fun n hn => ?_⟩
  rcases h.index_idle (a := a) hkeeps hzero with (heq | hgone) | ⟨hinstall, -, -⟩
  · exact hfirst n (heq ▸ hn)
  · simp [hgone] at hn
  · rw [chainIndex_installs hinstall] at hn
    exact (Option.some.inj hn).symm

/-- Only a module that was not dispatched the message is sent it. -/
theorem InOrder.once_run
    (h : InOrder uuid7 welcome s)
    (hf : f ∈ s.frames) :
    (dispatched uuid7 (f.step s.shared a).shared).Nodup := by
  by_cases hsend : ∃ state m timeout len,
      f = .inProcess (.send uuid7 state m timeout len)
  · obtain ⟨state, m, timeout, len, rfl⟩ := hsend
    have hfresh := (h.tasks _ hf rfl).1
    simp only [Frame.step, InProcessFrame.step]
    split
    · have hcons : dispatched uuid7 (s.shared.logged
          (.sent uuid7 .inProcess m (state.inProcessContainer uuid7))) =
          m :: dispatched uuid7 s.shared := by
        simp [dispatched, Engine.logged, Event.chainSent]
      rw [shared_go, hcons]
      exact List.nodup_cons.mpr ⟨hfresh, h.once⟩
    · exact h.once
  · push Not at hsend
    rw [dispatched_step (h.fansOut_eq hf) hsend]
    exact h.once

theorem InOrder.run
    (h : InOrder uuid7 welcome s)
    (hguarded : Guarded uuid7 .preProcess (afterRun s i a f rest))
    (hkeeps : KeepsIndex uuid7 s f)
    (hwelcome : ∀ m, welcome m → Welcomes uuid7 m s a f)
    (hi : s.threads[i]? = some (f :: rest)) :
    InOrder uuid7 welcome (afterRun s i a f rest) := by
  have hf := mem_frames_of_getElem? hi (List.mem_cons_self ..)
  have honce := hguarded.once
  simp only [departures, afterRun] at honce
  have hmono {m : String} (hm : m ∈ dispatched uuid7 s.shared) :
      m ∈ dispatched uuid7 (f.step s.shared a).shared :=
    dispatched_mono f hm
  refine ⟨hguarded, ?_, ?_, ?_, h.once_run hf, h.unborn_run hkeeps hf, ?_,
    h.pending_run hkeeps hf, h.held_run hkeeps hf, fun g hg hbeyond => ?_,
    fun hheld => ?_⟩
  · have htotal := total_fire_run_le (P := engine) (fansOut uuid7 .inProcess)
      (o := f.step s.shared a) hi
    have hnew : ((f.step s.shared a).new.map (fansOut uuid7 .inProcess)).sum ≤
        fansOut uuid7 .inProcess f := by
      refine fansOut_new ?_
      cases f with
      | broadcast f => cases f <;> simp [StartsFanout]
      | postProcess f => cases f <;> simp [StartsFanout]
      | _ => exact id
    have hapart := h.apart
    simp only [afterRun]
    omega
  · have hchain := chain_run (a := a) (h.fansOut_eq hf) hi
    have htokens := h.tokens
    omega
  · simpa only [afterRun, Frame.step_config] using h.listed
  · by_cases hpos : 0 < chainTokens uuid7 f
    · exact h.tasks_busy hwelcome hi hpos
    · exact h.tasks_idle hkeeps (by omega) hi (Nat.eq_zero_of_not_pos hpos)
  · rcases mem_frames_after_run hi hg with hg | hg
    · exact fun m hm => hmono (h.reached_of_new hkeeps hwelcome hf hg hbeyond m hm)
    · exact fun m hm => hmono (h.beyond g hg hbeyond m hm)
  · rcases Frame.mem_held_step s.shared a hheld with hheld | hhold
    · exact fun m hm => hmono (h.heldBeyond hheld m hm)
    · have hbeyond : Beyond uuid7 f := by
        cases f with
        | postProcess f => cases f <;> simp_all [Frame.hold, Beyond]
        | broadcast f => cases f <;> simp [Frame.hold] at hhold
        | inProcess f => cases f <;> simp [Frame.hold] at hhold
        | _ => simp [Frame.hold] at hhold
      exact fun m hm => hmono (h.beyond f hf hbeyond m hm)

/-- A frame keeps its place in a list that agrees on what it has passed. -/
theorem InPlace.relist
    {e e' : Engine} {g : Frame}
    (h : InPlace uuid7 welcome e g)
    (hsent : dispatched uuid7 e' = dispatched uuid7 e)
    (hindex : chainIndex uuid7 e' = chainIndex uuid7 e)
    (hagree : ∀ n ∈ passedAt uuid7 (chainIndex uuid7 e) g,
      e'.config.inProcessModules.take n = e.config.inProcessModules.take n) :
    InPlace uuid7 welcome e' g := by
  have hplain
      (hg : ∀ n ∈ passedAt uuid7 (chainIndex uuid7 e) g, Place uuid7 welcome e n) :
      ∀ n ∈ passedAt uuid7 (chainIndex uuid7 e') g, Place uuid7 welcome e' n := by
    intro n hn
    rw [hindex] at hn
    exact (hg n hn).congr hsent (hagree n hn)
  cases g with
  | inProcess g =>
      cases g with
      | config v state =>
          intro hv
          obtain ⟨hplace, hat⟩ := h hv
          refine ⟨hplace.congr hsent (hagree _ (if_pos hv)), ?_⟩
          rwa [hindex]
      | send v state m timeout len =>
          intro hv
          obtain ⟨hfresh, hplace⟩ := h hv
          rw [hsent, hindex]
          refine ⟨hfresh, fun n hn => ?_⟩
          obtain ⟨hp, hat⟩ := hplace n hn
          have htake := hagree (n + 1)
            (by simp [passedAt, chainTokens, hv, Option.mem_def.mp hn])
          refine ⟨hp.congr hsent ?_, ?_⟩
          · have hcut := congrArg (List.take n) htake
            simpa [List.take_take] using hcut
          · have hget := congrArg (fun l => l[n]?) htake
            simpa [List.getElem?_take, hat] using hget
      | _ => exact hplain h
  | _ => exact hplain h

theorem InOrder.world
    {ev : WorldEvent}
    (h : InOrder uuid7 welcome s)
    (hguarded : Guarded uuid7 .preProcess
      { shared := ev.effect s.shared, threads := s.threads ++ ev.starts })
    (hkeeps : KeepsChain uuid7 s (.world ev)) :
    InOrder uuid7 welcome
      { shared := ev.effect s.shared, threads := s.threads ++ ev.starts } := by
  have hlog : (ev.effect s.shared).log = s.shared.log := by cases ev <;> rfl
  have hacks : (ev.effect s.shared).ackTracker = s.shared.ackTracker := by
    cases ev <;> rfl
  have hpause : (ev.effect s.shared).pauseState = s.shared.pauseState := by
    cases ev <;> rfl
  have hstates : (ev.effect s.shared).pipelineStates = s.shared.pipelineStates := by
    cases ev <;> rfl
  have hsent : dispatched uuid7 (ev.effect s.shared) = dispatched uuid7 s.shared := by
    simp only [dispatched, hlog]
  have hindex : chainIndex uuid7 (ev.effect s.shared) =
      chainIndex uuid7 s.shared := by
    simp only [chainIndex, hstates]
  have hleft : timesLeft uuid7 .preProcess (ev.effect s.shared) =
      timesLeft uuid7 .preProcess s.shared := by
    simp only [timesLeft, hlog]
  have htotal (w : Frame → Nat) (hw : ∀ g, Opens ev g → w g = 0) :
      Pool.total w
          { shared := ev.effect s.shared, threads := s.threads ++ ev.starts } =
        s.total w := by
    have hsum : (ev.starts.flatten.map w).sum = 0 := by
      refine List.sum_eq_zero fun n hn => ?_
      obtain ⟨g, hg, rfl⟩ := List.mem_map.mp hn
      exact hw g (opens_of_mem hg)
    rw [total_fire_world (r := (ev.effect s.shared, ev.starts)), hsum, Nat.add_zero]
  have hagree :
      (ev.effect s.shared).config.inProcessModules.Nodup ∧
        AgreesOnPassed uuid7 s (ev.effect s.shared).config.inProcessModules := by
    have hself : s.shared.config.inProcessModules.Nodup ∧
        AgreesOnPassed uuid7 s s.shared.config.inProcessModules :=
      ⟨h.listed, fun _ _ _ _ => rfl, fun _ _ _ => rfl, fun _ _ _ => rfl⟩
    cases ev with
    | setConfig cfg => exact hkeeps
    | _ => exact hself
  obtain ⟨hlisted, htasks, hpending, hheld⟩ := hagree
  refine ⟨hguarded, ?_, ?_, hlisted, ?_, ?_, fun g hg => ?_, ?_, ?_,
    fun g hg hbeyond => ?_, ?_⟩
  · exact (htotal _ (by rintro _ ⟨⟩ <;> rfl)).trans h.apart
  · simp only [chain, hacks, hpause, hleft]
    rw [htotal _ (by rintro _ ⟨⟩ <;> rfl)]
    exact h.tokens
  · simpa only [hsent] using h.once
  · simpa only [hsent, hindex, hleft] using h.unborn
  · rcases mem_frames_after_world (r := (ev.effect s.shared, ev.starts)) hg with
      hg | hg
    · exact (h.tasks g hg).relist hsent hindex (htasks g hg)
    · refine inPlace_of_chainTokens ?_
      cases opens_of_mem hg <;> rfl
  · simp only [hacks, hindex]
    exact fun hp n hn => (h.pending hp n hn).congr hsent (hpending hp n hn)
  · simp only [hpause, hindex]
    exact fun hp n hn => (h.held hp n hn).congr hsent (hheld hp n hn)
  · simp only [Reached, hsent]
    rcases mem_frames_after_world (r := (ev.effect s.shared, ev.starts)) hg with
      hg | hg
    · exact h.beyond g hg hbeyond
    · cases opens_of_mem hg <;> exact hbeyond.elim
  · simp only [Reached, hsent, hpause]
    exact h.heldBeyond

theorem InOrder.fire
    {s' : EnginePool} {l : EngineLabel}
    (h : InOrder uuid7 welcome s)
    (hkeeps : KeepsChain uuid7 s l)
    (hwelcome : ∀ m, welcome m → OnRun (Welcomes uuid7 m) s l)
    (hfire : engine.fire s l = some s') :
    InOrder uuid7 welcome s' := by
  have hclean : OnRun (LeavesCleanly uuid7 .preProcess) s l := by
    cases l with
    | run i a => exact fun f hf => (hkeeps f hf).1
    | world ev => trivial
  have hguarded := h.guarded.fire (by decide) hclean hfire
  cases l with
  | world ev =>
      obtain ⟨r, hr, rfl⟩ := fire_world_cases hfire
      obtain rfl := engine_event_eq hr
      exact h.world hguarded hkeeps
  | run i a =>
      obtain ⟨f, rest, o, hi, ho, rfl⟩ := fire_run_cases hfire
      obtain rfl := engine_step_eq ho
      have htop : f ∈ s.top i := by simp [Pool.top, hi]
      exact h.run hguarded (hkeeps f htop).2 (fun m hm => hwelcome m hm f htop) hi

theorem inOrder_boot
    (welcome : String → Prop)
    {e : Engine}
    (hlog : e.log = [])
    (hacks : e.ackTracker.pending = [])
    (hheld : e.pauseState.held = [])
    (hstate : e.pipelineStates uuid7 = none)
    (hlisted : e.config.inProcessModules.Nodup) :
    InOrder uuid7 welcome (boot e) where
  guarded := by
    refine ⟨boot_waiting e, ?_, ?_, ?_, ?_, ?_⟩
    · simp [boot, Pool.frames]
    · simp [boot, departures, Pool.total, Pool.frames, timesLeft, hlog]
    · simp [boot, departures, Pool.total, Pool.frames, timesLeft, hlog]
    · simp [boot, hlog]
    · simp [boot, hlog]
  apart := rfl
  tokens := by
    simp [boot, chain, Pool.total, Pool.frames, pendingTokens, heldTokens, hacks,
      hheld]
  listed := hlisted
  once := by simp [boot, dispatched, hlog]
  unborn := by simp [boot, dispatched, chainIndex, hlog, hstate]
  tasks := by simp [boot, Pool.frames]
  pending := by simp [boot, pendingTokens, hacks]
  held := by simp [boot, heldTokens, hheld]
  beyond := by simp [boot, Pool.frames]
  heldBeyond := by simp [boot, hheld]

/-- A run of these steps keeps every message's place. -/
theorem InOrder.exec
    {s s' : EnginePool}
    (h : InOrder uuid7 welcome s)
    (ls : List EngineLabel)
    (hkeeps : AllSteps engine (KeepsChain uuid7) s ls)
    (hwelcome : ∀ m, welcome m → AllSteps engine (OnRun (Welcomes uuid7 m)) s ls)
    (hrun : engine.exec s ls = some s') :
    InOrder uuid7 welcome s' := by
  induction ls generalizing s with
  | nil =>
      obtain rfl := Option.some.inj hrun
      exact h
  | cons l ls ih =>
      obtain ⟨s₁, hfire, hrest⟩ := Option.bind_eq_some_iff.mp hrun
      exact ih (h.fire hkeeps.1 (fun m hm => (hwelcome m hm).1) hfire)
        (hkeeps.2 s₁ hfire) (fun m hm => (hwelcome m hm).2 s₁ hfire) hrest

end Invariant

/-- **Main theorem.**  While every new list leaves the modules that the message
has passed where they are, no module of the chain is dispatched the message
twice, and a message that comes out of the chain has been dispatched to every
module that was listed, a recipient, permitted and connected throughout. -/
theorem chain_in_order
    (uuid7 : String)
    (e : Engine)
    (hlog : e.log = [])
    (hacks : e.ackTracker.pending = [])
    (hheld : e.pauseState.held = [])
    (hstate : e.pipelineStates uuid7 = none)
    (hlisted : e.config.inProcessModules.Nodup)
    (ls : List EngineLabel)
    (hkeeps : AllSteps engine (KeepsChain uuid7) (boot e) ls)
    {s : EnginePool}
    (hrun : engine.exec (boot e) ls = some s) :
    (dispatched uuid7 s.shared).Nodup ∧
      ∀ m, AllSteps engine (OnRun (Welcomes uuid7 m)) (boot e) ls →
        .postProcess (.enter uuid7) ∈ s.frames →
        m ∈ dispatched uuid7 s.shared := by
  constructor
  · have hboot := inOrder_boot (fun _ => False) hlog hacks hheld hstate hlisted
    exact (hboot.exec ls hkeeps (by simp) hrun).once
  · intro m hwelcome hout
    have hboot := inOrder_boot (· = m) hlog hacks hheld hstate hlisted
    have horder := hboot.exec ls hkeeps (by rintro _ rfl; exact hwelcome) hrun
    exact horder.beyond _ hout rfl m rfl

/-- The message is sent to the first of two modules; a third is appended to the
list; the first two answer, then the third. -/
def appendedInFlight : List EngineLabel :=
  .world (.ingest { uuid7 := "m", rawMessage := "hi" }) ::
    List.replicate 12 (.run 0 {}) ++
  .world (.setConfig { inProcessModules := ["a", "b", "c"] }) ::
  .world (.reply { uuid7 := "m", moduleName := "a", stage := .inProcess }) ::
    List.replicate 13 (.run 1 {}) ++
  .world (.reply { uuid7 := "m", moduleName := "b", stage := .inProcess }) ::
    List.replicate 13 (.run 2 {}) ++
  .world (.reply { uuid7 := "m", moduleName := "c", stage := .inProcess }) ::
    List.replicate 8 (.run 3 {})

theorem chain_in_order_appendedInFlight :
    ∃ s, engine.exec (boot { config := { inProcessModules := ["a", "b"] } })
        appendedInFlight = some s ∧
      (dispatched "m" s.shared).Nodup ∧ "b" ∈ dispatched "m" s.shared := by
  obtain ⟨s, hrun, hout⟩ := exec_any (P := engine)
    (Q := fun s => .postProcess (.enter "m") ∈ s.frames)
    (boot { config := { inProcessModules := ["a", "b"] } })
    appendedInFlight (by decide +kernel)
  have horder := chain_in_order "m" { config := { inProcessModules := ["a", "b"] } }
    rfl rfl rfl rfl (by decide) appendedInFlight (by decide +kernel) hrun
  exact ⟨s, hrun, horder.1, horder.2 "b" (by decide +kernel) hout⟩

/-- The message is sent to the first of two modules; the two change places; the
first answers. -/
def swappedInFlight : List EngineLabel :=
  .world (.ingest { uuid7 := "m", rawMessage := "hi" }) ::
    List.replicate 12 (.run 0 {}) ++
  .world (.setConfig { inProcessModules := ["b", "a"] }) ::
  .world (.reply { uuid7 := "m", moduleName := "a", stage := .inProcess }) ::
    List.replicate 13 (.run 1 {}) ++
  .world (.reply { uuid7 := "m", moduleName := "a", stage := .inProcess }) ::
    List.replicate 8 (.run 2 {})

/-- The first module is sent the message again, and the second, listed and
connected all along, never is. -/
theorem chain_broken_by_swap :
    ∃ s, engine.exec (boot { config := { inProcessModules := ["a", "b"] } })
        swappedInFlight = some s ∧
      dispatched "m" s.shared = ["a", "a"] ∧
      AllSteps engine (OnRun (LeavesCleanly "m" .preProcess))
        (boot { config := { inProcessModules := ["a", "b"] } }) swappedInFlight ∧
      AllSteps engine (OnRun (Welcomes "m" "b"))
        (boot { config := { inProcessModules := ["a", "b"] } }) swappedInFlight ∧
      .postProcess (.enter "m") ∈ s.frames ∧
      "b" ∉ dispatched "m" s.shared := by
  obtain ⟨s, hrun, hsent, hout, hnever⟩ := exec_any (P := engine)
    (Q := fun s => dispatched "m" s.shared = ["a", "a"] ∧
      .postProcess (.enter "m") ∈ s.frames ∧ "b" ∉ dispatched "m" s.shared)
    (boot { config := { inProcessModules := ["a", "b"] } })
    swappedInFlight (by decide +kernel)
  exact ⟨s, hrun, hsent, by decide +kernel, by decide +kernel, hout, hnever⟩

end CockatielEngine
