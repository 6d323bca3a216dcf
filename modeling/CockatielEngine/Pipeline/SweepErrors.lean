import CockatielEngine.Concurrency.Trace
import CockatielEngine.Pipeline.Successors

/-!
# Pipeline: an error in the sweep

The sweep takes the expired entries out of the table before it processes any of
them, and an entry whose advance fails ends the sweep.  The entries behind it
are then neither processed nor in the table.

**Main result.**  When a sweep returns, every entry it drained has had its turn
or is pending, exactly when no advance failed while drained entries were left.
-/

namespace CockatielEngine

open TaskPool

section Defs

/-- Task `i` has more than the `n` frames below its call on its stack. -/
def InCall (i n : Nat) (s : EnginePool) : Prop :=
  ∃ t ∈ s.threads[i]?, n < t.length

/-- The drained entry whose turn the frame takes. -/
def turnOf : Frame → Option PendingAck
  | .sweep (.next sw) => sw.todo.head?.map (·.1)
  | _ => none

/-- The drained entries that have had their turn with task `i`, newest first. -/
def turns (i : Nat) (tr : List (Nat × Frame)) : List PendingAck :=
  tr.filterMap fun x => if x.1 = i then turnOf x.2 else none

/-- What a drain takes out of the table, in the order of processing. -/
def drainedBatch (e : Engine) (a : Answer) : List PendingAck :=
  (SweepFrame.drained a (e.ackTracker.checkTimeouts e.now).1).map (·.1)

/-- Every entry of the batch has had its turn or is pending. -/
def Served (batch taken : List PendingAck) (e : Engine) : Prop :=
  ∀ x ∈ batch, batch.count x ≤ taken.count x + e.ackTracker.pending.count x

instance (i n : Nat) (s : EnginePool) : Decidable (InCall i n s) :=
  decidable_of_iff ((s.threads[i]?).any fun t => n < t.length)
    (by simp [InCall, Option.any_eq_true])

instance (batch taken : List PendingAck) (e : Engine) :
    Decidable (Served batch taken e) :=
  inferInstanceAs (Decidable (∀ x ∈ batch, _))

/-- An advance that fails is that of the last entry the sweep of task `i` has
drained. -/
def FailsLast (i : Nat) (s : EnginePool) : EngineLabel → Prop
  | .run j a =>
      j = i → ∀ t ∈ s.threads[i]?, ∀ f ∈ t.head?,
        (f.step s.shared a).next = none →
          ∀ g ∈ t.tail.head?, ∀ sw, g = .sweep (.next sw) → sw.todo = []
  | .world _ => True

/-- The frames that drive one message from stage to stage. -/
def Frame.drives : Frame → Bool
  | .broadcast _ => true
  | .fanout _ => true
  | .inProcess _ => true
  | .postProcess _ => true
  | .terminal _ => true
  | .advance _ => true
  | _ => false

/-- The entries the loop of a sweep still has to process. -/
def loopTodo : Frame → Option (List (PendingAck × Bool))
  | .sweep (.next sw) => some sw.todo
  | .sweep (.resendLoad sw _ _) => some sw.todo
  | .sweep (.resendSend sw _ _ _) => some sw.todo
  | .sweep (.resendTrack sw _) => some sw.todo
  | _ => none

/-- The stack of a sweep over `rest`, with the entries it has yet to process:
the loop itself, or an advance above it. -/
inductive Sweeping (rest : List Frame) :
    List Frame → List PendingAck → Prop
  | loop {f : Frame} {todo : List (PendingAck × Bool)} :
      loopTodo f = some todo →
      Sweeping rest (f :: rest) (todo.map (·.1))
  | advance {f : Frame} {sw : Sweep} :
      f.drives = true →
      Sweeping rest (f :: .sweep (.next sw) :: rest) (sw.todo.map (·.1))

/-- No pending entry had expired at `t`. -/
def FreshSince (t : Nat) (e : Engine) : Prop :=
  t ≤ e.now ∧ ∀ x ∈ e.ackTracker.pending, x.expired t = false

end Defs

section Steps

variable {e : Engine} {a : Answer}

/-- A frame that drives a message leaves such frames only. -/
theorem drives_new
    {f g : Frame} (hf : f.drives = true)
    (hg : g ∈ (f.step e a).new) :
    g.drives = true := by
  cases Frame.leads hg with
  | @fanout_nobody fo _ => cases fo.stage <;> rfl
  | _ => first | rfl | simp [Frame.drives] at hf

/-- A frame that drives a message leaves one such frame behind at most. -/
theorem drives_next
    {f : Frame} (hf : f.drives = true) :
    (f.step e a).next = none ∨ (f.step e a).next = some [] ∨
      ∃ g, g.drives = true ∧ (f.step e a).next = some [g] := by
  cases hnext : (f.step e a).next with
  | none => exact Or.inl rfl
  | some fs =>
      have hloop (g : Frame) (hg : g ∈ (f.step e a).new) : ¬ g.IsLoop := by
        have hdrives := drives_new hf hg
        cases g <;> simp_all [Frame.drives, Frame.IsLoop]
      rcases next_of_no_loop hloop hnext with rfl | ⟨g, hg, rfl⟩
      · exact Or.inr (Or.inl rfl)
      · exact Or.inr (Or.inr ⟨g, drives_new hf hg, rfl⟩)

/-- The timeout path goes back to the loop, with an advance above it or
without. -/
theorem SweepFrame.expire_next
    (sw : Sweep) (entry : PendingAck) (still : Bool) :
    ∃ sw', sw'.todo = sw.todo ∧
      ((expire e sw entry still).next = some [.sweep (.next sw')] ∨
        ∃ g, g.drives = true ∧
          (expire e sw entry still).next = some [g, .sweep (.next sw')]) := by
  have hadvance : (advanceFrame entry.uuid7 sw.config.inProcessModules.length
      entry.stage).drives = true := by
    cases entry.stage <;> rfl
  simp only [expire]
  repeat' split
  · exact ⟨sw, rfl, Or.inl rfl⟩
  · exact ⟨{ sw with failed := entry.uuid7 :: sw.failed }, rfl,
      Or.inr ⟨_, rfl, rfl⟩⟩
  · exact ⟨{ sw with advanced := entry.uuid7 :: sw.advanced }, rfl,
      Or.inr ⟨_, hadvance, rfl⟩⟩
  · exact ⟨sw, rfl, Or.inl rfl⟩

/-- The stack the timeout path leaves. -/
theorem Sweeping.expire
    (e : Engine) (rest : List Frame) (sw : Sweep) (entry : PendingAck) (still : Bool) :
    ∃ fs, (SweepFrame.expire e sw entry still).next = some fs ∧
      Sweeping rest (fs ++ rest) (sw.todo.map (·.1)) := by
  obtain ⟨sw', htodo, hnext | ⟨g, hg, hnext⟩⟩ :=
    SweepFrame.expire_next (e := e) sw entry still
  · exact ⟨_, hnext, .loop (by rw [← htodo]; rfl)⟩
  · refine ⟨_, hnext, ?_⟩
    rw [← htodo]
    exact .advance hg

/-- Everything a step of the sweeping task can do: fail and drop what is left,
return with nothing left, or go on. -/
theorem Sweeping.step
    {rest below : List Frame} {f : Frame} {left : List PendingAck}
    (h : Sweeping rest (f :: below) left) :
    ((f.step e a).next = none ∧ turnOf f = none ∧
        ∃ sw, below = .sweep (.next sw) :: rest ∧ left = sw.todo.map (·.1)) ∨
      (∃ fs, (f.step e a).next = some fs ∧ fs ++ below = rest ∧ left = [] ∧
        turnOf f = none) ∨
      ∃ fs left', (f.step e a).next = some fs ∧
        Sweeping rest (fs ++ below) left' ∧
        left = (turnOf f).toList ++ left' := by
  cases h with
  | @advance _ sw hdrives =>
      have hturn : turnOf f = none := by
        cases f with
        | sweep => simp [Frame.drives] at hdrives
        | _ => rfl
      rcases drives_next (e := e) (a := a) hdrives with hnext | hnext | ⟨g, hg, hnext⟩
      · exact Or.inl ⟨hnext, hturn, sw, rfl, rfl⟩
      · exact Or.inr (Or.inr ⟨_, _, hnext, .loop rfl, by simp [hturn]⟩)
      · exact Or.inr (Or.inr ⟨_, _, hnext, .advance hg, by simp [hturn]⟩)
  | @loop _ todo hloop =>
      refine Or.inr ?_
      cases f with
      | sweep f =>
          cases f with
          | next sw =>
              obtain rfl : sw.todo = todo := Option.some.inj hloop
              cases htodo : sw.todo with
              | nil =>
                  refine Or.inl ⟨[], ?_, rfl, rfl, ?_⟩
                  · simp [Frame.step, SweepFrame.step, htodo, go]
                  · simp [turnOf, htodo]
              | cons x todo =>
                  obtain ⟨entry, still⟩ := x
                  have hturn : turnOf (.sweep (.next sw)) = some entry := by
                    simp [turnOf, htodo]
                  cases hresend : SweepFrame.wantsResend entry with
                  | true =>
                      refine Or.inr ⟨[.sweep (.resendLoad
                        { sw with todo := todo } entry still)], todo.map (·.1),
                        ?_, .loop rfl, by rw [hturn]; rfl⟩
                      simp [Frame.step, SweepFrame.step, htodo, hresend, go]
                  | false =>
                      obtain ⟨fs, hfs, hsweeping⟩ := Sweeping.expire e rest
                        { sw with todo := todo } entry still
                      refine Or.inr ⟨fs, _, ?_, hsweeping, by rw [hturn]; rfl⟩
                      simpa [Frame.step, SweepFrame.step, htodo, hresend] using hfs
          | resendLoad sw entry still =>
              obtain rfl : sw.todo = todo := Option.some.inj hloop
              refine Or.inr ?_
              cases hstate : e.pipelineStates entry.uuid7 with
              | none =>
                  obtain ⟨fs, hfs, hsweeping⟩ := Sweeping.expire e rest
                    sw entry still
                  refine ⟨fs, _, ?_, hsweeping, rfl⟩
                  simpa [Frame.step, SweepFrame.step, hstate] using hfs
              | some state =>
                  refine ⟨[.sweep (.resendSend sw entry still
                    (state.resendContainer entry.uuid7 entry.stage))], _, ?_,
                    .loop rfl, rfl⟩
                  simp [Frame.step, SweepFrame.step, hstate, go]
          | resendSend sw entry still container =>
              obtain rfl : sw.todo = todo := Option.some.inj hloop
              refine Or.inr ?_
              by_cases hsent : a.outcome = .sent
              · refine ⟨[.sweep (.resendTrack sw entry)], _, ?_, .loop rfl, rfl⟩
                simp [Frame.step, SweepFrame.step, hsent, go]
              · obtain ⟨fs, hfs, hsweeping⟩ := Sweeping.expire e rest
                  sw entry still
                refine ⟨fs, _, ?_, hsweeping, rfl⟩
                simpa [Frame.step, SweepFrame.step, hsent] using hfs
          | resendTrack sw entry =>
              obtain rfl : sw.todo = todo := Option.some.inj hloop
              exact Or.inr ⟨[.sweep (.next
                { sw with resent := entry.uuid7 :: sw.resent })], _, rfl,
                .loop rfl, rfl⟩
          | _ => simp [loopTodo] at hloop
      | _ => simp [loopTodo] at hloop

/-- An entry whose clock was started after `t` had not expired at `t`. -/
theorem expired_of_le
    {x : PendingAck} {t : Nat} (h : t ≤ x.sentAt) :
    x.expired t = false := by
  simp only [PendingAck.expired, decide_eq_false_iff_not]
  omega

theorem FreshSince.step
    {t : Nat} {f : Frame}
    (h : FreshSince t e) :
    FreshSince t (f.step e a).shared := by
  refine ⟨by simpa [Engine.now] using h.1, fun y hy => ?_⟩
  rcases f.mem_pending_step e a hy with ⟨x, hx, rfl | rfl | ⟨-, rfl⟩⟩ | htracks
  · exact h.2 y hx
  · exact h.2 x hx
  · exact expired_of_le h.1
  · exact expired_of_le ((Frame.sentAt_of_tracks htracks).symm ▸ h.1)

theorem FreshSince.effect
    {t : Nat} {ev : WorldEvent}
    (h : FreshSince t e) :
    FreshSince t (ev.effect e) := by
  cases ev with
  | tick ms =>
      refine ⟨h.1.trans ?_, h.2⟩
      simp [WorldEvent.effect, Engine.now, Clock.now]
  | _ => exact h

end Steps

section Runs

variable {i t : Nat} {rest : List Frame} {s s' : EnginePool}

theorem Sweeping.length_lt
    {stack : List Frame} {left : List PendingAck}
    (h : Sweeping rest stack left) :
    rest.length < stack.length := by
  cases h <;> simp only [List.length_cons] <;> omega

/-- A run all of whose steps are inside the call ends with it. -/
theorem eq_nil_of_returned
    {n : Nat} {ls : List EngineLabel}
    (hinside : AllSteps engine (fun s _ => InCall i n s) s ls)
    (hret : ¬ InCall i n s) :
    ls = [] := by
  cases ls with
  | nil => rfl
  | cons l ls => exact absurd hinside.1 hret

theorem not_inCall
    {n : Nat} {stack : List Frame}
    (hi : s.threads[i]? = some stack)
    (h : stack.length ≤ n) :
    ¬ InCall i n s := by
  rintro ⟨u, hu, hlt⟩
  obtain rfl : stack = u := Option.some.inj (hi.symm.trans hu)
  omega

/-- What has its turn in a step comes before what has its turn later. -/
theorem turns_history_cons
    {l : EngineLabel} {ls : List EngineLabel} {s₁ : EnginePool}
    (hfire : engine.fire s l = some s₁) :
    (turns i (engine.history s [] (l :: ls))).reverse =
      (turns i (s.ran l)).reverse ++
        (turns i (engine.history s₁ [] ls)).reverse := by
  simp only [Program.history, hfire, List.append_nil]
  rw [history_eq_append, turns, List.filterMap_append, List.reverse_append]
  rfl

/-- What a run of the task comes to for the entries its sweep has left: those that
are not dropped have their turns in order, and none is dropped exactly when no advance
fails before the last one's. -/
def SweptOut (i t : Nat) (s s' : EnginePool) (left : List PendingAck)
    (ls : List EngineLabel) : Prop :=
  ∃ dropped,
    left = (turns i (engine.history s [] ls)).reverse ++ dropped ∧
    (dropped = [] ↔ AllSteps engine (FailsLast i) s ls) ∧
    FreshSince t s'.shared

/-- A step that does not fail here leaves what it has not given a turn to the rest of
the run. -/
theorem SweptOut.cons
    {l : EngineLabel} {ls : List EngineLabel} {s₁ : EnginePool}
    {left left₁ : List PendingAck}
    (h : SweptOut i t s₁ s' left₁ ls)
    (hfire : engine.fire s l = some s₁)
    (hleft : left = (turns i (s.ran l)).reverse ++ left₁)
    (hok : FailsLast i s l) :
    SweptOut i t s s' left (l :: ls) := by
  obtain ⟨dropped, hdropped, hiff, hend⟩ := h
  refine ⟨dropped, ?_, ?_, hend⟩
  · rw [turns_history_cons hfire, hleft, hdropped, List.append_assoc]
  · rw [hiff]
    constructor
    · refine fun hall => ⟨hok, fun u hu => ?_⟩
      obtain rfl : s₁ = u := Option.some.inj (hfire.symm.trans hu)
      exact hall
    · exact fun hall => hall.2 s₁ hfire

section Step

variable {a : Answer} {f : Frame} {below : List Frame} {left : List PendingAck}

/-- The stack of the task that has run. -/
theorem getElem?_own_after_run
    (hi : s.threads[i]? = some (f :: below)) :
    (s.threads.set i (engine.unwind (f.step s.shared a).next below) ++
        (f.step s.shared a).spawned)[i]? =
      some (engine.unwind (f.step s.shared a).next below) := by
  have hlt : i < s.threads.length := (List.getElem?_eq_some_iff.mp hi).1
  rw [List.getElem?_append_left (by simpa using hlt), List.getElem?_set_self hlt]

theorem turns_ran
    (hi : s.threads[i]? = some (f :: below)) :
    turns i (s.ran (.run i a : EngineLabel)) = (turnOf f).toList := by
  rw [ran_of_getElem? a hi]
  cases hturn : turnOf f <;> simp [turns, hturn]

theorem turns_ran_of_ne
    {j : Nat}
    (hij : j ≠ i) :
    turns i (s.ran (.run j a : EngineLabel)) = [] := by
  rw [turns, List.filterMap_eq_nil_iff]
  intro x hx
  exact if_neg (ran_of_ne hij x hx)

theorem failsLast_of_next
    {fs : List Frame}
    (hi : s.threads[i]? = some (f :: below))
    (hnext : (f.step s.shared a).next = some fs) :
    FailsLast i s (.run i a) := by
  intro _ u hu g hg hnone
  obtain rfl : f :: below = u := Option.some.inj (hi.symm.trans hu)
  obtain rfl : f = g := Option.some.inj hg
  simp [hnext] at hnone

/-- The advance fails, and the sweep returns with it. -/
theorem sweptOut_of_failed
    {sw : Sweep}
    (hi : s.threads[i]? = some (f :: .sweep (.next sw) :: rest))
    (hnext : (f.step s.shared a).next = none)
    (hturn : turnOf f = none)
    (hfire : engine.fire s (.run i a) = some s')
    (hfresh : FreshSince t s'.shared) :
    SweptOut i t s s' (sw.todo.map (·.1)) [.run i a] := by
  refine ⟨sw.todo.map (·.1), ?_, ?_, hfresh⟩
  · rw [turns_history_cons hfire, turns_ran hi, hturn]
    rfl
  · constructor
    · intro hnil
      refine ⟨fun _ u hu g hg hnone k hk sw' hsw => ?_, fun _ _ => trivial⟩
      obtain rfl : f :: .sweep (.next sw) :: rest = u :=
        Option.some.inj (hi.symm.trans hu)
      subst hsw
      obtain rfl : sw = sw' := by simpa using hk
      simpa using hnil
    · intro hall
      have htodo := hall.1 rfl _ hi f rfl hnext _ rfl sw rfl
      simp [htodo]

/-- The loop has nothing left, and the sweep returns. -/
theorem sweptOut_of_returned
    {fs : List Frame}
    (hi : s.threads[i]? = some (f :: below))
    (hnext : (f.step s.shared a).next = some fs)
    (hturn : turnOf f = none)
    (hfire : engine.fire s (.run i a) = some s')
    (hfresh : FreshSince t s'.shared) :
    SweptOut i t s s' [] [.run i a] := by
  refine ⟨[], ?_, ?_, hfresh⟩
  · rw [turns_history_cons hfire, turns_ran hi, hturn]
    rfl
  · exact iff_of_true rfl ⟨failsLast_of_next hi hnext, fun _ _ => trivial⟩

end Step

/-- The entries a sweep has left are processed in order until the sweep
returns; the ones it drops are none exactly when no advance failed before. -/
theorem Sweeping.run
    (ls : List EngineLabel)
    {stack : List Frame} {left : List PendingAck}
    (h : Sweeping rest stack left)
    (hi : s.threads[i]? = some stack)
    (hfresh : FreshSince t s.shared)
    (hinside : AllSteps engine (fun s _ => InCall i rest.length s) s ls)
    (hrun : engine.exec s ls = some s')
    (hret : ¬ InCall i rest.length s') :
    SweptOut i t s s' left ls := by
  induction ls generalizing s stack left with
  | nil =>
      cases hrun
      exact absurd ⟨stack, hi, h.length_lt⟩ hret
  | cons l ls ih =>
      obtain ⟨s₁, hfire, hrest⟩ := Option.bind_eq_some_iff.mp hrun
      have hinside₁ := hinside.2 s₁ hfire
      cases l with
      | world ev =>
          obtain ⟨r, hr, rfl⟩ := fire_world_cases hfire
          obtain rfl := engine_event_eq hr
          refine (ih h ?_ hfresh.effect hinside₁ hrest).cons hfire rfl trivial
          rw [List.getElem?_append_left (List.getElem?_eq_some_iff.mp hi).1]
          exact hi
      | run j a =>
          obtain ⟨f, below, o, hj, ho, rfl⟩ := fire_run_cases hfire
          obtain rfl := engine_step_eq ho
          by_cases hij : j = i
          · subst hij
            obtain rfl : stack = f :: below := Option.some.inj (hi.symm.trans hj)
            have hstack := getElem?_own_after_run (a := a) hj
            -- once the stack is short enough the call is over, and so is the run
            have hshort (hle : (engine.unwind (f.step s.shared a).next below).length ≤
                rest.length) : ls = [] :=
              eq_nil_of_returned hinside₁ (not_inCall hstack hle)
            rcases h.step (e := s.shared) (a := a) with
              ⟨hnext, hturn, sw, rfl, rfl⟩ | ⟨fs, hnext, hback, rfl, hturn⟩ |
                ⟨fs, left', hnext, hsweeping, hleft⟩
            · obtain rfl := hshort (by
                rw [hnext]
                change (rest.dropWhile fun f => !engine.catches f).length ≤ _
                exact (List.dropWhile_sublist _).length_le)
              cases hrest
              exact sweptOut_of_failed hj hnext hturn hfire hfresh.step
            · obtain rfl := hshort (by
                rw [hnext]
                exact (congrArg List.length hback).le)
              cases hrest
              exact sweptOut_of_returned hj hnext hturn hfire hfresh.step
            · refine (ih hsweeping ?_ hfresh.step hinside₁ hrest).cons hfire ?_
                (failsLast_of_next hj hnext)
              · rw [hstack, hnext]
                rfl
              · rw [turns_ran hj, hleft]
                cases turnOf f <;> rfl
          · refine (ih h (getElem?_after_run hij hi) hfresh.step hinside₁ hrest).cons
              hfire ?_ (fun heq => absurd heq hij)
            rw [turns_ran_of_ne hij]
            rfl

/-- The entries of a batch are none of those a fresh table holds. -/
theorem count_pending_eq_zero
    {e e' : Engine} {a : Answer} {x : PendingAck}
    (hx : x ∈ drainedBatch e a)
    (hfresh : FreshSince e.now e') :
    e'.ackTracker.pending.count x = 0 := by
  obtain ⟨⟨y, still⟩, hmem, rfl⟩ := List.mem_map.mp hx
  rw [SweepFrame.mem_drained_iff, AckTracker.mem_checkTimeouts_iff] at hmem
  refine List.count_eq_zero.mpr fun hpending => ?_
  simpa [hmem.2.1] using hfresh.2 y hpending

/-- **Main theorem.**  Let a task drain the expired entries and run, among any
other tasks, until its sweep returns.  Then every drained entry has had its turn
or is pending, exactly when no advance of the sweep failed while drained entries
were left. -/
theorem sweep_serves_iff
    (s₀ s₁ s' : EnginePool) (i : Nat) (cfg : PipelineConfig)
    (rest : List Frame) (a : Answer) (ls : List EngineLabel)
    (hdrain : s₀.threads[i]? = some (.sweep (.drain cfg) :: rest))
    (hfire : engine.fire s₀ (.run i a) = some s₁)
    (hrun : engine.exec s₁ ls = some s')
    (hinside : AllSteps engine (fun s _ => InCall i rest.length s) s₁ ls)
    (hreturned : ¬ InCall i rest.length s') :
    Served (drainedBatch s₀.shared a) (turns i (engine.history s₁ [] ls))
        s'.shared ↔
      AllSteps engine (FailsLast i) s₁ ls := by
  obtain ⟨f, below, o, hi, ho, rfl⟩ := fire_run_cases hfire
  obtain rfl := engine_step_eq ho
  obtain ⟨rfl, rfl⟩ : f = .sweep (.drain cfg) ∧ below = rest := by
    simpa [hi] using hdrain
  have hlt : i < s₀.threads.length := (List.getElem?_eq_some_iff.mp hi).1
  have hbegun : Sweeping below
      (.sweep (.next
        { config := cfg
          todo := SweepFrame.drained a
            (s₀.shared.ackTracker.checkTimeouts s₀.shared.now).1
          criticalUuids := SweepFrame.criticalUuids cfg (SweepFrame.drained a
            (s₀.shared.ackTracker.checkTimeouts s₀.shared.now).1) }) :: below)
      (drainedBatch s₀.shared a) := .loop rfl
  obtain ⟨dropped, hbatch, hiff, hfresh⟩ := Sweeping.run (t := s₀.shared.now) ls
    hbegun
    (by
      rw [List.getElem?_append_left (by simpa using hlt),
        List.getElem?_set_self hlt]
      rfl)
    ⟨by simp [Engine.now], fun x hx => by
      simpa using ((AckTracker.mem_checkTimeouts_rest_iff ..).mp hx).2⟩
    hinside hrun hreturned
  rw [← hiff]
  constructor
  · intro hserved
    by_contra hne
    obtain ⟨x, hx⟩ := List.exists_mem_of_ne_nil _ hne
    have hmem : x ∈ drainedBatch s₀.shared a := by
      rw [hbatch]
      exact List.mem_append_right _ hx
    have hle := hserved x hmem
    rw [count_pending_eq_zero hmem hfresh, hbatch, List.count_append,
      List.count_reverse] at hle
    have hpos := List.count_pos_iff.mpr hx
    omega
  · rintro rfl
    intro x _
    rw [hbatch, List.append_nil, List.count_reverse]
    exact Nat.le_add_right _ _

end Runs

/-- Two messages are out with a module that has confirmed their receipt; their
acks expire, and a sweep is about to drain them. -/
def twoExpired : List EngineLabel :=
  .world (.ingest { uuid7 := "m", rawMessage := "hi" }) ::
    List.replicate 12 (.run 0 {}) ++
  .world (.ingest { uuid7 := "n", rawMessage := "hi" }) ::
    List.replicate 12 (.run 1 {}) ++
  [.world (.receipt "m" "bot"), .run 2 {},
   .world (.receipt "n" "bot"), .run 3 {},
   .world (.tick 10000), .world .sweep, .run 4 {}, .run 4 {}]

/-- The pool after the sweep has run `n` steps. -/
def sweptFor (n : Nat) : EnginePool :=
  (engine.exec (boot { config := { inProcessModules := ["bot"] } })
    (twoExpired ++ List.replicate n (.run 4 {}))).getD (boot {})

theorem sweep_serves_iff_twoExpired :
    AllSteps engine (FailsLast 4) (sweptFor 1) (List.replicate 27 (.run 4 {})) := by
  refine (sweep_serves_iff (sweptFor 0) (sweptFor 1) (sweptFor 28) 4
    { inProcessModules := ["bot"] } [] {} (List.replicate 27 (.run 4 {}))
    rfl rfl rfl ?_ ?_).mp ?_
  · decide
  · decide
  · decide

/-- The advance of the first message fails at the database. -/
def firstAdvanceFails : List EngineLabel :=
  List.replicate 5 (.run 4 {}) ++ [.run 4 { dbOk := false }]

/-- The entry of the second message is gone with it. -/
theorem entry_dropped_by_failed_advance :
    ¬ ∀ (e : Engine) (ls₀ : List EngineLabel) (s₀ s₁ s' : EnginePool) (i : Nat)
        (cfg : PipelineConfig) (rest : List Frame) (a : Answer)
        (ls : List EngineLabel),
      engine.exec (boot e) ls₀ = some s₀ →
      s₀.threads[i]? = some (.sweep (.drain cfg) :: rest) →
      engine.fire s₀ (.run i a) = some s₁ →
      engine.exec s₁ ls = some s' →
      AllSteps engine (fun s _ => InCall i rest.length s) s₁ ls →
      ¬ InCall i rest.length s' →
      Served (drainedBatch s₀.shared a) (turns i (engine.history s₁ [] ls))
        s'.shared := by
  intro h
  have hserved := h { config := { inProcessModules := ["bot"] } } twoExpired _ _ _
    4 { inProcessModules := ["bot"] } [] {} firstAdvanceFails rfl rfl rfl rfl
    (by decide) (by decide)
  exact absurd hserved (by decide)

end CockatielEngine
