import CockatielEngine.Shutdown.HandOff

/-!
# Shutdown: the watched stage

The signal is a watch channel: a send replaces the stage and gives it a new
version, whatever the stage was.  A waiter reads the stage and, unless the
shutdown is answered, waits until the version is no longer the one it has read.

A request that comes after the answer takes the answer back.
-/

namespace CockatielEngine

/-- How far a stage is along the shutdown. -/
def ShutdownStage.rank : ShutdownStage → Nat
  | .idle => 0
  | .requested => 1
  | .answered => 2

structure ShutdownSignal where
  stage : ShutdownStage := .idle
  version : Nat := 0
deriving DecidableEq, Repr

namespace ShutdownSignal

def send (s : ShutdownSignal) (stage : ShutdownStage) : ShutdownSignal :=
  { stage := stage, version := s.version + 1 }

def request (s : ShutdownSignal) : ShutdownSignal :=
  s.send .requested

def markAnswered (s : ShutdownSignal) : ShutdownSignal :=
  s.send .answered

end ShutdownSignal

/-- A call of `wait_answered`: not made yet, about to read the stage, waiting for
a change since the version it has read, or over. -/
inductive WaiterState where
  | outside
  | reading
  | changing (seen : Nat)
  | returned
deriving DecidableEq, Repr

namespace WaiterState

/-- The waiter's next step; without a change there is none. -/
def next (s : ShutdownSignal) : WaiterState → Option WaiterState
  | .outside => some .reading
  | .reading =>
      some (if s.stage = .answered then .returned else .changing s.version)
  | .changing seen => if s.version = seen then none else some .reading
  | .returned => none

/-- How many steps an answered shutdown is away. -/
def stepsLeft : WaiterState → Nat
  | .outside => 2
  | .reading => 1
  | .changing _ => 2
  | .returned => 0

end WaiterState

/-- A call of a connection, or a step of a waiter. -/
inductive SignalEvent where
  | request (k : Nat)
  | markAnswered (k : Nat)
  | stage (k : Nat)
  | waiter (w : Nat)
deriving DecidableEq, Repr

/-- The signal and everybody who waits for it. -/
structure SignalState where
  signal : ShutdownSignal := {}
  waiters : Nat → WaiterState := fun _ => .outside

namespace SignalState

def step (s : SignalState) : SignalEvent → SignalState
  | .request _ => { s with signal := s.signal.request }
  | .markAnswered _ => { s with signal := s.signal.markAnswered }
  | .stage _ => s
  | .waiter w =>
      { s with
        waiters :=
          Function.update s.waiters w
            (((s.waiters w).next s.signal).getD (s.waiters w)) }

/-- The state after events in this order. -/
def after (events : List SignalEvent) : SignalState :=
  events.foldl step {}

end SignalState

/-- In a run the stage only moves forward, and a waiter that takes two steps
after the answer has returned. -/
structure StaysAnswered (events : List SignalEvent) : Prop where
  forward : ∀ earlier later, earlier <+: later → later <+: events →
    (SignalState.after earlier).signal.stage.rank ≤
      (SignalState.after later).signal.stage.rank
  seen : ∀ before since w, before ++ since <+: events →
    (∃ k, SignalEvent.markAnswered k ∈ before) → 2 ≤ since.count (.waiter w) →
      (SignalState.after (before ++ since)).waiters w = .returned

/-- Nobody requests a shutdown that is answered already. -/
def AsksBeforeAnswer (events : List SignalEvent) : Prop :=
  ∀ before k, before ++ [.request k] <+: events →
    (SignalState.after before).signal.stage ≠ .answered

section Signals

variable {s : SignalState} {ev : SignalEvent} {k w : Nat}
variable {events before since earlier later : List SignalEvent}

namespace SignalState

@[simp] theorem after_nil : after [] = {} := rfl

@[simp] theorem after_concat : after (events ++ [ev]) = (after events).step ev := by
  simp [after]

@[simp] theorem step_waiter_signal : (s.step (.waiter w)).signal = s.signal := rfl

/-- An event other than a request at the end moves the stage forward. -/
theorem rank_le_step
    (h : ∀ k, ev = .request k → s.signal.stage ≠ .answered) :
    s.signal.stage.rank ≤ (s.step ev).signal.stage.rank := by
  cases ev with
  | request k =>
      have hstage := h k rfl
      cases hcase : s.signal.stage with
      | idle => simp [ShutdownStage.rank]
      | requested => exact le_rfl
      | answered => exact absurd hcase hstage
  | markAnswered k =>
      cases s.signal.stage <;> simp [step, ShutdownSignal.markAnswered,
        ShutdownSignal.send, ShutdownStage.rank]
  | stage k => exact le_rfl
  | waiter w => exact le_rfl

/-- A waiter that waits for a change of the stage it has read has not read the
answer. -/
def ReadsFresh (s : SignalState) : Prop :=
  ∀ w seen, s.waiters w = .changing seen →
    seen ≤ s.signal.version ∧ (seen = s.signal.version → s.signal.stage ≠ .answered)

theorem ReadsFresh.step
    (h : s.ReadsFresh) :
    (s.step ev).ReadsFresh := by
  intro v seen hv
  cases ev with
  | request k =>
      obtain ⟨hle, -⟩ := h v seen hv
      exact ⟨Nat.le_succ_of_le hle, fun heq => absurd heq (Nat.lt_succ_of_le hle).ne⟩
  | markAnswered k =>
      obtain ⟨hle, -⟩ := h v seen hv
      exact ⟨Nat.le_succ_of_le hle, fun heq => absurd heq (Nat.lt_succ_of_le hle).ne⟩
  | stage k => exact h v seen hv
  | waiter w =>
      by_cases hw : v = w
      · subst hw
        simp only [SignalState.step, Function.update_self] at hv ⊢
        cases hcase : s.waiters v with
        | outside => simp [hcase, WaiterState.next] at hv
        | reading =>
            simp only [hcase, WaiterState.next, Option.getD_some] at hv
            split at hv
            · cases hv
            · rename_i hstage
              obtain rfl := WaiterState.changing.inj hv
              exact ⟨le_rfl, fun _ => hstage⟩
        | changing seen' =>
            simp only [hcase, WaiterState.next] at hv
            split at hv
            · obtain rfl := WaiterState.changing.inj hv
              exact h v seen' hcase
            · cases hv
        | returned => simp [hcase, WaiterState.next] at hv
      · simp only [SignalState.step, Function.update_of_ne hw] at hv
        exact h v seen hv

theorem readsFresh_after : (after events).ReadsFresh := by
  induction events using List.reverseRecOn with
  | nil => exact fun w seen h => by cases h
  | append_singleton events ev ih =>
      rw [after_concat]
      exact ih.step

/-- Once the shutdown is answered, every step of a waiter is one towards its
return. -/
theorem stepsLeft_step
    (hfresh : s.ReadsFresh)
    (hstage : s.signal.stage = .answered) :
    ((s.step ev).waiters w).stepsLeft =
      (s.waiters w).stepsLeft - (if ev = .waiter w then 1 else 0) := by
  cases ev with
  | waiter v =>
      by_cases hv : v = w
      · subst hv
        simp only [step, Function.update_self, if_true]
        cases hcase : s.waiters v with
        | outside => rfl
        | reading => simp [WaiterState.next, hstage, WaiterState.stepsLeft]
        | changing seen =>
            have hchanged : s.signal.version ≠ seen := fun heq =>
              (hfresh v seen hcase).2 heq.symm hstage
            simp [WaiterState.next, hchanged, WaiterState.stepsLeft]
        | returned => rfl
      · simp [step, hv, Function.update_of_ne (Ne.symm hv)]
  | request k => simp [step]
  | markAnswered k => simp [step]
  | stage k => simp [step]

end SignalState

/-- As long as nobody asks after the answer, the stage moves forward. -/
theorem AsksBeforeAnswer.forward
    (h : AsksBeforeAnswer events)
    (hearlier : earlier <+: later)
    (hlater : later <+: events) :
    (SignalState.after earlier).signal.stage.rank ≤
      (SignalState.after later).signal.stage.rank := by
  induction later using List.reverseRecOn with
  | nil => rw [List.prefix_nil.mp hearlier]
  | append_singleton later ev ih =>
      rcases List.prefix_concat_iff.mp hearlier with rfl | hearlier
      · exact le_rfl
      · rw [SignalState.after_concat]
        refine (ih hearlier ((List.prefix_append later [ev]).trans hlater)).trans
          (SignalState.rank_le_step ?_)
        rintro k rfl
        exact h later k hlater

/-- After the answer the shutdown stays answered. -/
theorem AsksBeforeAnswer.answered
    (h : AsksBeforeAnswer events)
    (hbefore : before <+: events)
    (hmarked : SignalEvent.markAnswered k ∈ before) :
    (SignalState.after before).signal.stage = .answered := by
  obtain ⟨first, rest, rfl⟩ := List.append_of_mem hmarked
  have hmark : first ++ [.markAnswered k] <+: first ++ .markAnswered k :: rest :=
    ⟨rest, by simp⟩
  have hrank := h.forward hmark hbefore
  rw [SignalState.after_concat] at hrank
  cases hcase : (SignalState.after (first ++ .markAnswered k :: rest)).signal.stage with
  | answered => rfl
  | idle => simp [hcase, SignalState.step, ShutdownSignal.markAnswered,
      ShutdownSignal.send, ShutdownStage.rank] at hrank
  | requested => simp [hcase, SignalState.step, ShutdownSignal.markAnswered,
      ShutdownSignal.send, ShutdownStage.rank] at hrank

/-- A waiter's steps after the answer bring it to its return. -/
theorem AsksBeforeAnswer.stepsLeft
    (h : AsksBeforeAnswer events)
    (hsince : before ++ since <+: events)
    (hmarked : SignalEvent.markAnswered k ∈ before) :
    ((SignalState.after (before ++ since)).waiters w).stepsLeft =
      ((SignalState.after before).waiters w).stepsLeft - since.count (.waiter w) := by
  induction since using List.reverseRecOn with
  | nil => simp
  | append_singleton since ev ih =>
      rw [← List.append_assoc] at hsince ⊢
      have hbefore := (List.prefix_append (before ++ since) [ev]).trans hsince
      have hstage := h.answered hbefore (List.mem_append_left since hmarked)
      rw [SignalState.after_concat,
        SignalState.stepsLeft_step SignalState.readsFresh_after hstage, ih hbefore,
        List.count_append, List.count_singleton, Nat.sub_sub]
      simp

end Signals

section Connections

/-- The calls of the signal that a step of a connection makes. -/
def HandOffEvent.signals (c : ConnectionIo) : HandOffEvent → List SignalEvent
  | .handler k shutdownOnRequest _ =>
      match c.handler with
      | .dispatching q _ => if q.accepted shutdownOnRequest then [.request k] else []
      | .dispatchingRequest q =>
          if q.accepted shutdownOnRequest then [.request k] else []
      | .releasing => [.markAnswered k]
      | .releasingLast => [.markAnswered k]
      | _ => []
  | .writer k _ => if c.writer = .confirming then [.markAnswered k] else []
  | _ => []

variable {s : SignalState} {c : ConnectionIo} {ev : HandOffEvent}
variable {r : ShutdownStage × ConnectionIo}

/-- A step of a connection moves the stage by its calls of the signal. -/
theorem HandOffEvent.stage_of_apply
    (h : ev.apply s.signal.stage c = some r) :
    r.1 = ((ev.signals c).foldl SignalState.step s).signal.stage := by
  cases ev with
  | handler k shutdownOnRequest taken =>
      simp only [HandOffEvent.apply, ConnectionIo.handlerStep] at h
      simp only [HandOffEvent.signals]
      cases hhandler : c.handler with
      | joining =>
          simp only [hhandler] at h
          split at h
          · cases h
            rfl
          · cases h
      | dispatching q wasRequested =>
          simp only [hhandler, Option.some.injEq] at h
          subst h
          by_cases hq : q.accepted shutdownOnRequest = true <;>
            simp [hq, SignalState.step, ShutdownSignal.request, ShutdownSignal.send]
      | dispatchingRequest q =>
          simp only [hhandler, Option.some.injEq] at h
          subst h
          by_cases hq : q.accepted shutdownOnRequest = true <;>
            simp [hq, SignalState.step, ShutdownSignal.request, ShutdownSignal.send]
      | waiting => simp [hhandler] at h
      | «over» => simp [hhandler] at h
      | _ =>
          simp only [hhandler, Option.some.injEq] at h
          subst h
          rfl
  | writer k ok =>
      simp only [HandOffEvent.apply, ConnectionIo.writerStep] at h
      simp only [HandOffEvent.signals]
      split at h
      · cases h
      · rename_i hwriter hqueue
        simp [hwriter, ← Option.some.inj h]
      · rename_i hwriter
        split at h <;> simp [hwriter, ← Option.some.inj h]
      · rename_i hwriter
        simp [hwriter, ← Option.some.inj h]
      · rename_i hwriter
        simp [hwriter, ← Option.some.inj h, SignalState.step,
          ShutdownSignal.markAnswered, ShutdownSignal.send]
      · cases h
  | databaseQuery k q =>
      obtain ⟨c', -, rfl⟩ := Option.map_eq_some_iff.mp h
      rfl
  | queryRequest k q =>
      obtain ⟨c', -, rfl⟩ := Option.map_eq_some_iff.mp h
      rfl
  | hangUp k =>
      obtain ⟨c', -, rfl⟩ := Option.map_eq_some_iff.mp h
      rfl
  | cancelWriter k =>
      obtain ⟨c', -, rfl⟩ := Option.map_eq_some_iff.mp h
      rfl
  | enqueue k =>
      cases h
      rfl

end Connections

/-- The signal is one-shot in exactly the runs in which nobody requests a
shutdown that is answered already. -/
theorem staysAnswered_iff_asksBeforeAnswer
    (events : List SignalEvent) :
    StaysAnswered events ↔ AsksBeforeAnswer events := by
  constructor
  · intro h before k hrequest hstage
    have hrank := h.forward before _ (List.prefix_append before [.request k]) hrequest
    simp [hstage, SignalState.step, ShutdownSignal.request, ShutdownSignal.send,
      ShutdownStage.rank] at hrank
  · intro h
    refine ⟨fun earlier later => h.forward, ?_⟩
    rintro before since w hsince ⟨k, hmarked⟩ htwo
    have hleft := h.stepsLeft (w := w) hsince hmarked
    have hmost : ((SignalState.after before).waiters w).stepsLeft ≤ 2 := by
      cases (SignalState.after before).waiters w <;> simp [WaiterState.stepsLeft]
    cases hcase : (SignalState.after (before ++ since)).waiters w with
    | returned => rfl
    | outside =>
        rw [hcase, WaiterState.stepsLeft] at hleft
        omega
    | reading =>
        rw [hcase, WaiterState.stepsLeft] at hleft
        omega
    | changing seen =>
        rw [hcase, WaiterState.stepsLeft] at hleft
        omega

/-- A second connection asks after the first one has its answer, before the main
loop has waited for it. -/
def askedTwice : List SignalEvent :=
  [.request 0, .markAnswered 0, .request 1, .waiter 0, .waiter 0]

/-- The stage goes back, and the main loop waits on. -/
theorem not_staysAnswered_askedTwice :
    ¬ StaysAnswered askedTwice ∧
      (SignalState.after askedTwice).signal.stage = .requested ∧
      (SignalState.after askedTwice).waiters 0 = .changing 3 := by
  refine ⟨fun h => ?_, by decide, by decide⟩
  have hrank := h.forward [.request 0, .markAnswered 0]
    [.request 0, .markAnswered 0, .request 1] ⟨[.request 1], rfl⟩
    ⟨[.waiter 0, .waiter 0], rfl⟩
  exact absurd hrank (by decide)

end CockatielEngine
