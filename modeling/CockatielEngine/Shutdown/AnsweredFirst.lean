import CockatielEngine.Shutdown.HandOff

/-!
# Shutdown: the answer before the exit

The flush flag says that an answer is on its way, and not which frame it is:
the writer takes the next frame it has written for the answer.

**Main result.**  In a run that arms the flag for the frame the writer reports
next, reports no answer unarmed and accepts no request once the signal is
`answered`, the signal is `answered` only after an
answer has been written or lost, and it does not stay `requested` once the
connection of a written answer has come to rest.
-/

namespace CockatielEngine

open TaskPool

section Defs

namespace ConnectionIo

/-- An answer to an accepted request has been written or can no longer be. -/
def answerOut (c : ConnectionIo) : Bool :=
  c.answerWritten || c.answerLost

/-- The frame that the writer reports next. -/
def nextReported (c : ConnectionIo) : Option OutboundFrame :=
  match c.writer with
  | .receiving => c.queue.head?
  | .sending f => some f
  | .reporting f => some f
  | .confirming => c.queue.head?
  | .exited => none

/-- The two tasks wait with nothing to do, or are over. -/
def AtRest (c : ConnectionIo) : Prop :=
  (c.handler = .waiting ∧ c.writer = .receiving ∧ c.queue = []) ∨
    c.handler = .over

instance (c : ConnectionIo) : Decidable c.AtRest := by
  unfold AtRest
  infer_instance

end ConnectionIo

/-- The read loop has the answer to an accepted request in hand. -/
def HandlerState.accepting : HandlerState → Bool
  | .rereading accepted _ => accepted
  | .sending accepted _ => accepted
  | .arming accepted _ _ => accepted
  | .replying accepted => accepted
  | _ => false

/-- A place of which the invariant asserts nothing of its own. -/
def HandlerState.plain : HandlerState → Bool
  | .arming _ _ _ => false
  | .releasing => false
  | .checkingFlush => false
  | .releasingLast => false
  | .over => false
  | _ => true

/-- The signal is `answered` only after an answer is out, and it is not left at
`requested` by a connection at rest whose answer has been written. -/
structure AnsweredFirst (s : ShutdownState) : Prop where
  first : s.stage = .answered → ∃ k, (s.connections k).answerOut = true
  last : ∀ k, (s.connections k).answerWritten = true →
    (s.connections k).AtRest → s.stage ≠ .requested

/-- The steps that hand the answer off.

A request is accepted before the signal is `answered`.  Until then a query arms
the flag, or releases the exit, for a request of its own, and it arms the flag
when the answer is the frame the writer reports next or the writer is gone; and
the writer reports no answer with the flag clear. -/
def HandsOff (stage : ShutdownStage) (c : ConnectionIo) : HandOffEvent → Prop
  | .handler _ shutdownOnRequest _ =>
      match c.handler with
      | .dispatching q _ =>
          q.accepted shutdownOnRequest = true → stage ≠ .answered
      | .dispatchingRequest q =>
          q.accepted shutdownOnRequest = true → stage ≠ .answered
      | .arming accepted answered queued =>
          stage = .answered ∨
            (answered = true → accepted = true) ∧
            (answered = true → queued = true →
              c.nextReported = some .shutdownAnswer ∨ c.writer = .exited)
      | _ => True
  | .writer _ _ =>
      c.writer = .reporting .shutdownAnswer →
        c.flush = true ∨ stage ≠ .requested
  | _ => True

instance (stage : ShutdownStage) (c : ConnectionIo) (ev : HandOffEvent) :
    Decidable (HandsOff stage c ev) := by
  unfold HandsOff
  repeat' split
  all_goals infer_instance

/-- The condition on the steps of a run. -/
def HandsOffCleanly (s : Pool ShutdownState Empty) :
    Label Unit HandOffEvent → Prop
  | .world ev => HandsOff s.shared.stage (s.shared.connections ev.connection) ev
  | .run _ _ => True

instance (s : Pool ShutdownState Empty) (l : Label Unit HandOffEvent) :
    Decidable (HandsOffCleanly s l) := by
  unfold HandsOffCleanly
  split <;> infer_instance

/-- The invariant of a connection; `out` says that some connection's answer is
out. -/
structure Follows (stage : ShutdownStage) (out : Prop) (c : ConnectionIo) :
    Prop where
  begun : c.handler.accepting = true ∨ c.pending = true → stage ≠ .idle
  own : c.answerOut = true → out
  written : c.answerWritten = true → stage = .answered ∨
    c.writer = .reporting .shutdownAnswer ∨ c.writer = .confirming
  armed : c.flush = true → out ∨ c.nextReported = some .shutdownAnswer
  reported : c.writer = .reporting .shutdownAnswer → c.answerWritten = true
  confirmed : c.writer = .confirming → out
  emptied : c.writer = .exited → c.queue = []
  queued : ∀ answered, c.handler = .arming true answered true →
    out ∨ c.pending = true
  refused : ∀ answered, c.handler = .arming true answered false → out
  released : c.handler = .releasing ∨ c.handler = .releasingLast → out
  stopped : c.handler = .checkingFlush ∨ c.handler = .releasingLast ∨
    c.handler = .over → c.writer = .exited

end Defs

section Steps

variable {stage stage' : ShutdownStage} {out out' : Prop} {c c' : ConnectionIo}

/-- A connection that stands still follows the others. -/
theorem Follows.mono
    (h : Follows stage out c)
    (hbegun : stage ≠ .idle → stage' ≠ .idle)
    (hanswered : stage = .answered → stage' = .answered)
    (hout : out → out') :
    Follows stage' out' c where
  begun hc := hbegun (h.begun hc)
  own hc := hout (h.own hc)
  written hc := (h.written hc).imp_left hanswered
  armed hc := (h.armed hc).imp_left hout
  reported := h.reported
  confirmed hc := hout (h.confirmed hc)
  emptied := h.emptied
  queued answered hc := (h.queued answered hc).imp_left hout
  refused answered hc := hout (h.refused answered hc)
  released hc := hout (h.released hc)
  stopped := h.stopped

/-- The frame reported next is on its way. -/
theorem pending_of_nextReported
    (h : c.nextReported = some .shutdownAnswer) :
    c.pending = true := by
  simp only [ConnectionIo.pending, Bool.or_eq_true, List.contains_iff_mem,
    decide_eq_true_eq]
  unfold ConnectionIo.nextReported at h
  split at h
  · exact Or.inl (List.mem_of_mem_head? h)
  · rename_i hw
    exact Or.inr (by rw [hw]; exact h)
  · rename_i hw
    exact Or.inr (by rw [hw]; exact h)
  · exact Or.inl (List.mem_of_mem_head? h)
  · cases h

/-- The read loop goes on; what its new place asserts holds. -/
theorem Follows.setHandler
    {handler : HandlerState}
    (h : Follows stage out c)
    (hbegun : handler.accepting = true → stage ≠ .idle)
    (hqueued : ∀ answered, handler = .arming true answered true →
      out ∨ c.pending = true)
    (hrefused : ∀ answered, handler = .arming true answered false → out)
    (hreleased : handler = .releasing ∨ handler = .releasingLast → out)
    (hstopped : handler = .checkingFlush ∨ handler = .releasingLast ∨
      handler = .over → c.writer = .exited) :
    Follows stage out { c with handler := handler } :=
  { h with
    begun := by
      rintro (hc | hc)
      · exact hbegun hc
      · exact h.begun (Or.inr hc)
    queued := hqueued
    refused := hrefused
    released := hreleased
    stopped := hstopped }

theorem Follows.moveOn
    {handler : HandlerState}
    (h : Follows stage out c)
    (hplain : handler.plain = true)
    (hbegun : handler.accepting = true → stage ≠ .idle) :
    Follows stage out { c with handler := handler } := by
  refine h.setHandler hbegun ?_ ?_ ?_ ?_
  · rintro answered rfl
    cases hplain
  · rintro answered rfl
    cases hplain
  · rintro (rfl | rfl) <;> cases hplain
  · rintro (rfl | rfl | rfl) <;> cases hplain

/-- The flag is cleared, or set for the frame that is reported next. -/
theorem Follows.setFlush
    {flush : Bool}
    (h : Follows stage out c)
    (harmed : flush = true → out ∨ c.nextReported = some .shutdownAnswer) :
    Follows stage out { c with flush := flush } :=
  { h with armed := harmed }

/-- The queue takes a frame. -/
theorem Follows.push
    {f : OutboundFrame}
    (h : Follows stage out c)
    (hopen : c.writer ≠ .exited)
    (hf : f = .shutdownAnswer → stage ≠ .idle) :
    Follows stage out { c with queue := c.queue ++ [f] } := by
  have hmem : ({ c with queue := c.queue ++ [f] } : ConnectionIo).pending = true ↔
      c.pending = true ∨ f = .shutdownAnswer := by
    simp only [ConnectionIo.pending, Bool.or_eq_true, List.contains_iff_mem,
      List.mem_append, List.mem_singleton, decide_eq_true_eq, eq_comm (a := f)]
    tauto
  have hhead (hnext : c.queue.head? = some .shutdownAnswer) :
      (c.queue ++ [f]).head? = some .shutdownAnswer := by
    rw [List.head?_append, hnext]
    rfl
  exact
    { h with
      begun := by
        rintro (hc | hc)
        · exact h.begun (Or.inl hc)
        · rcases hmem.mp hc with hc | hc
          · exact h.begun (Or.inr hc)
          · exact hf hc
      armed := fun hc => (h.armed hc).imp_right fun hnext => by
        unfold ConnectionIo.nextReported at hnext ⊢
        cases hw : c.writer <;> simp only [hw] at hnext ⊢
        · exact hhead hnext
        · exact hnext
        · exact hnext
        · exact hhead hnext
        · cases hnext
      emptied := fun hc => absurd hc hopen
      queued := fun answered hc =>
        (h.queued answered hc).imp_right fun hp => hmem.mpr (Or.inl hp) }

/-- The queue does not take a frame, which is lost. -/
theorem Follows.lose
    {lost : Bool}
    (h : Follows stage out c)
    (hlost : lost = true → out) :
    Follows stage out { c with answerLost := c.answerLost || lost } :=
  { h with
    own := fun hc => by
      simp only [ConnectionIo.answerOut, Bool.or_eq_true] at hc
      rcases hc with hc | hc | hc
      · exact h.own (by simp [ConnectionIo.answerOut, hc])
      · exact h.own (by simp [ConnectionIo.answerOut, hc])
      · exact hlost hc }

/-- The writer is over, and what it had is lost. -/
theorem Follows.exitWriter
    (h : Follows stage out c)
    (hlost : c.pending = true → out)
    (hwriter : c.writer ≠ .reporting .shutdownAnswer ∧ c.writer ≠ .confirming) :
    Follows stage out c.exitWriter where
  begun hc := h.begun (Or.inl (hc.resolve_right (by simp [ConnectionIo.pending,
    ConnectionIo.exitWriter, WriterState.hand])))
  own := (h.lose hlost).own
  written hc := by
    rcases h.written hc with hc | hc | hc
    · exact Or.inl hc
    · exact absurd hc hwriter.1
    · exact absurd hc hwriter.2
  armed hc := by
    rcases h.armed hc with hc | hc
    · exact Or.inl hc
    · exact Or.inl (hlost (pending_of_nextReported hc))
  reported := by rintro ⟨⟩
  confirmed := by rintro ⟨⟩
  emptied _ := rfl
  queued answered hc := Or.inl ((h.queued answered hc).elim id hlost)
  refused := h.refused
  released := h.released
  stopped _ := rfl

/-- The writer takes the next frame. -/
theorem Follows.take
    {f : OutboundFrame} {rest : List OutboundFrame}
    (h : Follows stage out c)
    (hw : c.writer = .receiving)
    (hqueue : c.queue = f :: rest) :
    Follows stage out { c with writer := .sending f, queue := rest } := by
  have hpending : ({ c with writer := .sending f, queue := rest } :
      ConnectionIo).pending = c.pending := by
    cases f <;> simp [ConnectionIo.pending, WriterState.hand, hw, hqueue]
  have hnext : ({ c with writer := .sending f, queue := rest } :
      ConnectionIo).nextReported = c.nextReported := by
    simp [ConnectionIo.nextReported, hw, hqueue]
  exact
    { h with
      begun := fun hc => h.begun (hpending ▸ hc)
      written := fun hc => Or.inl ((h.written hc).resolve_right (by simp [hw]))
      armed := fun hc => hnext ▸ h.armed hc
      reported := by rintro ⟨⟩
      confirmed := by rintro ⟨⟩
      emptied := by rintro ⟨⟩
      queued := fun answered hc => hpending ▸ h.queued answered hc
      stopped := fun hc => absurd (h.stopped hc) (by simp [hw]) }

/-- The socket takes the frame in hand. -/
theorem Follows.sent
    {f : OutboundFrame}
    (h : Follows stage out c)
    (hw : c.writer = .sending f)
    (hout : f = .shutdownAnswer → out) :
    Follows stage out
      { c with
        writer := .reporting f
        answerWritten := c.answerWritten || decide (f = .shutdownAnswer) } := by
  have hpending : ({ c with
      writer := .reporting f
      answerWritten := c.answerWritten || decide (f = .shutdownAnswer) } :
      ConnectionIo).pending = c.pending := by
    simp [ConnectionIo.pending, WriterState.hand, hw]
  have hnext : ({ c with
      writer := .reporting f
      answerWritten := c.answerWritten || decide (f = .shutdownAnswer) } :
      ConnectionIo).nextReported = c.nextReported := by
    simp [ConnectionIo.nextReported, hw]
  exact
    { h with
      begun := fun hc => h.begun (hpending ▸ hc)
      own := fun hc => by
        simp only [ConnectionIo.answerOut, Bool.or_eq_true, decide_eq_true_eq] at hc
        rcases hc with (hc | hc) | hc
        · exact h.own (by simp [ConnectionIo.answerOut, hc])
        · exact hout hc
        · exact h.own (by simp [ConnectionIo.answerOut, hc])
      written := fun hc => by
        simp only [Bool.or_eq_true, decide_eq_true_eq] at hc
        rcases hc with hc | rfl
        · exact Or.inl ((h.written hc).resolve_right (by simp [hw]))
        · exact Or.inr (Or.inl rfl)
      armed := fun hc => hnext ▸ h.armed hc
      reported := fun hc => by
        obtain rfl : f = .shutdownAnswer := by simpa using hc
        simp
      confirmed := by rintro ⟨⟩
      emptied := by rintro ⟨⟩
      queued := fun answered hc => hpending ▸ h.queued answered hc
      stopped := fun hc => absurd (h.stopped hc) (by simp [hw]) }

/-- The writer reads the flag after a frame it has sent. -/
theorem Follows.report
    {f : OutboundFrame}
    (h : Follows stage out c)
    (hw : c.writer = .reporting f)
    (hok : f = .shutdownAnswer → c.flush = true ∨ stage ≠ .requested) :
    Follows stage out
      { c with
        flush := false
        writer := if c.flush then .confirming else .receiving } := by
  have hhand (hf : f = .shutdownAnswer) : out :=
    h.own (by simp [ConnectionIo.answerOut, h.reported (hf ▸ hw)])
  have hpending (hc : ({ c with
      flush := false
      writer := if c.flush then .confirming else .receiving } :
      ConnectionIo).pending = true) : c.pending = true := by
    have hnone : (if c.flush then WriterState.confirming else .receiving).hand =
        none := by
      split <;> rfl
    simp only [ConnectionIo.pending, hnone, Bool.or_eq_true] at hc ⊢
    exact Or.inl (by simpa using hc)
  exact
    { h with
      begun := fun hc => h.begun (hc.imp_right hpending)
      written := fun hc => by
        rcases h.written hc with hdone | hrep | hconf
        · exact Or.inl hdone
        · obtain rfl : f = .shutdownAnswer := by simpa [hw] using hrep
          rcases hok rfl with hflush | hstage
          · exact Or.inr (Or.inr (by simp [hflush]))
          · have hbegun := h.begun (Or.inr (by
              simp [ConnectionIo.pending, WriterState.hand, hw]))
            cases stage with
            | idle => exact absurd rfl hbegun
            | requested => exact absurd rfl hstage
            | answered => exact Or.inl rfl
        · simp [hw] at hconf
      armed := by rintro ⟨⟩
      reported := by split <;> rintro ⟨⟩
      confirmed := fun hc => by
        have hflush : c.flush = true := by
          by_contra hflush
          simp [hflush] at hc
        rcases h.armed hflush with hout | hnext
        · exact hout
        · exact hhand (by simpa [ConnectionIo.nextReported, hw] using hnext)
      emptied := by split <;> rintro ⟨⟩
      queued := fun answered hc => by
        rcases h.queued answered hc with hout | hpend
        · exact Or.inl hout
        · by_cases hf : f = .shutdownAnswer
          · exact Or.inl (hhand hf)
          · refine Or.inr ?_
            simp only [ConnectionIo.pending, WriterState.hand, hw, Option.some.injEq,
              hf, decide_false, Bool.or_false] at hpend
            simp only [ConnectionIo.pending, hpend, Bool.true_or]
      stopped := fun hc => absurd (h.stopped hc) (by simp [hw]) }

/-- The writer confirms the answer. -/
theorem Follows.confirm
    (h : Follows stage out c)
    (hw : c.writer = .confirming) :
    Follows .answered out { c with writer := .receiving } := by
  have hpending : ({ c with writer := .receiving } : ConnectionIo).pending =
      c.pending := by
    simp [ConnectionIo.pending, WriterState.hand, hw]
  have hnext : ({ c with writer := .receiving } : ConnectionIo).nextReported =
      c.nextReported := by
    simp [ConnectionIo.nextReported, hw]
  exact
    { h with
      begun := by simp
      written := fun _ => Or.inl rfl
      armed := fun hc => hnext ▸ h.armed hc
      reported := by rintro ⟨⟩
      confirmed := by rintro ⟨⟩
      emptied := by rintro ⟨⟩
      queued := fun answered hc => hpending ▸ h.queued answered hc
      stopped := fun hc => absurd (h.stopped hc) (by simp [hw]) }

/-- What a step must show for its own connection and for the signal. -/
structure StepsOn (stage stage' : ShutdownStage) (out : Prop)
    (c c' : ConnectionIo) : Prop where
  follows : Follows stage' (out ∨ c'.answerOut = true) c'
  begun : stage ≠ .idle → stage' ≠ .idle
  answered : stage = .answered → stage' = .answered
  kept : c.answerOut = true → c'.answerOut = true
  first : stage' = .answered → stage ≠ .answered → out ∨ c'.answerOut = true

/-- A step that leaves the signal alone. -/
theorem StepsOn.quiet
    (h : Follows stage (out ∨ c'.answerOut = true) c')
    (hkept : c.answerOut = true → c'.answerOut = true) :
    StepsOn stage stage out c c' where
  follows := h
  begun := id
  answered := id
  kept := hkept
  first ha hn := absurd ha hn

/-- A step of the writer. -/
theorem Follows.writerStep
    {k : Nat} {ok : Bool}
    (h : Follows stage out c)
    (hok : HandsOff stage c (.writer k ok))
    (hstep : c.writerStep stage ok = some (stage', c')) :
    StepsOn stage stage' out c c' := by
  have hmono (out' : Prop) : Follows stage (out ∨ out') c := h.mono id id Or.inl
  unfold ConnectionIo.writerStep at hstep
  split at hstep
  · cases hstep
  · rename_i f rest hw hqueue
    obtain ⟨rfl, rfl⟩ := Prod.mk.inj (Option.some.inj hstep)
    exact .quiet ((hmono _).take hw hqueue) id
  · rename_i f hw
    split at hstep
    · obtain ⟨rfl, rfl⟩ := Prod.mk.inj (Option.some.inj hstep)
      refine .quiet ((hmono _).sent hw fun hf => Or.inr ?_) fun hout => ?_
      · simp [ConnectionIo.answerOut, hf]
      · simp only [ConnectionIo.answerOut, Bool.or_eq_true] at hout ⊢
        tauto
    · obtain ⟨rfl, rfl⟩ := Prod.mk.inj (Option.some.inj hstep)
      refine .quiet ((hmono _).exitWriter (fun hpending => Or.inr ?_) (by simp [hw]))
        fun hout => ?_
      · simp [ConnectionIo.answerOut, ConnectionIo.exitWriter, hpending]
      · simp only [ConnectionIo.answerOut, Bool.or_eq_true,
          ConnectionIo.exitWriter] at hout ⊢
        tauto
  · rename_i f hw
    obtain ⟨rfl, rfl⟩ := Prod.mk.inj (Option.some.inj hstep)
    exact .quiet ((hmono _).report hw fun hf => hok (hf ▸ hw)) id
  · rename_i hw
    obtain ⟨rfl, rfl⟩ := Prod.mk.inj (Option.some.inj hstep)
    exact
      { follows := (hmono _).confirm hw
        begun := by simp
        answered := fun _ => rfl
        kept := id
        first := fun _ _ => Or.inl (h.confirmed hw) }
  · cases hstep

/-- Everything a send does. -/
theorem Follows.send
    {f : OutboundFrame} (taken : Bool)
    (h : Follows stage out c)
    (hf : f = .shutdownAnswer → stage ≠ .idle) :
    Follows stage (out ∨ (c.send f taken).2.answerOut = true) (c.send f taken).2 ∧
      (c.answerOut = true → (c.send f taken).2.answerOut = true) ∧
      (f = .shutdownAnswer →
        (c.send f taken).2.answerOut = true ∨
          (c.send f taken).1 = true ∧ (c.send f taken).2.pending = true) := by
  have hmono (out' : Prop) : Follows stage (out ∨ out') c := h.mono id id Or.inl
  have hlost :
      Follows stage
        (out ∨ ({ c with
          answerLost := c.answerLost || decide (f = .shutdownAnswer) } :
          ConnectionIo).answerOut = true)
        { c with answerLost := c.answerLost || decide (f = .shutdownAnswer) } := by
    refine (hmono _).lose fun hlost => Or.inr ?_
    simp [ConnectionIo.answerOut, hlost]
  have hkept (hout : c.answerOut = true) :
      ({ c with answerLost := c.answerLost || decide (f = .shutdownAnswer) } :
        ConnectionIo).answerOut = true := by
    simp only [ConnectionIo.answerOut, Bool.or_eq_true] at hout ⊢
    tauto
  unfold ConnectionIo.send
  split
  · exact ⟨hlost, hkept, fun hanswer => Or.inl (by
      simp [ConnectionIo.answerOut, hanswer])⟩
  · rename_i hopen
    split
    · refine ⟨(hmono _).push hopen hf, id, fun hanswer => Or.inr ⟨rfl, ?_⟩⟩
      simp [ConnectionIo.pending, hanswer]
    · exact ⟨hlost, hkept, fun hanswer => Or.inl (by
        simp [ConnectionIo.answerOut, hanswer])⟩

/-- Accepting a request moves the signal to `requested`. -/
theorem Follows.dispatch
    {accepted : Bool} {handler : HandlerState}
    (h : Follows stage out c)
    (hok : accepted = true → stage ≠ .answered)
    (hplain : handler.plain = true)
    (haccepting : handler.accepting = accepted) :
    StepsOn stage (if accepted then .requested else stage) out c
      { c with handler := handler } := by
  cases accepted with
  | false =>
      refine .quiet ((h.mono id id Or.inl).moveOn hplain fun hc => ?_) id
      simp [haccepting] at hc
  | true =>
      have hstage := hok rfl
      refine ⟨?_, by simp, fun ha => absurd ha hstage, id, fun ha => by cases ha⟩
      refine (h.mono (by simp) (fun ha => absurd ha hstage) Or.inl).moveOn hplain ?_
      simp

section ReadLoop

variable {k : Nat} {shutdownOnRequest taken accepted answered queued : Bool}

/-- The answer to an accepted request is sent by a connection that has begun. -/
theorem Follows.begun_of_answerFrame
    (h : Follows stage out c)
    (haccepting : c.handler.accepting = accepted)
    (hf : answerFrame accepted = .shutdownAnswer) :
    stage ≠ .idle := by
  cases accepted with
  | false => cases hf
  | true => exact h.begun (Or.inl haccepting)

theorem Follows.handle_sending
    (h : Follows stage out c)
    (hh : c.handler = .sending accepted answered)
    (hstep : c.handlerStep stage shutdownOnRequest taken = some (stage', c')) :
    StepsOn stage stage' out c c' := by
  simp only [ConnectionIo.handlerStep, hh] at hstep
  obtain ⟨rfl, rfl⟩ := Prod.mk.inj (Option.some.inj hstep)
  obtain ⟨hsent, hkept, hplace⟩ := h.send (f := answerFrame accepted) taken
    (h.begun_of_answerFrame (by rw [hh]; rfl))
  refine .quiet (hsent.setHandler (fun hc => ?_) (fun a hc => ?_)
    (fun a hc => ?_) (by simp) (by simp)) hkept
  · exact h.begun (Or.inl (by rw [hh]; exact hc))
  · obtain ⟨rfl, -, hqueued⟩ := HandlerState.arming.inj hc
    rcases hplace rfl with hout | ⟨-, hpending⟩
    · exact Or.inl (Or.inr hout)
    · exact Or.inr hpending
  · obtain ⟨rfl, -, hqueued⟩ := HandlerState.arming.inj hc
    rcases hplace rfl with hout | ⟨htaken, -⟩
    · exact Or.inr hout
    · simp [hqueued] at htaken

theorem Follows.handle_replying
    (h : Follows stage out c)
    (hh : c.handler = .replying accepted)
    (hstep : c.handlerStep stage shutdownOnRequest taken = some (stage', c')) :
    StepsOn stage stage' out c c' := by
  simp only [ConnectionIo.handlerStep, hh] at hstep
  obtain ⟨rfl, rfl⟩ := Prod.mk.inj (Option.some.inj hstep)
  obtain ⟨hsent, hkept, -⟩ := h.send (f := answerFrame accepted) taken
    (h.begun_of_answerFrame (by rw [hh]; rfl))
  exact .quiet (hsent.moveOn rfl (by rintro ⟨⟩)) hkept

/-- The flush is armed behind the answer, or the signal is released because there
is none to wait for. -/
theorem Follows.handle_arming
    (h : Follows stage out c)
    (hanswered : stage = .answered → out)
    (hok : HandsOff stage c (.handler k shutdownOnRequest taken))
    (hh : c.handler = .arming accepted answered queued)
    (hstep : c.handlerStep stage shutdownOnRequest taken = some (stage', c')) :
    StepsOn stage stage' out c c' := by
  simp only [HandsOff, hh] at hok
  simp only [ConnectionIo.handlerStep, hh] at hstep
  obtain ⟨rfl, rfl⟩ := Prod.mk.inj (Option.some.inj hstep)
  have harmed (hc : (answered && queued) = true) :
      out ∨ c.nextReported = some .shutdownAnswer := by
    obtain ⟨rfl, rfl⟩ := (Bool.and_eq_true _ _).mp hc
    rcases hok with hdone | ⟨hown, hnext⟩
    · exact Or.inl (hanswered hdone)
    · obtain rfl := hown rfl
      rcases hnext rfl rfl with hnext | hexited
      · exact Or.inr hnext
      · rcases h.queued true hh with hout | hpending
        · exact Or.inl hout
        · simp [ConnectionIo.pending, WriterState.hand, hexited,
            h.emptied hexited] at hpending
  have hreleased (hc : (answered && !queued) = true) : out := by
    obtain ⟨rfl, hq⟩ := (Bool.and_eq_true _ _).mp hc
    obtain rfl : queued = false := by simpa using hq
    rcases hok with hdone | ⟨hown, -⟩
    · exact hanswered hdone
    · obtain rfl := hown rfl
      exact h.refused true hh
  have hset (out' : Prop) :
      Follows stage (out ∨ out') { c with flush := answered && queued } :=
    (h.setFlush harmed).mono id id Or.inl
  cases hrelease : (answered && !queued) with
  | true =>
      exact .quiet ((hset _).setHandler (by simp [HandlerState.accepting])
        (by simp) (by simp) (fun _ => Or.inl (hreleased hrelease)) (by simp)) id
  | false => exact .quiet ((hset _).moveOn rfl (by simp [HandlerState.accepting])) id

theorem Follows.handle_releasing
    (h : Follows stage out c)
    (hh : c.handler = .releasing)
    (hstep : c.handlerStep stage shutdownOnRequest taken = some (stage', c')) :
    StepsOn stage stage' out c c' := by
  simp only [ConnectionIo.handlerStep, hh] at hstep
  obtain ⟨rfl, rfl⟩ := Prod.mk.inj (Option.some.inj hstep)
  have hout := h.released (Or.inl hh)
  exact
    { follows := (h.mono (by simp) (fun _ => rfl) Or.inl).moveOn rfl (by rintro ⟨⟩)
      begun := by simp
      answered := fun _ => rfl
      kept := id
      first := fun _ _ => Or.inl hout }

theorem Follows.handle_joining
    (h : Follows stage out c)
    (hh : c.handler = .joining)
    (hstep : c.handlerStep stage shutdownOnRequest taken = some (stage', c')) :
    StepsOn stage stage' out c c' := by
  have hmono (out' : Prop) : Follows stage (out ∨ out') c := h.mono id id Or.inl
  simp only [ConnectionIo.handlerStep, hh] at hstep
  split at hstep
  · rename_i hexited
    obtain ⟨rfl, rfl⟩ := Prod.mk.inj (Option.some.inj hstep)
    exact .quiet ((hmono _).setHandler (by rintro ⟨⟩) (by rintro _ ⟨⟩)
      (by rintro _ ⟨⟩) (by simp) fun _ => hexited) id
  · cases hstep

/-- A flush that is still armed when the writer is gone was for an answer that is
out. -/
theorem Follows.handle_checkingFlush
    (h : Follows stage out c)
    (hh : c.handler = .checkingFlush)
    (hstep : c.handlerStep stage shutdownOnRequest taken = some (stage', c')) :
    StepsOn stage stage' out c c' := by
  simp only [ConnectionIo.handlerStep, hh] at hstep
  obtain ⟨rfl, rfl⟩ := Prod.mk.inj (Option.some.inj hstep)
  have hexited := h.stopped (Or.inl hh)
  have hout (hflush : c.flush = true) : out := by
    rcases h.armed hflush with hout | hnext
    · exact hout
    · simp [ConnectionIo.nextReported, hexited] at hnext
  have hset (out' : Prop) : Follows stage (out ∨ out') { c with flush := false } :=
    (h.setFlush (by simp)).mono id id Or.inl
  cases hflush : c.flush with
  | true =>
      exact .quiet ((hset _).setHandler (by simp [HandlerState.accepting])
        (by simp) (by simp) (fun _ => Or.inl (hout hflush)) fun _ => hexited) id
  | false =>
      exact .quiet ((hset _).setHandler (by simp [HandlerState.accepting])
        (by simp) (by simp) (by simp) fun _ => hexited) id

theorem Follows.handle_releasingLast
    (h : Follows stage out c)
    (hh : c.handler = .releasingLast)
    (hstep : c.handlerStep stage shutdownOnRequest taken = some (stage', c')) :
    StepsOn stage stage' out c c' := by
  simp only [ConnectionIo.handlerStep, hh] at hstep
  obtain ⟨rfl, rfl⟩ := Prod.mk.inj (Option.some.inj hstep)
  have hout := h.released (Or.inr hh)
  exact
    { follows := (h.mono (by simp) (fun _ => rfl) Or.inl).setHandler
        (by rintro ⟨⟩) (by rintro _ ⟨⟩) (by rintro _ ⟨⟩) (by simp)
        fun _ => h.stopped (Or.inr (Or.inl hh))
      begun := by simp
      answered := fun _ => rfl
      kept := id
      first := fun _ _ => Or.inl hout }

/-- A step of the read loop. -/
theorem Follows.handlerStep
    (h : Follows stage out c)
    (hanswered : stage = .answered → out)
    (hok : HandsOff stage c (.handler k shutdownOnRequest taken))
    (hstep : c.handlerStep stage shutdownOnRequest taken = some (stage', c')) :
    StepsOn stage stage' out c c' := by
  have hmono (out' : Prop) : Follows stage (out ∨ out') c := h.mono id id Or.inl
  cases hh : c.handler
  case sending accepted answered => exact h.handle_sending hh hstep
  case replying accepted => exact h.handle_replying hh hstep
  case arming accepted answered queued => exact h.handle_arming hanswered hok hh hstep
  case releasing => exact h.handle_releasing hh hstep
  case joining => exact h.handle_joining hh hstep
  case checkingFlush => exact h.handle_checkingFlush hh hstep
  case releasingLast => exact h.handle_releasingLast hh hstep
  -- the other states only move on, and a request that is accepted begins the shutdown
  all_goals
    simp only [HandsOff, hh] at hok
    simp only [ConnectionIo.handlerStep, hh] at hstep
  case reading q =>
    obtain ⟨rfl, rfl⟩ := Prod.mk.inj (Option.some.inj hstep)
    exact .quiet ((hmono _).moveOn rfl (by rintro ⟨⟩)) id
  case dispatching q wasRequested =>
    obtain ⟨rfl, rfl⟩ := Prod.mk.inj (Option.some.inj hstep)
    exact h.dispatch hok rfl rfl
  case rereading accepted wasRequested =>
    obtain ⟨rfl, rfl⟩ := Prod.mk.inj (Option.some.inj hstep)
    refine .quiet ((hmono _).moveOn rfl fun hc => h.begun (Or.inl ?_)) id
    rw [hh]
    exact hc
  case dispatchingRequest q =>
    obtain ⟨rfl, rfl⟩ := Prod.mk.inj (Option.some.inj hstep)
    exact h.dispatch hok rfl rfl
  case aborting =>
    obtain ⟨rfl, rfl⟩ := Prod.mk.inj (Option.some.inj hstep)
    exact .quiet ((hmono _).moveOn rfl (by rintro ⟨⟩)) id
  all_goals cases hstep

end ReadLoop

/-- A step of a connection. -/
theorem Follows.apply
    {ev : HandOffEvent}
    (h : Follows stage out c)
    (hanswered : stage = .answered → out)
    (hok : HandsOff stage c ev)
    (hstep : ev.apply stage c = some (stage', c')) :
    StepsOn stage stage' out c c' := by
  have hmono (out' : Prop) : Follows stage (out ∨ out') c := h.mono id id Or.inl
  have harrive {handler : HandlerState}
      (hplain : handler.plain = true) (hbegun : handler.accepting = false)
      (ha : (c.arrive handler).map (fun c => (stage, c)) = some (stage', c')) :
      StepsOn stage stage' out c c' := by
    obtain ⟨c₁, harr, hpair⟩ := Option.map_eq_some_iff.mp ha
    obtain ⟨rfl, rfl⟩ := Prod.mk.inj hpair
    unfold ConnectionIo.arrive at harr
    split at harr
    · obtain rfl := Option.some.inj harr
      exact .quiet ((hmono _).moveOn hplain (by simp [hbegun])) id
    · cases harr
  cases ev with
  | databaseQuery k q => exact harrive rfl rfl hstep
  | queryRequest k q => exact harrive rfl rfl hstep
  | hangUp k => exact harrive rfl rfl hstep
  | handler k shutdownOnRequest taken => exact h.handlerStep hanswered hok hstep
  | enqueue k =>
      obtain ⟨rfl, rfl⟩ := Prod.mk.inj (Option.some.inj hstep)
      unfold ConnectionIo.enqueue
      split
      · exact .quiet (hmono _) id
      · rename_i hopen
        exact .quiet ((hmono _).push hopen (by rintro ⟨⟩)) id
  | writer k ok => exact h.writerStep hok hstep
  | cancelWriter k =>
      obtain ⟨c₁, hcancel, hpair⟩ := Option.map_eq_some_iff.mp hstep
      obtain ⟨rfl, rfl⟩ := Prod.mk.inj hpair
      have hexit (hw : c.writer ≠ .reporting .shutdownAnswer ∧ c.writer ≠ .confirming) :
          StepsOn stage stage out c c.exitWriter := by
        refine .quiet ((hmono _).exitWriter (fun hpending => Or.inr ?_) hw)
          fun hout => ?_
        · simp [ConnectionIo.answerOut, ConnectionIo.exitWriter, hpending]
        · simp only [ConnectionIo.answerOut, Bool.or_eq_true,
            ConnectionIo.exitWriter] at hout ⊢
          tauto
      unfold ConnectionIo.cancelWriter at hcancel
      split at hcancel
      · rename_i hw
        obtain rfl := Option.some.inj hcancel
        exact hexit (by simp [hw])
      · rename_i hw
        obtain rfl := Option.some.inj hcancel
        exact hexit (by simp [hw])
      · cases hcancel

end Steps

section Runs

/-- Some connection's answer is out. -/
def SomeAnswerOut (s : ShutdownState) : Prop :=
  ∃ k, (s.connections k).answerOut = true

/-- The invariant of a run. -/
structure InHand (s : ShutdownState) : Prop where
  follows : ∀ k, Follows s.stage (SomeAnswerOut s) (s.connections k)
  first : s.stage = .answered → SomeAnswerOut s

theorem InHand.answeredFirst
    {s : ShutdownState}
    (h : InHand s) :
    AnsweredFirst s where
  first := h.first
  last k hwritten hrest := by
    have hrested : (s.connections k).writer = .receiving ∨
        (s.connections k).writer = .exited := by
      rcases hrest with ⟨-, hw, -⟩ | hover
      · exact Or.inl hw
      · exact Or.inr ((h.follows k).stopped (Or.inr (Or.inr hover)))
    rcases (h.follows k).written hwritten with hdone | hw | hw
    · simp [hdone]
    · simp [hw] at hrested
    · simp [hw] at hrested

/-- A step that hands off keeps the invariant. -/
theorem InHand.step
    {s : ShutdownState} {ev : HandOffEvent}
    {r : ShutdownState × List (List Empty)}
    (h : InHand s)
    (hok : HandsOff s.stage (s.connections ev.connection) ev)
    (hstep : handOff.event s ev = some r) :
    InHand r.1 := by
  obtain ⟨⟨stage', c'⟩, happly, rfl⟩ := Option.map_eq_some_iff.mp hstep
  have hsteps := (h.follows ev.connection).apply h.first hok happly
  have hout {out : Prop} (hkept : out → SomeAnswerOut s)
      (hc : out ∨ c'.answerOut = true) :
      SomeAnswerOut
        { stage := stage'
          connections := Function.update s.connections ev.connection c' } := by
    rcases hc with hc | hc
    · obtain ⟨k, hk⟩ := hkept hc
      by_cases hke : k = ev.connection
      · subst hke
        exact ⟨ev.connection, by simpa using hsteps.kept hk⟩
      · exact ⟨k, by simpa [hke] using hk⟩
    · exact ⟨ev.connection, by simpa using hc⟩
  refine ⟨fun k => ?_, fun ha => ?_⟩
  · by_cases hke : k = ev.connection
    · subst hke
      simpa using hsteps.follows.mono id id (hout id)
    · have hk := (h.follows k).mono hsteps.begun hsteps.answered
        fun hc => hout id (Or.inl hc)
      simpa [hke] using hk
  · by_cases hbefore : s.stage = .answered
    · exact hout id (Or.inl (h.first hbefore))
    · exact hout id (hsteps.first ha hbefore)

/-- A run on one connection leaves the others alone. -/
theorem connections_of_exec
    {j k : Nat} {ls : List (Label Unit HandOffEvent)}
    {s s' : Pool ShutdownState Empty}
    (hk : k ≠ j)
    (hls : ∀ ev, Label.world ev ∈ ls → ev.connection = j)
    (hrun : handOff.exec s ls = some s') :
    s'.shared.connections k = s.shared.connections k := by
  induction ls generalizing s with
  | nil =>
      cases hrun
      rfl
  | cons l ls ih =>
      obtain ⟨s₁, hfire, hrest⟩ := Option.bind_eq_some_iff.mp hrun
      rw [ih (fun ev hev => hls ev (List.mem_cons_of_mem l hev)) hrest]
      cases l with
      | run i a =>
          obtain ⟨f, -⟩ := fire_run_cases hfire
          exact f.elim
      | world ev =>
          obtain ⟨r, hr, rfl⟩ := fire_world_cases hfire
          obtain ⟨r', -, rfl⟩ := Option.map_eq_some_iff.mp hr
          rw [hls ev List.mem_cons_self]
          exact Function.update_of_ne hk ..

/-- The engine before any request: every connection has some frames queued. -/
def beforeShutdown (queued : Nat → Nat) : Pool ShutdownState Empty where
  shared :=
    { connections := fun k => { queue := List.replicate (queued k) .other } }
  threads := []

theorem inHand_beforeShutdown (queued : Nat → Nat) :
    InHand (beforeShutdown queued).shared := by
  refine ⟨fun k => ?_, by rintro ⟨⟩⟩
  constructor <;>
    simp [beforeShutdown, HandlerState.accepting, ConnectionIo.pending,
      WriterState.hand, ConnectionIo.answerOut]

end Runs

/-- **Main theorem.**  In every state that a run of steps that hand the answer
off reaches, on any connections and from any queues, the signal is `answered`
only after an answer is out, and no connection at rest whose answer has been
written leaves it at `requested`. -/
theorem answered_first
    (queued : Nat → Nat) (s : Pool ShutdownState Empty)
    (hs : Reachable handOff HandsOffCleanly (beforeShutdown queued) s) :
    AnsweredFirst s.shared := by
  have hinv : InHand s.shared := by
    refine hs.invariant (I := fun s => InHand s.shared)
      (inHand_beforeShutdown queued) ?_
    rintro s s' (⟨i, a⟩ | ev) h hok hfire
    · obtain ⟨f, -⟩ := fire_run_cases hfire
      exact f.elim
    · obtain ⟨r, hr, rfl⟩ := fire_world_cases hfire
      exact h.step hok hr
  exact hinv.answeredFirst

/-- A shutdown request on connection 0 is accepted and its answer queued. -/
def acceptShutdown : List (Label Unit HandOffEvent) :=
  .world (.databaseQuery 0 ⟨true, true⟩) ::
    List.replicate 5 (.world (.handler 0 true true))

/-- The writer of connection 0 takes a frame, sends it and reports it. -/
def writeOne : List (Label Unit HandOffEvent) :=
  List.replicate 4 (.world (.writer 0 true))

theorem answered_first_emptyQueue :
    ∃ s, handOff.exec (beforeShutdown fun _ => 0) (acceptShutdown ++ writeOne) =
        some s ∧ s.shared.stage = .answered ∧ AnsweredFirst s.shared :=
  ⟨_, rfl, rfl, answered_first (fun _ => 0) _ (reachable_of_allSteps
    (acceptShutdown ++ writeOne) .start (by decide) rfl)⟩

/-- With one frame in front of the answer, the writer takes that frame for the
answer. -/
theorem answered_before_answer :
    ¬ ∀ (queued : Nat → Nat) (ls : List (Label Unit HandOffEvent))
        (s : Pool ShutdownState Empty),
      handOff.exec (beforeShutdown queued) ls = some s →
      AnsweredFirst s.shared := by
  intro h
  obtain ⟨s, hrun, hstage, hnone⟩ :
      ∃ s, handOff.exec (beforeShutdown fun _ => 1) (acceptShutdown ++ writeOne) =
          some s ∧ s.shared.stage = .answered ∧
        (s.shared.connections 0).answerOut = false := ⟨_, rfl, rfl, rfl⟩
  obtain ⟨k, hk⟩ := (h _ _ s hrun).first hstage
  by_cases hzero : k = 0
  · subst hzero
    simp [hnone] at hk
  · have hls (ev : HandOffEvent) (hev : Label.world ev ∈ acceptShutdown ++ writeOne) :
        ev.connection = 0 := by
      simp only [acceptShutdown, writeOne, List.mem_append, List.mem_cons,
        List.mem_replicate, Label.world.injEq] at hev
      rcases hev with (rfl | ⟨-, rfl⟩) | ⟨-, rfl⟩ <;> rfl
    rw [connections_of_exec hzero hls hrun] at hk
    cases hk

end CockatielEngine
