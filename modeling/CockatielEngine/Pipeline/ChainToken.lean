import CockatielEngine.Gate.HeldRelease
import CockatielEngine.Pipeline.StageBarrier

/-!
# Pipeline: the token of the in-process chain

The in-process stage works on a message one module at a time.  What carries a
message along the chain (a task, a pending ack, a drained entry, a hold) is
counted here as a token of the chain.

**Main result.**  Every step passes the tokens of a message on or drops them;
only a departure from the pre-process stage makes a new one.
-/

namespace CockatielEngine

open TaskPool

section Defs

variable (uuid7 : String)

/-- The drained entries of the message's in-process stage. -/
def drainedTokens (todo : List (PendingAck × Bool)) : Nat :=
  todo.countP fun x => x.1.isOf uuid7 .inProcess

/-- The holds of the message on its way into the chain. -/
def heldTokens (held : List (String × HoldPoint)) : Nat :=
  held.count (uuid7, .inProcess)

/-- The pending acks of the message's in-process stage. -/
def pendingTokens (t : AckTracker) : Nat :=
  t.pending.countP fun x => x.isOf uuid7 .inProcess

/-- The tokens of the message's chain that the frame carries. -/
def chainTokens : Frame → Nat
  | .inProcess (.enter v) => if v = uuid7 then 1 else 0
  | .inProcess (.audit v) => if v = uuid7 then 1 else 0
  | .inProcess (.load v) => if v = uuid7 then 1 else 0
  | .inProcess (.config v _) => if v = uuid7 then 1 else 0
  | .inProcess (.send v _ _ _ _) => if v = uuid7 then 1 else 0
  | .inProcess (.track v _ _) => if v = uuid7 then 1 else 0
  | .inProcess (.skip v _) => if v = uuid7 then 1 else 0
  | .advance (.noteIn v _) => if v = uuid7 then 1 else 0
  | .advance (.nextIndex v _) => if v = uuid7 then 1 else 0
  | .sweep (.next sw) => drainedTokens uuid7 sw.todo
  | .sweep (.resendLoad sw entry still) =>
      drainedTokens uuid7 ((entry, still) :: sw.todo)
  | .sweep (.resendSend sw entry still _) =>
      drainedTokens uuid7 ((entry, still) :: sw.todo)
  | .sweep (.resendTrack sw entry) =>
      drainedTokens uuid7 ((entry, true) :: sw.todo)
  | .resume (.spawnReplay held) => heldTokens uuid7 held
  | .resume (.replayNext held) => heldTokens uuid7 held
  | _ => 0

/-- The tokens of the message's chain. -/
def chain (s : EnginePool) : Nat :=
  s.total (chainTokens uuid7) + pendingTokens uuid7 s.shared.ackTracker +
    heldTokens uuid7 s.shared.pauseState.held

end Defs

section Tables

variable {uuid7 : String}

@[simp] theorem drainedTokens_nil : drainedTokens uuid7 [] = 0 := rfl

theorem drainedTokens_cons
    (entry : PendingAck) (still : Bool) (todo : List (PendingAck × Bool)) :
    drainedTokens uuid7 ((entry, still) :: todo) =
      drainedTokens uuid7 todo +
        if entry.isOf uuid7 .inProcess = true then 1 else 0 := by
  simp [drainedTokens, List.countP_cons]

theorem heldTokens_holdIfGated_le
    (uuid7 : String) (s : PauseState) (v : String) (point : HoldPoint) :
    heldTokens uuid7 (s.holdIfGated v point).2.held ≤
      heldTokens uuid7 s.held + if v = uuid7 ∧ point = .inProcess then 1 else 0 := by
  unfold PauseState.holdIfGated
  split
  · exact PauseState.count_insertHeld_le _ _ _ _ _
  · exact Nat.le_add_right _ _

/-- Marking a receipt leaves an entry in its stage. -/
theorem countP_markFirst
    (p : PendingAck → Bool) (l : List PendingAck) :
    (AckTracker.markFirst p l).countP (fun x => x.isOf uuid7 .inProcess) =
      l.countP fun x => x.isOf uuid7 .inProcess := by
  induction l with
  | nil => rfl
  | cons x rest ih =>
      simp only [AckTracker.markFirst]
      split
      · simp [List.countP_cons, PendingAck.isOf]
      · simp [List.countP_cons, ih]

/-- A drain moves the expired entries from the table to its batch. -/
theorem drainedTokens_drained
    (uuid7 : String) (a : Answer) (t : AckTracker) (now : Nat) :
    drainedTokens uuid7 (SweepFrame.drained a (t.checkTimeouts now).1) +
        pendingTokens uuid7 (t.checkTimeouts now).2 =
      pendingTokens uuid7 t := by
  have hperm : (SweepFrame.drained a (t.checkTimeouts now).1).Perm
      (t.checkTimeouts now).1 := by
    unfold SweepFrame.drained
    split
    · rename_i h
      exact List.isPerm_iff.mp h
    · exact List.Perm.refl _
  have hsplit := List.countP_eq_countP_filter_add t.pending
    (fun x => x.isOf uuid7 .inProcess) (PendingAck.expired now)
  rw [drainedTokens, hperm.countP_eq]
  simp only [AckTracker.checkTimeouts, List.countP_map, pendingTokens]
  rw [hsplit]
  rfl

/-- An ack that answers an in-process entry takes it out of the table. -/
theorem pendingTokens_ackModule
    (uuid7 : String) (t : AckTracker) (now : Nat) (v m : String) :
    pendingTokens uuid7 (t.ackModule now v m).2 +
        (if (t.ackModule now v m).1.map (·.1) = some .inProcess ∧ v = uuid7
          then 1 else 0) ≤
      pendingTokens uuid7 t := by
  rcases AckTracker.ackModule_cases t now v m with
    ⟨h, -⟩ | ⟨entry, hentry, rest, hu, hm, hrest, h⟩
  · simp [h]
  · have hsplit := List.countP_eq_countP_filter_add t.pending
      (fun x => x.isOf uuid7 .inProcess) (fun x => !x.isFor v m)
    simp only [h, pendingTokens, hrest, Option.map_some, Option.some.injEq]
    by_cases hof : entry.stage = .inProcess ∧ v = uuid7
    · obtain ⟨hst, rfl⟩ := hof
      have hpos : 0 < (t.pending.filter fun x => !(!x.isFor v m)).countP
          (fun x => x.isOf v .inProcess) := by
        refine List.countP_pos_iff.mpr ⟨entry, ?_, ?_⟩
        · simp [hentry, PendingAck.isFor, hu, hm]
        · simp [PendingAck.isOf, hu, hst]
      simp only [hst, and_self, if_true]
      omega
    · simp only [hof, if_false]
      omega

end Tables

section Budget

variable {uuid7 : String} {e : Engine} {a : Answer}

attribute [local simp] chainTokens

@[simp] theorem chainTokens_next (sw : Sweep) :
    chainTokens uuid7 (.sweep (.next sw)) = drainedTokens uuid7 sw.todo := rfl

@[simp] theorem chainTokens_terminal (f : TerminalFrame) :
    chainTokens uuid7 (.terminal f) = 0 := rfl

/-- Departures are only ever added. -/
theorem timesLeft_mono (uuid7 : String) (e : Engine) (a : Answer) (f : Frame) :
    timesLeft uuid7 .preProcess e ≤
      timesLeft uuid7 .preProcess (f.step e a).shared := by
  obtain ⟨evs, hlog, -⟩ := f.records e a
  simp [timesLeft, hlog]

/-- The families that carry no token. -/
def offChain : Frame → Bool
  | .ingest _ => true
  | .recovery _ => true
  | .broadcast _ => true
  | .postProcess _ => true
  | .terminal _ => true
  | .reply (.ackModule ..) => false
  | .reply _ => true
  | .audit _ => true
  | _ => false

theorem chainTokens_new_eq_zero
    {f g : Frame}
    (hf : offChain f = true)
    (hg : g ∈ (f.step e a).new) :
    chainTokens uuid7 g = 0 := by
  cases Frame.leads hg <;> first | rfl | simp [offChain] at hf

theorem pendingTokens_step_le
    (uuid7 : String) (e : Engine) (a : Answer) {f : Frame} (hf : offChain f = true) :
    pendingTokens uuid7 (f.step e a).shared.ackTracker ≤
      pendingTokens uuid7 e.ackTracker := by
  cases htouch : f.touchesAcks with
  | false => rw [Frame.step_ackTracker e a htouch]
  | true =>
      cases f with
      | terminal f =>
          cases f with
          | ack v => exact List.filter_sublist.countP_le
          | _ => simp [Frame.touchesAcks] at htouch
      | reply f =>
          cases f with
          | receipt v m => exact (countP_markFirst _ _).le
          | ackModule v m len => simp [offChain] at hf
          | _ => simp [Frame.touchesAcks] at htouch
      | _ => simp [Frame.touchesAcks, offChain] at htouch hf

theorem heldTokens_step_le
    (uuid7 : String) (e : Engine) (a : Answer) {f : Frame} (hf : offChain f = true) :
    heldTokens uuid7 (f.step e a).shared.pauseState.held ≤
      heldTokens uuid7 e.pauseState.held := by
  cases htouch : f.touchesGate with
  | false => rw [Frame.step_pauseState e a htouch]
  | true =>
      rcases Frame.touchesGate_cases htouch with ⟨v, point, hhold⟩ | ⟨t, rfl⟩
      · rw [Frame.step_pauseState_hold e a hhold]
        have hpoint : point ≠ .inProcess := by
          rintro rfl
          cases f with
          | broadcast f => cases f <;> simp [Frame.hold] at hhold
          | postProcess f => cases f <;> simp [Frame.hold] at hhold
          | inProcess => simp [offChain] at hf
          | _ => simp [Frame.hold] at hhold
        simpa [hpoint] using
          heldTokens_holdIfGated_le uuid7 e.pauseState v point
      · simp [offChain] at hf

/-- What a step of `f` on `e` does to the tokens: it passes them on, or the
message leaves its pre-process stage. -/
def Budgeted (uuid7 : String) (e : Engine) (f : Frame)
    (o : Outcome Engine Frame) : Prop :=
  (o.new.map (chainTokens uuid7)).sum + pendingTokens uuid7 o.shared.ackTracker +
      heldTokens uuid7 o.shared.pauseState.held + timesLeft uuid7 .preProcess e ≤
    chainTokens uuid7 f + pendingTokens uuid7 e.ackTracker +
      heldTokens uuid7 e.pauseState.held +
      timesLeft uuid7 .preProcess o.shared

theorem budgeted_of_offChain
    {f : Frame} (hf : offChain f = true) :
    Budgeted uuid7 e f (f.step e a) := by
  have hnew : ((f.step e a).new.map (chainTokens uuid7)).sum = 0 := by
    refine List.sum_eq_zero fun n hn => ?_
    obtain ⟨g, hg, rfl⟩ := List.mem_map.mp hn
    exact chainTokens_new_eq_zero hf hg
  have hpending := pendingTokens_step_le uuid7 e a hf
  have hheld := heldTokens_step_le uuid7 e a hf
  have hleft := timesLeft_mono uuid7 e a f
  unfold Budgeted
  omega

theorem FanoutFrame.budgeted
    (f : FanoutFrame)
    (hf : fansOut uuid7 .inProcess (.fanout f) = 0) :
    Budgeted uuid7 e (.fanout f) (f.step e a) := by
  cases f with
  | send fo todo =>
      have hother : ¬ (fo.uuid7 = uuid7 ∧ fo.stage = .inProcess) := by
        simpa using hf
      cases todo with
      | nil =>
          simp only [step]
          split
          · simp [Budgeted]
          · cases hst : fo.stage with
            | preProcess =>
                by_cases hu : fo.uuid7 = uuid7 <;>
                  simp [Budgeted, nobody, Engine.logged, timesLeft, hu]
                omega
            | inProcess =>
                have hu : fo.uuid7 ≠ uuid7 := fun hu => hother ⟨hu, hst⟩
                simp [Budgeted, nobody, Engine.logged, timesLeft, hu]
            | postProcess =>
                simp [Budgeted, nobody, Engine.logged, timesLeft]
      | cons m todo =>
          simp only [step]
          split <;> simp [Budgeted, Engine.logged, timesLeft]
  | track fo m todo =>
      have hother : ¬ (fo.uuid7 = uuid7 ∧ fo.stage = .inProcess) := by
        simpa using hf
      simp [Budgeted, step, timesLeft, pendingTokens,
        AckTracker.track, PendingAck.isOf, hother]

theorem InProcessFrame.budgeted (f : InProcessFrame) :
    Budgeted uuid7 e (.inProcess f) (f.step e a) := by
  cases f with
  | enter v =>
      have hholds := heldTokens_holdIfGated_le uuid7 e.pauseState v
        .inProcess
      simp only [step]
      cases hgate : e.pauseState.holdIfGated v .inProcess with
      | mk held s =>
          rw [hgate] at hholds
          cases held with
          | true =>
              simp only [and_true] at hholds
              simp [Budgeted, timesLeft]
              omega
          | false => simp [Budgeted]
  | audit v =>
      simp only [step]
      repeat' split
      all_goals simp [Budgeted]
  | load v =>
      simp only [step]
      split <;> simp [Budgeted, Engine.putState, timesLeft]
  | config v state =>
      simp only [step]
      repeat' split
      all_goals simp [Budgeted]
  | send v state m timeout len =>
      simp only [step]
      split <;> simp [Budgeted, Engine.logged, timesLeft]
  | track v m timeout =>
      simp [Budgeted, step, timesLeft, pendingTokens,
        AckTracker.track, PendingAck.isOf, List.countP_cons]
      omega
  | skip v len =>
      simp only [step]
      split
      · simp [Budgeted]
      · split <;> simp [Budgeted, Engine.putState, timesLeft]

theorem AdvanceFrame.budgeted (f : AdvanceFrame) :
    Budgeted uuid7 e (.advance f) (f.step e a) := by
  cases f with
  | notePre v =>
      by_cases hv : v = uuid7 <;>
        simp [Budgeted, step, Engine.logged, Engine.modifyState,
          Engine.putState, timesLeft, hv]
      omega
  | noteIn v len =>
      simp [Budgeted, step, Engine.modifyState, Engine.putState,
        timesLeft]
  | nextIndex v len =>
      simp only [step]
      split
      · simp [Budgeted]
      · split <;> simp [Budgeted, Engine.putState, timesLeft]
  | refresh v =>
      simp only [step]
      split <;> simp [Budgeted]
  | storeUserData v userData =>
      simp [Budgeted, step, Engine.modifyState, Engine.putState,
        timesLeft]

/-- The timeout path spends the token of its entry, if it has one. -/
theorem SweepFrame.expire_budgeted
    {f : Frame} (sw : Sweep) (entry : PendingAck) (still : Bool)
    (hf : chainTokens uuid7 f = drainedTokens uuid7 ((entry, still) :: sw.todo)) :
    Budgeted uuid7 e f (expire e sw entry still) := by
  have hnote : (noteSweptOut e entry).ackTracker = e.ackTracker ∧
      (noteSweptOut e entry).pauseState = e.pauseState ∧
      timesLeft uuid7 .preProcess (noteSweptOut e entry) =
        timesLeft uuid7 .preProcess e := by
    unfold noteSweptOut
    split <;> simp [Engine.logged, timesLeft]
  obtain ⟨hack, hpause, hleft⟩ := hnote
  have hadvance : chainTokens uuid7 (advanceFrame entry.uuid7
      sw.config.inProcessModules.length entry.stage) ≤
        if entry.isOf uuid7 .inProcess = true then 1 else 0 := by
    cases hst : entry.stage <;>
      simp [advanceFrame, PendingAck.isOf, hst]
  rw [drainedTokens_cons] at hf
  simp only [expire]
  split
  · split <;> simp [Budgeted, hf, -chainTokens]
  · split
    · simp [Budgeted, hack, hpause, hleft, hf, -chainTokens]
      omega
    · simp [Budgeted, hf, -chainTokens]

theorem SweepFrame.budgeted (f : SweepFrame) :
    Budgeted uuid7 e (.sweep f) (f.step e a) := by
  cases f with
  | start =>
      simp only [step]
      split <;> simp [Budgeted]
  | config => simp [Budgeted, step]
  | drain cfg =>
      have hdrain := drainedTokens_drained uuid7 a e.ackTracker e.now
      have hleft := timesLeft_mono uuid7 e a
        (.sweep (.drain cfg))
      simp only [Frame.step, step, shared_go] at hleft
      simp [Budgeted, step]
      omega
  | next sw =>
      simp only [step]
      split
      · simp [Budgeted]
      · rename_i entry still todo htodo
        split
        · simp [Budgeted, htodo]
        · refine expire_budgeted _ _ _ ?_
          simp [htodo]
  | resendLoad sw entry still =>
      simp only [step]
      split
      · exact expire_budgeted _ _ _ rfl
      · simp [Budgeted]
  | resendSend sw entry still container =>
      simp only [step]
      split
      · simp [Budgeted, Engine.logged, timesLeft, drainedTokens_cons]
      · exact expire_budgeted _ _ _ rfl
  | resendTrack sw entry =>
      simp [Budgeted, step, timesLeft, pendingTokens,
        AckTracker.reTrack, AckTracker.freshEntry, PendingAck.isOf,
        List.countP_cons, drainedTokens_cons]
      omega

theorem ackModule_budgeted (v m : String) (len : Nat) :
    Budgeted uuid7 e (.reply (.ackModule v m len))
      ((Frame.reply (.ackModule v m len)).step e a) := by
  have hack := pendingTokens_ackModule uuid7 e.ackTracker e.now v m
  have hleft := timesLeft_mono uuid7 e a
    (.reply (.ackModule v m len))
  simp only [Frame.step, ReplyFrame.step] at hleft ⊢
  cases hanswer : e.ackTracker.ackModule e.now v m with
  | mk answer tracker =>
      rw [hanswer] at hack hleft
      cases answer with
      | none => simp [Budgeted]
      | some answer =>
          obtain ⟨stage, elapsed, still⟩ := answer
          simp only [Option.map_some, Option.some.injEq] at hack
          cases stage with
          | preProcess =>
              simp only [shared_go] at hleft
              cases still <;> simp [Budgeted] at hack ⊢ <;> omega
          | inProcess =>
              simp only [shared_go, true_and] at hleft hack
              simp [Budgeted]
              omega
          | postProcess =>
              cases still <;>
                simp [Budgeted, Engine.logged, timesLeft] at hack hleft ⊢ <;>
                omega

theorem gateStep_budgeted (t : GateTask) :
    Budgeted uuid7 e (.gate t) (gateStep e t) := by
  cases t with
  | resume told =>
      simp [Budgeted, gateStep, GateTask.step, PauseState.resume,
        heldTokens, timesLeft, Nat.add_comm]
  | clearBlock reason =>
      have hheld := PauseState.held_clearBlock e.pauseState reason
      simp only [gateStep, GateTask.step]
      split <;> simp [Budgeted, hheld, timesLeft]
  | setBlock reason =>
      simp [Budgeted, gateStep, GateTask.step, timesLeft]
  | pause =>
      simp [Budgeted, gateStep, GateTask.step, timesLeft]
  | _ =>
      simp [Budgeted, gateStep, GateTask.step, PauseState.deferPause,
        PauseState.deferResume, timesLeft]

theorem ResumeFrame.budgeted (f : ResumeFrame) :
    Budgeted uuid7 e (.resume f) (f.step e) := by
  cases f with
  | restartClocks =>
      simp [Budgeted, step, timesLeft, pendingTokens,
        AckTracker.restartClocks, List.countP_map, Function.comp_def,
        PendingAck.isOf]
  | spawnReplay held =>
      cases held <;> simp [Budgeted, step, Outcome.new]
  | replayNext held =>
      cases held with
      | nil => simp [Budgeted, step]
      | cons h held =>
          obtain ⟨v, point⟩ := h
          cases point <;>
            simp [Budgeted, step, replayHold, heldTokens,
              List.count_cons]
          omega

/-- Every step passes the tokens of a message on or drops them, unless the
message leaves its pre-process stage. -/
theorem chain_budget
    (f : Frame)
    (hf : fansOut uuid7 .inProcess f = 0) :
    Budgeted uuid7 e f (f.step e a) := by
  cases f with
  | fanout f => exact f.budgeted hf
  | inProcess f => exact f.budgeted
  | advance f => exact f.budgeted
  | sweep f => exact f.budgeted
  | gate t => exact gateStep_budgeted t
  | resume f => exact f.budgeted
  | reply f =>
      cases f with
      | ackModule v m len => exact ackModule_budgeted v m len
      | _ => exact budgeted_of_offChain rfl
  | _ => exact budgeted_of_offChain rfl

end Budget

end CockatielEngine
