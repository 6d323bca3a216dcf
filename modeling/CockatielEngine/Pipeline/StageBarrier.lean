import CockatielEngine.Pipeline.ReplyOwnership

/-!
# Pipeline: the stage barrier

A message leaves its pre-process or post-process stage when the table holds no
pending ack of it any more.  The fanout fills the table one recipient at a time
and the sweep takes entries out that it may put back, so the table can be empty
before the stage is done.

**Main result.**  When the last entry only goes while nothing of the stage is
still going out (no fanout, no re-send), a message leaves the stage at most
once, and only after every recipient it was sent to has answered or timed out.
-/

namespace CockatielEngine

open TaskPool

section Defs

variable (uuid7 : String) (stage : Stage)

/-- The entry belongs to the stage of the message. -/
def PendingAck.isOf (x : PendingAck) : Bool :=
  decide (x.uuid7 = uuid7 ∧ x.stage = stage)

/-- The frame is a fanout of the stage in progress. -/
def fansOut : Frame → Nat
  | .fanout (.send fo _) => if fo.uuid7 = uuid7 ∧ fo.stage = stage then 1 else 0
  | .fanout (.track fo _ _) =>
      if fo.uuid7 = uuid7 ∧ fo.stage = stage then 1 else 0
  | _ => 0

/-- A drained entry of the stage is going to be re-sent. -/
def owesResend (todo : List (PendingAck × Bool)) : Bool :=
  todo.any fun x => x.1.isOf uuid7 stage && SweepFrame.wantsResend x.1

/-- The frame is a sweep that still re-sends the stage. -/
def resends : Frame → Bool
  | .sweep (.next sw) => owesResend uuid7 stage sw.todo
  | .sweep (.resendLoad sw entry _) =>
      entry.isOf uuid7 stage || owesResend uuid7 stage sw.todo
  | .sweep (.resendSend sw entry _ _) =>
      entry.isOf uuid7 stage || owesResend uuid7 stage sw.todo
  | .sweep (.resendTrack sw entry) =>
      entry.isOf uuid7 stage || owesResend uuid7 stage sw.todo
  | _ => false

/-- The sweep can take the message out of the stage with one of `todo`. -/
def mayLeave (sw : Sweep) (todo : List (PendingAck × Bool)) : Bool :=
  (todo.any fun x => x.1.isOf uuid7 stage && !x.2) &&
    !sw.resent.contains uuid7 && !sw.advanced.contains uuid7 &&
    !sw.criticalUuids.contains uuid7

/-- The frame is about to take the message out of the stage. -/
def leaving : Frame → Nat
  | .advance (.notePre v) => if v = uuid7 ∧ stage = .preProcess then 1 else 0
  | .sweep (.next sw) => (mayLeave uuid7 stage sw sw.todo).toNat
  | .sweep (.resendLoad sw entry still) =>
      (mayLeave uuid7 stage sw ((entry, still) :: sw.todo)).toNat
  | .sweep (.resendSend sw entry still _) =>
      (mayLeave uuid7 stage sw ((entry, still) :: sw.todo)).toNat
  | .sweep (.resendTrack sw entry) =>
      if entry.uuid7 = uuid7 then 0 else (mayLeave uuid7 stage sw sw.todo).toNat
  | _ => 0

/-- How often the message has left the stage. -/
def timesLeft (e : Engine) : Nat :=
  e.log.count (.left uuid7 stage)

/-- The event is the recipient's answer to the stage message, or its timeout. -/
def Event.settles (moduleName : String) : Event → Bool
  | .answered v st m => v = uuid7 && st = stage && m = moduleName
  | .timedOut entry => entry.isOf uuid7 stage && entry.moduleName = moduleName
  | _ => false

/-- The recipient has answered the stage message or has timed out. -/
def Settled (e : Engine) (m : String) : Prop :=
  ∃ ev ∈ e.log, ev.settles uuid7 stage m = true

/-- The message has left the stage at most once, and if it has, every recipient
that was sent it is settled. -/
def Barrier (s : EnginePool) : Prop :=
  timesLeft uuid7 stage s.shared ≤ 1 ∧
    (0 < timesLeft uuid7 stage s.shared →
      ∀ m c, .sent uuid7 stage m c ∈ s.shared.log → Settled uuid7 stage s.shared m)

/-- The module owes the last pending acks of the message, and one of them is of
the stage. -/
def LastAck (e : Engine) (m : String) : Prop :=
  (∃ x ∈ e.ackTracker.pending, x.isFor uuid7 m = true ∧ x.stage = stage) ∧
    ∀ x ∈ e.ackTracker.pending, x.uuid7 = uuid7 → x.moduleName = m

/-- The last pending acks of the message have expired, and one of them is of the
stage. -/
def LastExpiry (e : Engine) : Prop :=
  (∃ x ∈ e.ackTracker.pending,
    x.isOf uuid7 stage = true ∧ x.expired e.now = true) ∧
    ∀ x ∈ e.ackTracker.pending, x.uuid7 = uuid7 → x.expired e.now = true

/-- Nothing of the stage is still going out: no fanout, no re-send. -/
def NothingGoesOut (s : EnginePool) : Prop :=
  s.total (fansOut uuid7 stage) = 0 ∧
    ∀ f ∈ s.frames, resends uuid7 stage f = false

/-- The message has neither left the stage nor ended, and is not about to. -/
def StillIn (s : EnginePool) : Prop :=
  s.total (leaving uuid7 stage) = 0 ∧ timesLeft uuid7 stage s.shared = 0 ∧
    .cleared uuid7 ∉ s.shared.log

/-- The steps that keep the barrier.  The last entry of the message goes (by an
ack, by a sweep, or with the end of the message) only while nothing of the
stage is going out; a fanout that reached nobody is the only thing going out; a
sweep that advances the message has no entry of the stage left to re-send; and
the stage's fanout starts only while the message is still in the stage. -/
def LeavesCleanly (s : EnginePool) (a : Answer) : Frame → Prop
  | .reply (.ackModule v m _) =>
      v = uuid7 → LastAck uuid7 stage s.shared m → NothingGoesOut uuid7 stage s
  | .sweep (.drain _) =>
      LastExpiry uuid7 stage s.shared → NothingGoesOut uuid7 stage s
  | .terminal (.ack v) => v = uuid7 → NothingGoesOut uuid7 stage s
  | .fanout (.send fo []) =>
      fo.uuid7 = uuid7 → fo.stage = stage → fo.sentAny = false →
        (∀ x ∈ s.shared.ackTracker.pending, x.isOf uuid7 stage = false) ∧
          s.total (fansOut uuid7 stage) = 1 ∧
          ∀ f ∈ s.frames, resends uuid7 stage f = false
  | .sweep (.next sw) =>
      ∀ x ∈ sw.todo.head?, x.1.uuid7 = uuid7 →
        SweepFrame.wantsResend x.1 = false →
        SweepFrame.advances sw x.1 x.2 = true →
        owesResend uuid7 stage sw.todo.tail = false
  | .sweep (.resendLoad sw entry still) =>
      entry.uuid7 = uuid7 → s.shared.pipelineStates uuid7 = none →
        SweepFrame.advances sw entry still = true →
        owesResend uuid7 stage sw.todo = false
  | .sweep (.resendSend sw entry still _) =>
      entry.uuid7 = uuid7 → a.outcome ≠ .sent →
        SweepFrame.advances sw entry still = true →
        owesResend uuid7 stage sw.todo = false
  | .broadcast (.config v _) =>
      v = uuid7 → stage = .preProcess → StillIn uuid7 stage s
  | .postProcess (.config v _) =>
      v = uuid7 → stage = .postProcess → StillIn uuid7 stage s
  | _ => True

instance (e : Engine) (m : String) : Decidable (Settled uuid7 stage e m) :=
  inferInstanceAs (Decidable (∃ ev ∈ e.log, _))

instance (s : EnginePool) (a : Answer) (f : Frame) :
    Decidable (LeavesCleanly uuid7 stage s a f) :=
  match f with
  | .broadcast (.config _ _) => by unfold LeavesCleanly StillIn; infer_instance
  | .fanout (.send _ []) => by unfold LeavesCleanly; infer_instance
  | .fanout (.send _ (_ :: _)) => instDecidableTrue
  | .postProcess (.config _ _) => by unfold LeavesCleanly StillIn; infer_instance
  | .terminal (.ack _) => by unfold LeavesCleanly NothingGoesOut; infer_instance
  | .reply (.ackModule _ _ _) =>
      by unfold LeavesCleanly LastAck NothingGoesOut; infer_instance
  | .sweep (.drain _) =>
      by unfold LeavesCleanly LastExpiry NothingGoesOut; infer_instance
  | .sweep (.next _) => by unfold LeavesCleanly; infer_instance
  | .sweep (.resendLoad _ _ _) => by unfold LeavesCleanly; infer_instance
  | .sweep (.resendSend _ _ _ _) => by unfold LeavesCleanly; infer_instance
  | .ingest _ | .recovery _ | .broadcast (.enter _) | .broadcast (.load _)
  | .fanout (.track _ _ _) | .inProcess _ | .postProcess (.enter _)
  | .postProcess (.audit _) | .postProcess (.load _) | .terminal (.check _ _)
  | .terminal (.snapshot _) | .terminal (.writeHeld _ _) | .terminal (.take _ _)
  | .terminal (.write _ _ _) | .reply (.check _) | .reply (.record _)
  | .reply (.audio _) | .reply (.ackConfig _ _) | .reply (.receipt _ _) | .advance _
  | .sweep .start | .sweep .config | .sweep (.resendTrack _ _) | .gate _ | .resume _
  | .audit _ => instDecidableTrue

/-- The drained entries of one message agree on whether it has others. -/
def Agree (todo : List (PendingAck × Bool)) : Prop :=
  ∀ x ∈ todo, ∀ y ∈ todo, x.1.uuid7 = y.1.uuid7 → x.2 = y.2

/-- The entries a sweep still has to process agree. -/
def SweepAgrees : Frame → Prop
  | .sweep (.next sw) => Agree sw.todo
  | .sweep (.resendLoad sw entry still) => Agree ((entry, still) :: sw.todo)
  | .sweep (.resendSend sw entry still _) => Agree ((entry, still) :: sw.todo)
  | .sweep (.resendTrack sw _) => Agree sw.todo
  | _ => True

/-- Nothing of the stage is pending, and no fanout of it is in progress. -/
def Over (s : EnginePool) : Prop :=
  (∀ x ∈ s.shared.ackTracker.pending, x.isOf uuid7 stage = false) ∧
    s.total (fansOut uuid7 stage) = 0

/-- How often the message has left the stage or is about to. -/
def departures (s : EnginePool) : Nat :=
  s.total (leaving uuid7 stage) + timesLeft uuid7 stage s.shared

/-- The invariant of a run that leaves cleanly. -/
structure Guarded (s : EnginePool) : Prop where
  waiting : s.Waiting Frame.IsLoop
  agree : ∀ f ∈ s.frames, SweepAgrees f
  once : departures uuid7 stage s ≤ 1
  gone : 0 < departures uuid7 stage s →
    Over uuid7 stage s ∧
      ∀ f ∈ s.frames, resends uuid7 stage f = true → leaving uuid7 stage f = 1
  ended : .cleared uuid7 ∈ s.shared.log →
    Over uuid7 stage s ∧ ∀ f ∈ s.frames, resends uuid7 stage f = false
  sent : ∀ m c, .sent uuid7 stage m c ∈ s.shared.log →
    Settled uuid7 stage s.shared m ∨
      (.cleared uuid7 ∈ s.shared.log ∧ departures uuid7 stage s = 0) ∨
      s.shared.ackTracker.isPendingFor uuid7 m stage = true ∨
      Dispatching s uuid7 stage m

end Defs

section Budget

variable {uuid7 : String} {stage : Stage} {e : Engine} {a : Answer}

/-- The step can make the message leave although nobody was about to. -/
def Parts (uuid7 : String) (stage : Stage) (e : Engine) : Frame → Prop
  | .fanout (.send fo []) =>
      fo.uuid7 = uuid7 ∧ fo.stage = stage ∧ fo.sentAny = false
  | .reply (.ackModule v m _) => v = uuid7 ∧ LastAck uuid7 stage e m
  | .sweep (.drain _) => LastExpiry uuid7 stage e
  | _ => False

@[simp] theorem timesLeft_logged (ev : Event) :
    timesLeft uuid7 stage (e.logged ev) =
      timesLeft uuid7 stage e + if ev = .left uuid7 stage then 1 else 0 := by
  simp [timesLeft, Engine.logged, List.count_cons]

/-- A step that records no departure leaves the count alone. -/
theorem timesLeft_step
    {f : Frame}
    (h : ¬ Records e a f (.left uuid7 stage)) :
    timesLeft uuid7 stage (f.step e a).shared = timesLeft uuid7 stage e := by
  obtain ⟨evs, hlog, hevs⟩ := f.records e a
  have hnone : evs.count (.left uuid7 stage) = 0 :=
    List.count_eq_zero.mpr fun hmem => h (hevs _ hmem)
  simp [timesLeft, hlog, hnone]

/-- Dropping entries takes nobody out of the stage. -/
theorem mayLeave_mono
    {sw sw' : Sweep} {todo todo' : List (PendingAck × Bool)}
    (htodo : ∀ x ∈ todo', x ∈ todo)
    (hresent : sw'.resent = sw.resent)
    (hcritical : sw'.criticalUuids = sw.criticalUuids)
    (hadvanced : ∀ v ∈ sw.advanced, v ∈ sw'.advanced)
    (h : mayLeave uuid7 stage sw' todo' = true) :
    mayLeave uuid7 stage sw todo = true := by
  simp only [mayLeave, hresent, hcritical, Bool.and_eq_true, List.any_eq_true,
    Bool.not_eq_true', List.contains_eq_mem, decide_eq_false_iff_not] at h ⊢
  obtain ⟨⟨⟨⟨x, hx, hleaves⟩, hres⟩, hadv⟩, hcrit⟩ := h
  exact ⟨⟨⟨⟨x, htodo x hx, hleaves⟩, hres⟩, fun hmem => hadv (hadvanced _ hmem)⟩,
    hcrit⟩

/-- A sweep that has re-sent or advanced the message does not take it out. -/
theorem mayLeave_resent
    {sw : Sweep} {todo : List (PendingAck × Bool)}
    (h : uuid7 ∈ sw.resent ∨ uuid7 ∈ sw.advanced) :
    mayLeave uuid7 stage sw todo = false := by
  rcases h with h | h <;> simp [mayLeave, h]

@[simp] theorem leaving_next (sw : Sweep) :
    leaving uuid7 stage (.sweep (.next sw)) =
      (mayLeave uuid7 stage sw sw.todo).toNat := rfl

@[simp] theorem leaving_notePre (v : String) :
    leaving uuid7 stage (.advance (.notePre v)) =
      if v = uuid7 ∧ stage = .preProcess then 1 else 0 := rfl

@[simp] theorem leaving_fanout (f : FanoutFrame) :
    leaving uuid7 stage (.fanout f) = 0 := rfl

@[simp] theorem leaving_nobody (v : String) (st : Stage) :
    leaving uuid7 stage (FanoutFrame.nobody v st) = 0 := by
  cases st <;> rfl

theorem toNat_le_of_imp {b c : Bool} (h : b = true → c = true) :
    b.toNat ≤ c.toNat := by
  cases b with
  | false => simp
  | true => simp [h rfl]

/-- The timeout path takes the message out of the stage at most once, and only
if it could. -/
theorem expire_budget
    (uuid7 : String) (stage : Stage)
    (sw : Sweep) (entry : PendingAck) (still : Bool) :
    (((SweepFrame.expire e sw entry still).new).map (leaving uuid7 stage)).sum +
        timesLeft uuid7 stage (SweepFrame.expire e sw entry still).shared ≤
      (mayLeave uuid7 stage sw ((entry, still) :: sw.todo)).toNat +
        timesLeft uuid7 stage e := by
  have hrest (sw' : Sweep)
      (hresent : sw'.resent = sw.resent)
      (hcritical : sw'.criticalUuids = sw.criticalUuids)
      (hadvanced : ∀ v ∈ sw.advanced, v ∈ sw'.advanced) :
      (mayLeave uuid7 stage sw' sw.todo).toNat ≤
        (mayLeave uuid7 stage sw ((entry, still) :: sw.todo)).toNat :=
    toNat_le_of_imp (mayLeave_mono (fun _ => List.mem_cons_of_mem _) hresent
      hcritical hadvanced)
  have hsame := hrest sw rfl rfl (fun _ => id)
  simp only [SweepFrame.expire]
  split
  · split
    · simpa using hsame
    · have hfailed := hrest { sw with failed := entry.uuid7 :: sw.failed } rfl rfl
        (fun _ => id)
      simpa [leaving] using hfailed
  · split
    · rename_i hadv
      have hnext := hrest { sw with advanced := entry.uuid7 :: sw.advanced } rfl
        rfl (fun _ => List.mem_cons_of_mem _)
      by_cases hof : entry.uuid7 = uuid7 ∧ entry.stage = stage
      · -- the entry is of the stage: it takes the message out
        obtain ⟨rfl, rfl⟩ := hof
        have hleaves : mayLeave entry.uuid7 entry.stage sw
            ((entry, still) :: sw.todo) = true := by
          simp only [SweepFrame.advances, Bool.and_eq_true] at hadv
          simp only [mayLeave, PendingAck.isOf, List.any_cons, Bool.and_eq_true]
          simp_all
        have hdone : mayLeave entry.uuid7 entry.stage
            { sw with advanced := entry.uuid7 :: sw.advanced } sw.todo = false :=
          mayLeave_resent (Or.inr (List.mem_cons_self ..))
        simp only [hleaves, new_go, List.map_cons, List.map_nil, List.sum_cons,
          List.sum_nil, leaving_next, hdone, shared_go]
        cases hstage : entry.stage <;>
          simp [SweepFrame.advanceFrame, SweepFrame.noteSweptOut, hstage, leaving,
            Nat.add_comm]
      · have hframe : leaving uuid7 stage (SweepFrame.advanceFrame entry.uuid7
            sw.config.inProcessModules.length entry.stage) = 0 := by
          cases hstage : entry.stage <;>
            simp only [SweepFrame.advanceFrame, leaving, ite_eq_right_iff]
          rintro ⟨hu, rfl⟩
          exact absurd ⟨hu, hstage⟩ hof
        have hnote : timesLeft uuid7 stage (SweepFrame.noteSweptOut e entry) =
            timesLeft uuid7 stage e := by
          simp only [SweepFrame.noteSweptOut]
          split
          · rename_i hstage
            have hne : ¬ (entry.uuid7 = uuid7 ∧ Stage.postProcess = stage) := by
              rwa [← hstage]
            simp [hne]
          · simp
        simp only [new_go, List.map_cons, List.map_nil, List.sum_cons,
          List.sum_nil, hframe, shared_go, hnote, leaving_next]
        omega
    · simpa using hsame

/-- Only an ack and a sweep leave a task behind that is about to take a message
out of its stage. -/
theorem leaving_new_eq_zero
    {f g : Frame}
    (hack : ∀ v m len, f ≠ .reply (.ackModule v m len))
    (hsweep : ∀ x, f ≠ .sweep x)
    (hg : g ∈ (f.step e a).new) :
    leaving uuid7 stage g = 0 := by
  cases Frame.leads hg with
  | ack_pre _ => exact absurd rfl (hack _ _ _)
  | sweep_config _ => rfl
  | sweep_drain => rfl
  | sweep_first _ => exact absurd rfl (hsweep _)
  | sweep_resendLoad _ _ => exact absurd rfl (hsweep _)
  | sweep_expire _ _ _ => exact absurd rfl (hsweep _)
  | sweep_gone _ _ => exact absurd rfl (hsweep _)
  | sweep_resendSend _ => exact absurd rfl (hsweep _)
  | sweep_resendTrack _ => exact absurd rfl (hsweep _)
  | sweep_unsent _ _ => exact absurd rfl (hsweep _)
  | sweep_resent => exact absurd rfl (hsweep _)
  | fanout_nobody _ => exact leaving_nobody _ _
  | @replay_hold _ point _ => cases point <;> rfl
  | _ => rfl

/-- A step that starts no departure and records none. -/
theorem quiet_budget
    {f : Frame}
    (hnew : ∀ g ∈ (f.step e a).new, leaving uuid7 stage g = 0)
    (hleft : ¬ Records e a f (.left uuid7 stage)) :
    (((f.step e a).new).map (leaving uuid7 stage)).sum +
        timesLeft uuid7 stage (f.step e a).shared ≤
      leaving uuid7 stage f + timesLeft uuid7 stage e := by
  have hsum : (((f.step e a).new).map (leaving uuid7 stage)).sum = 0 := by
    refine List.sum_eq_zero fun n hn => ?_
    obtain ⟨g, hg, rfl⟩ := List.mem_map.mp hn
    exact hnew g hg
  rw [hsum, timesLeft_step hleft]
  omega

theorem SweepFrame.budget
    (f : SweepFrame)
    (hparts : ∀ cfg, f = .drain cfg → ¬ LastExpiry uuid7 stage e) :
    (((f.step e a).new).map (leaving uuid7 stage)).sum +
        timesLeft uuid7 stage (f.step e a).shared ≤
      leaving uuid7 stage (.sweep f) + timesLeft uuid7 stage e := by
  cases f with
  | start =>
      simp only [step]
      split <;> simp [leaving]
  | config => simp [step, leaving]
  | drain cfg =>
      have hnot : mayLeave uuid7 stage
          { config := cfg
            todo := drained a (e.ackTracker.checkTimeouts e.now).1
            criticalUuids := criticalUuids cfg
              (drained a (e.ackTracker.checkTimeouts e.now).1) }
          (drained a (e.ackTracker.checkTimeouts e.now).1) = false := by
        by_contra hleaves
        refine hparts cfg rfl ?_
        simp only [mayLeave, Bool.not_eq_false, Bool.and_eq_true,
          List.any_eq_true, Bool.not_eq_true'] at hleaves
        obtain ⟨⟨⟨⟨⟨x, still⟩, hx, hof, hstill⟩, -⟩, -⟩, -⟩ := hleaves
        obtain ⟨hmem, hexp, hlast⟩ :=
          (AckTracker.mem_checkTimeouts_iff ..).mp (mem_drained_iff.mp hx)
        have hu : x.uuid7 = uuid7 := (of_decide_eq_true hof).1
        rw [hlast, AckTracker.hasPending_eq_false_iff, hu] at hstill
        refine ⟨⟨x, hmem, hof, hexp⟩, fun y hy hyu => ?_⟩
        by_contra hlive
        exact hstill y ((AckTracker.mem_checkTimeouts_rest_iff ..).mpr
          ⟨hy, by simpa using hlive⟩) hyu
      have hleft : ¬ Records e a (.sweep (.drain cfg)) (.left uuid7 stage) := by
        intro h
        cases h with
        | sweep_left hf _ _ => simp at hf
      have hcount := timesLeft_step hleft
      simp only [Frame.step, step, shared_go] at hcount
      simp [step, hnot, hcount]
  | next sw =>
      simp only [step]
      split
      · simp
      · rename_i entry still todo htodo
        split
        · simp [leaving, htodo, mayLeave]
        · have hexp := expire_budget (e := e) uuid7 stage
            { sw with todo := todo } entry still
          simpa [htodo, mayLeave] using hexp
  | resendLoad sw entry still =>
      simp only [step]
      split
      · exact expire_budget _ _ sw entry still
      · simp [leaving]
  | resendSend sw entry still container =>
      simp only [step]
      split
      · simp only [leaving, new_go, List.map_cons, List.map_nil, List.sum_cons,
          List.sum_nil, shared_go, timesLeft_logged]
        split
        · simp
        · have hmono (h : mayLeave uuid7 stage sw sw.todo = true) :
              mayLeave uuid7 stage sw ((entry, still) :: sw.todo) = true :=
            mayLeave_mono (fun _ => List.mem_cons_of_mem _) rfl rfl (fun _ => id) h
          simpa using toNat_le_of_imp hmono
      · exact expire_budget _ _ sw entry still
  | resendTrack sw entry =>
      by_cases hu : entry.uuid7 = uuid7
      · have hdone : mayLeave uuid7 stage
            { sw with resent := entry.uuid7 :: sw.resent } sw.todo = false :=
          mayLeave_resent (Or.inl (by simp [hu]))
        simp [step, leaving, hu, timesLeft] at hdone ⊢
        simp [hdone]
      · simp [step, leaving, hu, timesLeft, mayLeave, Ne.symm hu]

/-- The ack that leaves the message without a pending entry is the last one. -/
theorem lastAck_of_ackModule
    {m : String} {elapsed : Nat} {tracker : AckTracker}
    (h : e.ackTracker.ackModule e.now uuid7 m =
      (some (stage, elapsed, false), tracker)) :
    LastAck uuid7 stage e m := by
  rcases e.ackTracker.ackModule_cases e.now uuid7 m with
    ⟨hnone, -⟩ | ⟨entry, hentry, rest, hu, hm, hrest, hack⟩
  · simp [hnone] at h
  · rw [hack] at h
    simp only [Prod.mk.injEq, Option.some.injEq] at h
    obtain ⟨⟨hstage, -, hlast⟩, -⟩ := h
    rw [AckTracker.hasPending_eq_false_iff, hrest] at hlast
    refine ⟨⟨entry, hentry, decide_eq_true ⟨hu, hm⟩, hstage⟩, fun x hx hxu => ?_⟩
    by_contra hxm
    exact hlast x (List.mem_filter.mpr ⟨hx, by simp [PendingAck.isFor, hxm]⟩) hxu

theorem ackModule_budget
    (uuid7 : String) (stage : Stage) (v m : String) (len : Nat) :
    (((Frame.step e a (.reply (.ackModule v m len))).new).map
        (leaving uuid7 stage)).sum +
        timesLeft uuid7 stage
          (Frame.step e a (.reply (.ackModule v m len))).shared ≤
      timesLeft uuid7 stage e + 1 := by
  have hanswers : (ReplyFrame.answers e.ackTracker v m).count
      (.left uuid7 stage) = 0 :=
    List.count_eq_zero.mpr (by simp [ReplyFrame.answers])
  simp only [Frame.step, ReplyFrame.step]
  split
  · simp
  · rename_i st elapsed still tracker hack
    cases st with
    | preProcess =>
        cases still with
        | true => simp [timesLeft, hanswers]
        | false =>
            simp only [Bool.false_eq_true, if_false, new_go, shared_go, timesLeft,
              List.count_append, hanswers, List.map_cons, List.map_nil,
              List.sum_cons, List.sum_nil, leaving_notePre]
            split <;> omega
    | inProcess => simp [timesLeft, hanswers, leaving]
    | postProcess =>
        cases still with
        | true => simp [timesLeft, hanswers]
        | false =>
            simp only [Bool.false_eq_true, if_false, new_go, shared_go,
              timesLeft_logged]
            simp only [timesLeft, List.count_append, hanswers]
            split <;> simp [leaving]

/-- Everything a step can do to the departures of a message: it passes on what
was about to leave, or it is one of the steps that make the message leave. -/
theorem leaving_budget (uuid7 : String) (stage : Stage) (f : Frame) :
    (((f.step e a).new).map (leaving uuid7 stage)).sum +
        timesLeft uuid7 stage (f.step e a).shared ≤
      leaving uuid7 stage f + timesLeft uuid7 stage e ∨
    Parts uuid7 stage e f ∧
      (((f.step e a).new).map (leaving uuid7 stage)).sum +
        timesLeft uuid7 stage (f.step e a).shared ≤
      leaving uuid7 stage f + timesLeft uuid7 stage e + 1 := by
  have hquiet
      (hack : ∀ v m len, f ≠ .reply (.ackModule v m len))
      (hsweep : ∀ x, f ≠ .sweep x)
      (hpre : ∀ v, f ≠ .advance (.notePre v))
      (hnobody : ∀ fo, f ≠ .fanout (.send fo [])) :
      (((f.step e a).new).map (leaving uuid7 stage)).sum +
          timesLeft uuid7 stage (f.step e a).shared ≤
        leaving uuid7 stage f + timesLeft uuid7 stage e :=
    quiet_budget
      (fun g hg => leaving_new_eq_zero hack hsweep hg)
      (fun hleft => by
        cases hleft with
        | nobody _ => exact hnobody _ rfl
        | ack_left _ => exact hack _ _ _ rfl
        | pre_left => exact hpre _ rfl
        | sweep_left hf _ _ =>
            rcases hf with ⟨_, rfl⟩ | rfl | ⟨_, rfl⟩ <;> exact hsweep _ rfl)
  cases f with
  | sweep f =>
      by_cases hlast : ∃ cfg, f = .drain cfg ∧ LastExpiry uuid7 stage e
      · obtain ⟨cfg, rfl, hlast⟩ := hlast
        refine Or.inr ⟨hlast, ?_⟩
        have hleft : ¬ Records e a (.sweep (.drain cfg)) (.left uuid7 stage) := by
          intro h
          cases h with
          | sweep_left hf _ _ => simp at hf
        have hcount := timesLeft_step hleft
        rw [hcount]
        have hone : ∀ b : Bool, b.toNat ≤ 1 := by decide
        simpa [Frame.step, SweepFrame.step, leaving, Nat.add_comm] using hone _
      · push Not at hlast
        exact Or.inl (SweepFrame.budget f hlast)
  | reply f =>
      cases f with
      | ackModule v m len =>
          by_cases hlast : v = uuid7 ∧ LastAck uuid7 stage e m
          · refine Or.inr ⟨hlast, ?_⟩
            simpa [leaving] using
              ackModule_budget (a := a) uuid7 stage v m len
          · refine Or.inl (quiet_budget (fun g hg => ?_) fun hleft => ?_)
            · cases Frame.leads hg with
              | ack_pre hack =>
                  simp only [leaving, ite_eq_right_iff, one_ne_zero, imp_false]
                  rintro ⟨rfl, rfl⟩
                  exact hlast ⟨rfl, lastAck_of_ackModule hack⟩
              | ack_in _ => rfl
              | ack_post _ => rfl
            · cases hleft with
              | ack_left hack => exact hlast ⟨rfl, lastAck_of_ackModule hack⟩
              | sweep_left hf _ _ => simp at hf
      | _ => exact Or.inl (hquiet (by simp) (by simp) (by simp) (by simp))
  | fanout f =>
      cases f with
      | track fo m todo =>
          exact Or.inl (hquiet (by simp) (by simp) (by simp) (by simp))
      | send fo todo =>
          cases todo with
          | cons m todo =>
              exact Or.inl (hquiet (by simp) (by simp) (by simp) (by simp))
          | nil =>
              simp only [Frame.step, FanoutFrame.step]
              split
              · simp
              · rename_i hsent
                by_cases hof : fo.uuid7 = uuid7 ∧ fo.stage = stage
                · refine Or.inr ⟨⟨hof.1, hof.2, by simpa using hsent⟩, ?_⟩
                  simp [hof.1, hof.2]
                · refine Or.inl ?_
                  simp [hof]
  | advance f =>
      cases f with
      | notePre v =>
          refine Or.inl ?_
          by_cases hof : v = uuid7 ∧ stage = .preProcess
          · obtain ⟨rfl, rfl⟩ := hof
            simp [Frame.step, AdvanceFrame.step, leaving, Engine.modifyState,
              Engine.putState, timesLeft, Engine.logged, Nat.add_comm]
          · have hne : ¬ (v = uuid7 ∧ Stage.preProcess = stage) := by
              rwa [eq_comm (a := Stage.preProcess)]
            simp [Frame.step, AdvanceFrame.step, leaving, hne]
            simp [timesLeft, Engine.modifyState, Engine.putState]
      | _ => exact Or.inl (hquiet (by simp) (by simp) (by simp) (by simp))
  | _ => exact Or.inl (hquiet (by simp) (by simp) (by simp) (by simp))

end Budget

section Sweeping

variable {uuid7 : String} {stage : Stage} {e : Engine} {a : Answer}

theorem Agree.sub
    {todo todo' : List (PendingAck × Bool)}
    (h : Agree todo)
    (hsub : ∀ x ∈ todo', x ∈ todo) :
    Agree todo' :=
  fun x hx y hy => h x (hsub x hx) y (hsub y hy)

theorem agree_drained
    {t : AckTracker} {now : Nat} :
    Agree (SweepFrame.drained a (t.checkTimeouts now).1) := by
  rintro ⟨x, b⟩ hx ⟨y, c⟩ hy huv
  obtain ⟨-, -, rfl⟩ := (AckTracker.mem_checkTimeouts_iff ..).mp
    (SweepFrame.mem_drained_iff.mp hx)
  obtain ⟨-, -, rfl⟩ := (AckTracker.mem_checkTimeouts_iff ..).mp
    (SweepFrame.mem_drained_iff.mp hy)
  rw [huv]

theorem Expires.agrees
    {sw : Sweep} {entry : PendingAck} {still : Bool} {g : Frame}
    (h : Expires sw entry still g)
    (hagree : Agree sw.todo) :
    SweepAgrees g := by
  rcases h.shape with ⟨sw', rfl, htodo⟩ | ⟨_, rfl⟩ | rfl | ⟨_, rfl⟩ | rfl
  · simpa [SweepAgrees, htodo] using hagree
  all_goals trivial

/-- The entries a sweep has to process go on agreeing. -/
theorem sweepAgrees_new
    {f g : Frame}
    (hf : SweepAgrees f)
    (hg : g ∈ (f.step e a).new) :
    SweepAgrees g := by
  have htail {x : PendingAck × Bool} {todo : List (PendingAck × Bool)}
      (h : Agree (x :: todo)) : Agree todo :=
    h.sub fun _ => List.mem_cons_of_mem _
  cases Frame.leads hg with
  | sweep_first htodo =>
      subst htodo
      exact agree_drained
  | sweep_resendLoad htodo _ =>
      simpa [SweepAgrees, htodo] using hf
  | sweep_expire htodo _ hexp =>
      simp only [SweepAgrees, htodo] at hf
      exact hexp.agrees (htail hf)
  | sweep_gone _ hexp => exact hexp.agrees (htail hf)
  | sweep_unsent _ hexp => exact hexp.agrees (htail hf)
  | sweep_resendSend _ => exact hf
  | sweep_resendTrack _ => exact htail hf
  | sweep_resent => exact hf
  | @fanout_nobody fo _ => cases fo.stage <;> trivial
  | @replay_hold _ point _ => cases point <;> trivial
  | _ => trivial

theorem Expires.resends
    {sw : Sweep} {entry : PendingAck} {still : Bool} {g : Frame}
    (h : Expires sw entry still g)
    (hg : resends uuid7 stage g = true) :
    owesResend uuid7 stage sw.todo = true := by
  rcases h.shape with ⟨sw', rfl, htodo⟩ | ⟨_, rfl⟩ | rfl | ⟨_, rfl⟩ | rfl
  · simpa [CockatielEngine.resends, htodo] using hg
  all_goals simp [CockatielEngine.resends] at hg

/-- A sweep re-sends the stage only if it did so before, or has just drained an
entry of it. -/
theorem resends_of_new
    {f g : Frame}
    (hg : g ∈ (f.step e a).new)
    (h : resends uuid7 stage g = true) :
    resends uuid7 stage f = true ∨
      ∃ x ∈ e.ackTracker.pending, x.isOf uuid7 stage = true := by
  cases Frame.leads hg with
  | sweep_first htodo =>
      simp only [resends, owesResend, List.any_eq_true, Bool.and_eq_true] at h
      obtain ⟨x, hx, hof, -⟩ := h
      rw [htodo, SweepFrame.mem_drained_iff] at hx
      exact Or.inr ⟨x.1, ((AckTracker.mem_checkTimeouts_iff ..).mp hx).1, hof⟩
  | sweep_resendLoad htodo hwants =>
      refine Or.inl ?_
      simpa [resends, owesResend, htodo, hwants] using h
  | sweep_expire htodo _ hexp =>
      have howes := hexp.resends h
      refine Or.inl ?_
      simp only [owesResend] at howes
      simp [resends, owesResend, htodo, howes]
  | sweep_gone _ hexp => exact Or.inl (by simp [resends, hexp.resends h])
  | sweep_unsent _ hexp => exact Or.inl (by simp [resends, hexp.resends h])
  | sweep_resendSend _ => exact Or.inl h
  | sweep_resendTrack _ => exact Or.inl h
  | sweep_resent => exact Or.inl (by simp_all [resends])
  | @fanout_nobody fo _ =>
      cases hstage : fo.stage <;>
        simp [FanoutFrame.nobody, hstage, resends] at h
  | @replay_hold _ point _ => cases point <;> simp [replayHold, resends] at h
  | _ => simp [resends] at h

/-- What a sweep re-sends of a stage that is about to be left also leaves it. -/
theorem mayLeave_of_agree
    {sw sw' : Sweep} {todo todo' : List (PendingAck × Bool)}
    (hagree : Agree todo)
    (hleaves : mayLeave uuid7 stage sw todo = true)
    (hsub : ∀ x ∈ todo', x ∈ todo)
    (howes : owesResend uuid7 stage todo' = true)
    (hresent : uuid7 ∈ sw'.resent → uuid7 ∈ sw.resent)
    (hadvanced : uuid7 ∈ sw'.advanced → uuid7 ∈ sw.advanced)
    (hcritical : sw'.criticalUuids = sw.criticalUuids) :
    mayLeave uuid7 stage sw' todo' = true := by
  simp only [mayLeave, hcritical, Bool.and_eq_true, List.any_eq_true,
    Bool.not_eq_true', List.contains_eq_mem, decide_eq_false_iff_not]
    at hleaves ⊢
  obtain ⟨⟨⟨⟨x, hx, hxof, hxlast⟩, hres⟩, hadv⟩, hcrit⟩ := hleaves
  simp only [owesResend, List.any_eq_true, Bool.and_eq_true] at howes
  obtain ⟨y, hy, hyof, -⟩ := howes
  have hyx : y.1.uuid7 = x.1.uuid7 :=
    (of_decide_eq_true hyof).1.trans (of_decide_eq_true hxof).1.symm
  have hylast : y.2 = false := by
    rw [hagree y (hsub y hy) x hx hyx, hxlast]
  exact ⟨⟨⟨⟨y, hy, hyof, hylast⟩, fun h => hres (hresent h)⟩,
    fun h => hadv (hadvanced h)⟩, hcrit⟩

/-- When a sweep that is about to take the message out goes on to re-send the
stage, it is still about to take the message out. -/
theorem Expires.leaving
    {sw : Sweep} {entry : PendingAck} {still : Bool} {g : Frame}
    (h : Expires sw entry still g)
    (hagree : Agree ((entry, still) :: sw.todo))
    (hleaves : mayLeave uuid7 stage sw ((entry, still) :: sw.todo) = true)
    (hclean : entry.uuid7 = uuid7 →
      SweepFrame.advances sw entry still = true →
      owesResend uuid7 stage sw.todo = false)
    (hg : CockatielEngine.resends uuid7 stage g = true) :
    CockatielEngine.leaving uuid7 stage g = 1 := by
  have howes := h.resends hg
  have hnext (sw' : Sweep)
      (htodo : sw'.todo = sw.todo)
      (hresent : sw'.resent = sw.resent)
      (hadvanced : uuid7 ∈ sw'.advanced → uuid7 ∈ sw.advanced)
      (hcritical : sw'.criticalUuids = sw.criticalUuids) :
      CockatielEngine.leaving uuid7 stage (.sweep (.next sw')) = 1 := by
    have hmay : mayLeave uuid7 stage sw' sw.todo = true :=
      mayLeave_of_agree hagree hleaves (fun _ => List.mem_cons_of_mem _) howes
        (by simp [hresent]) hadvanced hcritical
    simp [htodo, hmay]
  cases h with
  | skip => exact hnext sw rfl rfl id rfl
  | failed _ _ =>
      exact hnext { sw with failed := entry.uuid7 :: sw.failed } rfl rfl id rfl
  | advanced _ hadv =>
      by_cases hu : entry.uuid7 = uuid7
      · simp [hclean hu hadv] at howes
      · refine hnext { sw with advanced := entry.uuid7 :: sw.advanced } rfl rfl ?_
          rfl
        intro hmem
        exact (List.mem_cons.mp hmem).resolve_left (Ne.symm hu)
  | fail _ _ => simp [CockatielEngine.resends] at hg
  | advance _ _ =>
      cases hstage : entry.stage <;>
        simp [SweepFrame.advanceFrame, hstage, CockatielEngine.resends] at hg

/-- The same for one step of any frame; a sweep that has just re-sent the
message is not about to take it out any more. -/
theorem leaving_of_resends
    {s : EnginePool} {f g : Frame}
    (hok : LeavesCleanly uuid7 stage s a f)
    (hagree : SweepAgrees f)
    (hleaves : leaving uuid7 stage f = 1)
    (hg : g ∈ (f.step s.shared a).new)
    (h : resends uuid7 stage g = true) :
    leaving uuid7 stage g = 1 ∨
      (((f.step s.shared a).new).map (leaving uuid7 stage)).sum = 0 ∧
        timesLeft uuid7 stage (f.step s.shared a).shared =
          timesLeft uuid7 stage s.shared := by
  have htrue {b : Bool} (hb : b.toNat = 1) : b = true := by
    cases b <;> simp_all
  cases Frame.leads hg with
  | sweep_first _ => simp [leaving] at hleaves
  | sweep_resendLoad htodo _ =>
      exact Or.inl (by simpa [leaving, htodo, mayLeave] using hleaves)
  | @sweep_expire sw entry still todo _ htodo hwants hexp =>
      simp only [SweepAgrees, htodo] at hagree
      simp only [leaving_next, htodo] at hleaves
      refine Or.inl (hexp.leaving hagree (htrue hleaves) ?_ h)
      intro hu hadv
      have hclean := hok (entry, still) (by simp [htodo]) hu hwants hadv
      simpa [htodo] using hclean
  | sweep_gone hgone hexp =>
      refine Or.inl (hexp.leaving hagree (htrue hleaves) ?_ h)
      intro hu hadv
      exact hok hu (hu ▸ hgone) hadv
  | sweep_resendSend _ => exact Or.inl hleaves
  | @sweep_resendTrack sw entry still container hsent =>
      by_cases hu : entry.uuid7 = uuid7
      · refine Or.inr ?_
        simp [Frame.step, SweepFrame.step, hsent, leaving, hu]
      · have howes : owesResend uuid7 stage sw.todo = true := by
          simpa [resends, PendingAck.isOf, hu] using h
        have hmay : mayLeave uuid7 stage sw sw.todo = true :=
          mayLeave_of_agree hagree (htrue hleaves)
            (fun _ => List.mem_cons_of_mem _) howes id id rfl
        exact Or.inl (by simp [leaving, hu, hmay])
  | sweep_unsent hunsent hexp =>
      refine Or.inl (hexp.leaving hagree (htrue hleaves) ?_ h)
      intro hu hadv
      exact hok hu hunsent hadv
  | @sweep_resent sw entry =>
      have hu : ¬ entry.uuid7 = uuid7 := by
        rintro hu
        simp [leaving, hu] at hleaves
      refine Or.inl ?_
      simpa [leaving, hu, mayLeave, Ne.symm hu] using hleaves
  | @fanout_nobody fo _ =>
      cases hstage : fo.stage <;>
        simp [FanoutFrame.nobody, hstage, resends] at h
  | @replay_hold _ point _ => cases point <;> simp [replayHold, resends] at h
  | _ => simp [resends] at h

end Sweeping

section Fanouts

variable {uuid7 : String} {stage : Stage} {e : Engine} {a : Answer}

/-- The step starts the stage's fanout. -/
def StartsFanout (uuid7 : String) (stage : Stage) : Frame → Prop
  | .broadcast (.config v _) => v = uuid7 ∧ stage = .preProcess
  | .postProcess (.config v _) => v = uuid7 ∧ stage = .postProcess
  | _ => False

@[simp] theorem fansOut_send (fo : Fanout) (todo : List String) :
    fansOut uuid7 stage (.fanout (.send fo todo)) =
      if fo.uuid7 = uuid7 ∧ fo.stage = stage then 1 else 0 := rfl

@[simp] theorem fansOut_track (fo : Fanout) (m : String) (todo : List String) :
    fansOut uuid7 stage (.fanout (.track fo m todo)) =
      if fo.uuid7 = uuid7 ∧ fo.stage = stage then 1 else 0 := rfl

@[simp] theorem fansOut_nobody (v : String) (st : Stage) :
    fansOut uuid7 stage (FanoutFrame.nobody v st) = 0 := by
  cases st <;> rfl

theorem FanoutFrame.fansOut_new (f : FanoutFrame) :
    ((f.step e a).new.map (fansOut uuid7 stage)).sum ≤
      fansOut uuid7 stage (.fanout f) := by
  cases f with
  | send fo todo =>
      cases todo <;> simp only [step]
      all_goals
        split
        all_goals simp
  | track fo m todo => simp [step]

theorem Expires.fansOut
    {sw : Sweep} {entry : PendingAck} {still : Bool} {g : Frame}
    (h : Expires sw entry still g) :
    CockatielEngine.fansOut uuid7 stage g = 0 := by
  rcases h.shape with ⟨_, rfl, _⟩ | ⟨_, rfl⟩ | rfl | ⟨_, rfl⟩ | rfl <;> rfl

/-- A fanout of the stage is only ever started at the configuration step. -/
theorem fansOut_new
    {f : Frame}
    (h : ¬ StartsFanout uuid7 stage f) :
    ((f.step e a).new.map (fansOut uuid7 stage)).sum ≤ fansOut uuid7 stage f := by
  by_cases hfan : ∃ fan, f = .fanout fan
  · obtain ⟨fan, rfl⟩ := hfan
    exact fan.fansOut_new
  · push Not at hfan
    have hzero : ∀ g ∈ (f.step e a).new, fansOut uuid7 stage g = 0 := by
      intro g hg
      cases Frame.leads hg with
      | broadcast_fanout => simpa [StartsFanout, eq_comm] using h
      | postProcess_fanout => simpa [StartsFanout, eq_comm] using h
      | fanout_nobody _ => exact absurd rfl (hfan _)
      | fanout_track _ _ => exact absurd rfl (hfan _)
      | fanout_skip => exact absurd rfl (hfan _)
      | fanout_send => exact absurd rfl (hfan _)
      | sweep_expire _ _ hexp => exact hexp.fansOut
      | sweep_gone _ hexp => exact hexp.fansOut
      | sweep_unsent _ hexp => exact hexp.fansOut
      | @replay_hold _ point _ => cases point <;> rfl
      | _ => rfl
    have hsum : ((f.step e a).new.map (fansOut uuid7 stage)).sum = 0 := by
      refine List.sum_eq_zero fun n hn => ?_
      obtain ⟨g, hg, rfl⟩ := List.mem_map.mp hn
      exact hzero g hg
    omega

/-- What the step adds to the table of the stage comes from a fanout of it or
from a re-send. -/
theorem isOf_of_tracks
    {f : Frame} {y : PendingAck} {now : Nat}
    (hstage : stage ≠ .inProcess)
    (h : f.tracks now = some y)
    (hof : y.isOf uuid7 stage = true) :
    fansOut uuid7 stage f = 1 ∨
      resends uuid7 stage f = true ∧ leaving uuid7 stage f = 0 := by
  obtain ⟨hu, hst⟩ : y.uuid7 = uuid7 ∧ y.stage = stage := of_decide_eq_true hof
  cases f with
  | fanout f =>
      cases f with
      | send => simp [Frame.tracks] at h
      | track fo m todo =>
          obtain rfl := Option.some.inj h
          exact Or.inl (by simp [show fo.uuid7 = uuid7 from hu,
            show fo.stage = stage from hst])
  | inProcess f =>
      cases f with
      | track v m timeout =>
          obtain rfl := Option.some.inj h
          exact absurd hst.symm hstage
      | _ => simp [Frame.tracks] at h
  | sweep f =>
      cases f with
      | resendTrack sw entry =>
          obtain rfl := Option.some.inj h
          have hentry : entry.uuid7 = uuid7 ∧ entry.stage = stage := ⟨hu, hst⟩
          exact Or.inr (by simp [resends, leaving, PendingAck.isOf, hentry])
      | _ => simp [Frame.tracks] at h
  | _ => simp [Frame.tracks] at h

end Fanouts

section Invariant

variable {uuid7 : String} {stage : Stage}
variable {s : EnginePool} {i : Nat} {a : Answer} {f : Frame} {rest : List Frame}

theorem departures_run
    (uuid7 : String) (stage : Stage)
    (hi : s.threads[i]? = some (f :: rest)) :
    departures uuid7 stage (afterRun s i a f rest) ≤
      departures uuid7 stage s ∨
    Parts uuid7 stage s.shared f ∧
      departures uuid7 stage (afterRun s i a f rest) ≤
        departures uuid7 stage s + 1 := by
  have htotal := total_fire_run_le (P := engine) (leaving uuid7 stage)
    (o := f.step s.shared a) hi
  rcases leaving_budget (e := s.shared) (a := a) uuid7 stage f with hle | ⟨hparts, hle⟩
  · refine Or.inl ?_
    simp only [departures, afterRun]
    omega
  · refine Or.inr ⟨hparts, ?_⟩
    simp only [departures, afterRun]
    omega

/-- A step that makes the message leave has something of the stage before it. -/
theorem not_over_of_parts
    (hparts : Parts uuid7 stage s.shared f)
    (hf : f ∈ s.frames) :
    ¬ Over uuid7 stage s := by
  rintro ⟨hpending, hfans⟩
  cases f with
  | fanout f =>
      cases f with
      | track => exact hparts
      | send fo todo =>
          cases todo with
          | cons => exact hparts
          | nil =>
              obtain ⟨hu, hst, -⟩ := hparts
              have hle := le_total (fansOut uuid7 stage) hf
              simp [hfans, hu, hst] at hle
  | reply f =>
      cases f with
      | ackModule v m len =>
          obtain ⟨rfl, ⟨x, hx, hfor, hst⟩, -⟩ := hparts
          have hof : x.isOf v stage = true :=
            decide_eq_true ⟨(of_decide_eq_true hfor).1, hst⟩
          simp [hpending x hx] at hof
      | _ => exact hparts
  | sweep f =>
      cases f with
      | drain cfg =>
          obtain ⟨⟨x, hx, hof, -⟩, -⟩ := hparts
          simp [hpending x hx] at hof
      | _ => exact hparts
  | _ => exact hparts

/-- The stage's fanout starts only before the message has left or ended. -/
theorem stillIn_of_startsFanout
    (hok : LeavesCleanly uuid7 stage s a f)
    (h : StartsFanout uuid7 stage f) :
    StillIn uuid7 stage s := by
  cases f with
  | broadcast f =>
      cases f with
      | config v state => exact hok h.1 h.2
      | _ => exact h.elim
  | postProcess f =>
      cases f with
      | config v state => exact hok h.1 h.2
      | _ => exact h.elim
  | _ => exact h.elim

/-- A stage that is over stays so. -/
theorem Over.run
    (h : Over uuid7 stage s)
    (hstage : stage ≠ .inProcess)
    (hresends : ∀ g ∈ s.frames, resends uuid7 stage g = true →
      leaving uuid7 stage g = 1)
    (hstarts : ¬ StartsFanout uuid7 stage f)
    (hi : s.threads[i]? = some (f :: rest)) :
    Over uuid7 stage (afterRun s i a f rest) := by
  have hf := mem_frames_of_getElem? hi (List.mem_cons_self ..)
  obtain ⟨hpending, hfans⟩ := h
  constructor
  · intro y hy
    by_contra hof
    rw [Bool.not_eq_false] at hof
    rcases Frame.mem_pending_step s.shared a hy with ⟨x, hx, hyx⟩ | htracks
    · have hxof : x.isOf uuid7 stage = true := by
        rcases hyx with rfl | rfl | ⟨-, rfl⟩ <;> exact hof
      simp [hpending x hx] at hxof
    · rcases isOf_of_tracks hstage htracks hof with hfan | ⟨hres, hzero⟩
      · have hle := le_total (fansOut uuid7 stage) hf
        omega
      · have hone := hresends f hf hres
        omega
  · have htotal := total_fire_run_le (P := engine) (fansOut uuid7 stage)
      (o := f.step s.shared a) hi
    have hnew := fansOut_new (e := s.shared) (a := a) hstarts
    simp only [afterRun]
    omega

/-- A step that makes the message leave ends the stage. -/
theorem over_of_parts
    (hok : LeavesCleanly uuid7 stage s a f)
    (hparts : Parts uuid7 stage s.shared f)
    (hi : s.threads[i]? = some (f :: rest)) :
    Over uuid7 stage (afterRun s i a f rest) ∧
      ∀ g ∈ s.frames, resends uuid7 stage g = false := by
  have htotal := total_fire_run_le (P := engine) (fansOut uuid7 stage)
    (o := f.step s.shared a) hi
  have hnew : ¬ StartsFanout uuid7 stage f →
      ((f.step s.shared a).new.map (fansOut uuid7 stage)).sum ≤
        fansOut uuid7 stage f :=
    fansOut_new
  cases f with
  | fanout f =>
      cases f with
      | track => exact hparts.elim
      | send fo todo =>
          cases todo with
          | cons => exact hparts.elim
          | nil =>
              obtain ⟨hu, hst, hsent⟩ := hparts
              obtain ⟨hpending, hone, hresends⟩ := hok hu hst hsent
              refine ⟨⟨fun y hy => hpending y ?_, ?_⟩, hresends⟩
              · simpa [Frame.step, FanoutFrame.step, hsent, Engine.logged] using hy
              · have hzero : (((Frame.fanout (.send fo [])).step s.shared a).new.map
                    (fansOut uuid7 stage)).sum = 0 := by
                  simp [Frame.step, FanoutFrame.step, hsent]
                have hself : fansOut uuid7 stage (.fanout (.send fo [])) = 1 := by
                  simp [hu, hst]
                simp only [afterRun]
                omega
  | reply f =>
      cases f with
      | ackModule v m len =>
          obtain ⟨rfl, hlast⟩ := hparts
          obtain ⟨hfans, hresends⟩ := hok rfl hlast
          refine ⟨⟨fun y hy => ?_, ?_⟩, hresends⟩
          · by_contra hof
            rw [Bool.not_eq_false] at hof
            have hu : y.uuid7 = v := (of_decide_eq_true hof).1
            rcases s.shared.ackTracker.ackModule_cases s.shared.now v m with
              ⟨-, hnone⟩ | ⟨entry, -, rest, -, -, hrest, hack⟩
            · obtain ⟨x, hx, hfor, -⟩ := hlast.1
              simp [hnone x hx] at hfor
            · have hmem : y ∈ rest.pending := by
                cases hstage : entry.stage <;>
                  simp only [Frame.step, ReplyFrame.step, hack, hstage] at hy
                · exact hy
                · exact hy
                · split at hy <;> exact hy
              rw [hrest, List.mem_filter] at hmem
              have hm := hlast.2 y hmem.1 hu
              simp [PendingAck.isFor, hu, hm] at hmem
          · have hle := hnew (by simp [StartsFanout])
            simp only [afterRun]
            omega
      | _ => exact hparts.elim
  | sweep f =>
      cases f with
      | drain cfg =>
          obtain ⟨hfans, hresends⟩ := hok hparts
          refine ⟨⟨fun y hy => ?_, ?_⟩, hresends⟩
          · by_contra hof
            rw [Bool.not_eq_false] at hof
            obtain ⟨hmem, hlive⟩ :=
              (AckTracker.mem_checkTimeouts_rest_iff ..).mp hy
            simp [hparts.2 y hmem (of_decide_eq_true hof).1] at hlive
          · have hle := hnew (by simp [StartsFanout])
            simp only [afterRun]
            omega
      | _ => exact hparts.elim
  | _ => exact hparts.elim

/-- Of the steps that make a message leave, only a drain can have something to
re-send, and then the departure is still to come. -/
theorem new_of_parts
    {g : Frame}
    (hparts : Parts uuid7 stage s.shared f)
    (hg : g ∈ (f.step s.shared a).new)
    (h : resends uuid7 stage g = true) :
    leaving uuid7 stage g ≤ 1 ∧ (f.step s.shared a).new = [g] ∧
      timesLeft uuid7 stage (f.step s.shared a).shared =
        timesLeft uuid7 stage s.shared := by
  cases f with
  | fanout f =>
      cases f with
      | track => exact hparts.elim
      | send fo todo =>
          cases todo with
          | cons => exact hparts.elim
          | nil =>
              cases Frame.leads hg with
              | fanout_nobody _ =>
                  cases hstage : fo.stage <;>
                    simp [FanoutFrame.nobody, hstage, resends] at h
  | reply f =>
      cases f with
      | ackModule v m len => cases Frame.leads hg <;> simp [resends] at h
      | _ => exact hparts.elim
  | sweep f =>
      cases f with
      | drain cfg =>
          have hleft : ¬ Records s.shared a (.sweep (.drain cfg))
              (.left uuid7 stage) := by
            intro hrecord
            cases hrecord with
            | sweep_left hf _ _ => simp at hf
          simp only [Frame.step, SweepFrame.step, new_go,
            List.mem_singleton] at hg
          subst hg
          exact ⟨by simpa using Bool.toNat_le _, by simp [Frame.step, SweepFrame.step],
            timesLeft_step hleft⟩
      | _ => exact hparts.elim
  | _ => exact hparts.elim

/-- What is re-sent of a stage that is left is about to leave with it. -/
theorem Guarded.gone_run
    (h : Guarded uuid7 stage s)
    (hstage : stage ≠ .inProcess)
    (hok : LeavesCleanly uuid7 stage s a f)
    (hi : s.threads[i]? = some (f :: rest))
    (hgone : 0 < departures uuid7 stage (afterRun s i a f rest)) :
    Over uuid7 stage (afterRun s i a f rest) ∧
      ∀ g ∈ (afterRun s i a f rest).frames,
        resends uuid7 stage g = true → leaving uuid7 stage g = 1 := by
  have hf := mem_frames_of_getElem? hi (List.mem_cons_self ..)
  have htotal := total_fire_run_le (P := engine) (leaving uuid7 stage)
    (o := f.step s.shared a) hi
  have hself := le_total (leaving uuid7 stage) hf
  have honce := h.once
  by_cases hparts : Parts uuid7 stage s.shared f
  · -- the step makes the message leave: nobody was about to before
    obtain ⟨hover, hresends⟩ := over_of_parts hok hparts hi
    have hzero : ¬ 0 < departures uuid7 stage s := fun hpos =>
      not_over_of_parts hparts hf (h.gone hpos).1
    refine ⟨hover, fun g hg hres => ?_⟩
    rcases mem_frames_after_run hi hg with hg | hg
    · obtain ⟨hone, hnew, hleft⟩ := new_of_parts hparts hg hres
      simp only [hnew, List.map_cons, List.map_nil, List.sum_cons,
        List.sum_nil] at htotal
      simp only [departures, afterRun, hleft] at hgone hzero
      omega
    · simp [hresends g hg] at hres
  · -- the step passes on what was about to leave
    have hbefore : 0 < departures uuid7 stage s := by
      rcases departures_run (a := a) uuid7 stage hi with
        hle | ⟨hpart, -⟩
      · omega
      · exact absurd hpart hparts
    obtain ⟨hover, hresends⟩ := h.gone hbefore
    have hstarts : ¬ StartsFanout uuid7 stage f := by
      intro hstart
      obtain ⟨htot, hleft, -⟩ := stillIn_of_startsFanout hok hstart
      simp only [departures] at hbefore
      omega
    refine ⟨hover.run hstage hresends hstarts hi, fun g hg hres => ?_⟩
    rcases mem_frames_after_run hi hg with hg | hg
    · rcases resends_of_new hg hres with hfres | ⟨x, hx, hof⟩
      · have hone := hresends f hf hfres
        rcases leaving_of_resends hok (h.agree f hf) hone hg hres with
          hgone' | ⟨hnone, hleft⟩
        · exact hgone'
        · simp only [departures, afterRun, hleft] at hgone honce
          omega
      · simp [hover.1 x hx] at hof
    · exact hresends g hg hres

/-- Once the message has ended, nothing of the stage comes back. -/
theorem Guarded.ended_run
    (h : Guarded uuid7 stage s)
    (hstage : stage ≠ .inProcess)
    (hok : LeavesCleanly uuid7 stage s a f)
    (hi : s.threads[i]? = some (f :: rest))
    (hended : .cleared uuid7 ∈ (afterRun s i a f rest).shared.log) :
    Over uuid7 stage (afterRun s i a f rest) ∧
      ∀ g ∈ (afterRun s i a f rest).frames, resends uuid7 stage g = false := by
  have hf := mem_frames_of_getElem? hi (List.mem_cons_self ..)
  obtain ⟨evs, hlog, hevs⟩ := f.records s.shared a
  simp only [hlog, List.mem_append] at hended
  by_cases hbefore : .cleared uuid7 ∈ s.shared.log
  · obtain ⟨hover, hresends⟩ := h.ended hbefore
    have hstarts : ¬ StartsFanout uuid7 stage f := fun hstart =>
      (stillIn_of_startsFanout hok hstart).2.2 hbefore
    refine ⟨hover.run hstage (fun g hg hres => ?_) hstarts hi, fun g hg => ?_⟩
    · simp [hresends g hg] at hres
    · by_contra hres
      rw [Bool.not_eq_false] at hres
      rcases mem_frames_after_run hi hg with hg | hg
      · rcases resends_of_new hg hres with hfres | ⟨x, hx, hof⟩
        · simp [hresends f hf] at hfres
        · simp [hover.1 x hx] at hof
      · simp [hresends g hg] at hres
  · cases hevs _ (hended.resolve_right hbefore) with
    | cleared =>
        obtain ⟨hfans, hresends⟩ := hok rfl
        refine ⟨⟨fun y hy => ?_, ?_⟩, fun g hg => ?_⟩
        · have hu := ((AckTracker.mem_ack_iff ..).mp hy).2
          simp [PendingAck.isOf, hu]
        · have htotal := total_fire_run_le (P := engine) (fansOut uuid7 stage)
            (o := (Frame.terminal (.ack uuid7)).step s.shared a) hi
          simp only [Frame.step, TerminalFrame.step, new_go, List.map_nil,
            List.sum_nil] at htotal
          simp only [afterRun, Frame.step, TerminalFrame.step]
          omega
        · rcases mem_frames_after_run hi hg with hg | hg
          · simp [Frame.step, TerminalFrame.step] at hg
          · exact hresends g hg

/-- An ack puts every entry it takes on record. -/
theorem answered_step
    {e : Engine} {v m : String} (len : Nat) {entry : PendingAck}
    (hentry : entry ∈ e.ackTracker.pending)
    (hfor : entry.isFor v m = true) :
    .answered v entry.stage m ∈
      (Frame.step e a (.reply (.ackModule v m len))).shared.log := by
  have hanswer : Event.answered v entry.stage m ∈
      ReplyFrame.answers e.ackTracker v m :=
    List.mem_map.mpr ⟨entry, List.mem_filter.mpr ⟨hentry, hfor⟩, rfl⟩
  rcases e.ackTracker.ackModule_cases e.now v m with
    ⟨-, hnone⟩ | ⟨first, -, rest, -, -, -, hack⟩
  · simp [hnone entry hentry] at hfor
  · cases hstage : first.stage <;>
      simp only [Frame.step, ReplyFrame.step, hack, hstage]
    · exact List.mem_append_left _ hanswer
    · exact List.mem_append_left _ hanswer
    · split
      · exact List.mem_append_left _ hanswer
      · exact List.mem_cons_of_mem _ (List.mem_append_left _ hanswer)

/-- A drain puts every entry it takes on record. -/
theorem timedOut_step
    {e : Engine} (cfg : PipelineConfig) {entry : PendingAck}
    (hentry : entry ∈ e.ackTracker.pending)
    (hexp : entry.expired e.now = true) :
    .timedOut entry ∈ (Frame.step e a (.sweep (.drain cfg))).shared.log := by
  have hmem : (entry, (e.ackTracker.checkTimeouts e.now).2.hasPending entry.uuid7) ∈
      (e.ackTracker.checkTimeouts e.now).1 :=
    (AckTracker.mem_checkTimeouts_iff ..).mpr ⟨hentry, hexp, rfl⟩
  exact List.mem_append_left _ (List.mem_map.mpr ⟨_, hmem, rfl⟩)

theorem Settled.mono
    {e e' : Engine} {m : String} (evs : List Event)
    (h : Settled uuid7 stage e m)
    (hlog : e'.log = evs ++ e.log) :
    Settled uuid7 stage e' m := by
  obtain ⟨ev, hev, hsettles⟩ := h
  exact ⟨ev, by simp [hlog, hev], hsettles⟩

/-- The stage message a recipient was sent is settled, ended with the message,
pending, or about to be tracked. -/
theorem Guarded.sent_run
    (h : Guarded uuid7 stage s)
    (hstage : stage ≠ .inProcess)
    (hi : s.threads[i]? = some (f :: rest))
    {m : String} {c : ContainerForModule}
    (hsent : .sent uuid7 stage m c ∈ (afterRun s i a f rest).shared.log) :
    Settled uuid7 stage (afterRun s i a f rest).shared m ∨
      (.cleared uuid7 ∈ (afterRun s i a f rest).shared.log ∧
        departures uuid7 stage (afterRun s i a f rest) = 0) ∨
      (afterRun s i a f rest).shared.ackTracker.isPendingFor uuid7 m stage =
        true ∨
      Dispatching (afterRun s i a f rest) uuid7 stage m := by
  have hf := mem_frames_of_getElem? hi (List.mem_cons_self ..)
  obtain ⟨evs, hlog, hevs⟩ := f.records s.shared a
  have hquiet (hparts : ¬ Parts uuid7 stage s.shared f)
      (hzero : departures uuid7 stage s = 0) :
      departures uuid7 stage (afterRun s i a f rest) = 0 := by
    rcases departures_run (a := a) uuid7 stage hi with
      hle | ⟨hpart, -⟩
    · omega
    · exact absurd hpart hparts
  simp only [hlog, List.mem_append] at hsent
  rcases hsent with hsent | hsent
  · -- the step has just sent it
    cases hevs _ hsent with
    | @fanout_sent fo _ todo hp hs =>
        have hnext : (FanoutFrame.step s.shared a (.send fo (m :: todo))).next =
            some [.fanout (.track { fo with sentAny := true } m todo)] := by
          simp [FanoutFrame.step, hp, hs, go]
        exact Or.inr (Or.inr (Or.inr (atTop_of_next hi hnext rfl)))
    | inProcess_sent _ _ => exact absurd rfl hstage
  rcases h.sent m c hsent with hsettled | ⟨hcleared, hzero⟩ | hpending | hdisp
  · exact Or.inl (hsettled.mono evs hlog)
  · refine Or.inr (Or.inl ⟨by simp [hlog, hcleared], ?_⟩)
    exact hquiet (fun hparts =>
      not_over_of_parts hparts hf (h.ended hcleared).1) hzero
  · rcases isPendingFor_step hpending with
      hpending | ⟨entry, hentry, hu, hm, hst, hgone⟩
    · exact Or.inr (Or.inr (Or.inl hpending))
    · rcases hgone with ⟨len, rfl⟩ | rfl | ⟨cfg, rfl, hexp⟩
      · have hfor : entry.isFor uuid7 m = true := decide_eq_true ⟨hu, hm⟩
        exact Or.inl ⟨_, answered_step (a := a) len hentry hfor,
          by simp [Event.settles, hst]⟩
      · by_cases hzero : departures uuid7 stage s = 0
        · exact Or.inr (Or.inl ⟨List.mem_cons_self .., hquiet id hzero⟩)
        · have hover := (h.gone (Nat.pos_of_ne_zero hzero)).1
          have hof : entry.isOf uuid7 stage = true := decide_eq_true ⟨hu, hst⟩
          simp [hover.1 entry hentry] at hof
      · exact Or.inl ⟨_, timedOut_step (a := a) cfg hentry hexp,
          by simp [Event.settles, PendingAck.isOf, hu, hst, hm]⟩
  · by_cases hun : f.untracked = some (uuid7, stage, m)
    · exact Or.inr (Or.inr (Or.inl (isPendingFor_of_untracked hun)))
    · exact Or.inr (Or.inr (Or.inr (Pool.AtTop.run hdisp hi hun)))

theorem Guarded.world
    {ev : WorldEvent}
    (h : Guarded uuid7 stage s)
    (hwait : Pool.Waiting Frame.IsLoop
      { shared := ev.effect s.shared, threads := s.threads ++ ev.starts }) :
    Guarded uuid7 stage
      { shared := ev.effect s.shared, threads := s.threads ++ ev.starts } := by
  have hlog : (ev.effect s.shared).log = s.shared.log := by cases ev <;> rfl
  have hacks : (ev.effect s.shared).ackTracker = s.shared.ackTracker := by
    cases ev <;> rfl
  have hnew (w : Frame → Nat) (hw : ∀ g, Opens ev g → w g = 0) :
      Pool.total w
          { shared := ev.effect s.shared, threads := s.threads ++ ev.starts } =
        s.total w := by
    have hsum : (ev.starts.flatten.map w).sum = 0 := by
      refine List.sum_eq_zero fun n hn => ?_
      obtain ⟨g, hg, rfl⟩ := List.mem_map.mp hn
      exact hw g (opens_of_mem hg)
    rw [total_fire_world (r := (ev.effect s.shared, ev.starts)), hsum, Nat.add_zero]
  have hfans := hnew (fansOut uuid7 stage) (by rintro _ ⟨⟩ <;> rfl)
  have hleaving := hnew (leaving uuid7 stage) (by rintro _ ⟨⟩ <;> rfl)
  have hdep : departures uuid7 stage
      { shared := ev.effect s.shared, threads := s.threads ++ ev.starts } =
        departures uuid7 stage s := by
    simp only [departures, hleaving, timesLeft, hlog]
  have hover (ho : Over uuid7 stage s) : Over uuid7 stage
      { shared := ev.effect s.shared, threads := s.threads ++ ev.starts } := by
    refine ⟨?_, hfans.trans ho.2⟩
    simpa only [hacks] using ho.1
  have hresends {p : Frame → Prop}
      (hp : ∀ g ∈ s.frames, resends uuid7 stage g = true → p g) :
      ∀ g ∈ Pool.frames
        { shared := ev.effect s.shared, threads := s.threads ++ ev.starts },
        resends uuid7 stage g = true → p g := by
    intro g hg hres
    rcases mem_frames_after_world (r := (ev.effect s.shared, ev.starts)) hg with
      hg | hg
    · exact hp g hg hres
    · cases opens_of_mem hg <;> simp [resends] at hres
  refine ⟨hwait, fun g hg => ?_, hdep.trans_le h.once, fun hgone => ?_,
    fun hended => ?_, fun m c hsent => ?_⟩
  · rcases mem_frames_after_world (r := (ev.effect s.shared, ev.starts)) hg with
      hg | hg
    · exact h.agree g hg
    · cases opens_of_mem hg <;> trivial
  · obtain ⟨ho, hres⟩ := h.gone (hdep ▸ hgone)
    exact ⟨hover ho, hresends hres⟩
  · obtain ⟨ho, hres⟩ := h.ended (hlog ▸ hended)
    refine ⟨hover ho, fun g hg => ?_⟩
    by_contra hnot
    exact hresends (p := fun _ => False) (fun g hg => by simp [hres g hg]) g hg
      (by simpa using hnot)
  · simp only [hlog] at hsent ⊢
    rcases h.sent m c hsent with hsettled | ⟨hcleared, hzero⟩ | hpending | hdisp
    · exact Or.inl (hsettled.mono [] hlog)
    · exact Or.inr (Or.inl ⟨hcleared, hdep.trans hzero⟩)
    · exact Or.inr (Or.inr (Or.inl (by rwa [hacks])))
    · exact Or.inr (Or.inr (Or.inr
        (Pool.AtTop.world (r := (ev.effect s.shared, ev.starts)) hdisp)))

theorem Guarded.fire
    {s' : EnginePool} {l : EngineLabel}
    (hstage : stage ≠ .inProcess)
    (h : Guarded uuid7 stage s)
    (hok : OnRun (LeavesCleanly uuid7 stage) s l)
    (hfire : engine.fire s l = some s') :
    Guarded uuid7 stage s' := by
  have hwait := h.waiting.fire engine_leavesWaiting hfire
  cases l with
  | world ev =>
      obtain ⟨r, hr, rfl⟩ := fire_world_cases hfire
      obtain rfl := engine_event_eq hr
      exact h.world hwait
  | run i a =>
      obtain ⟨f, rest, o, hi, ho, rfl⟩ := fire_run_cases hfire
      obtain rfl := engine_step_eq ho
      have hokf := hok.top hi
      have hf := mem_frames_of_getElem? hi (List.mem_cons_self ..)
      refine ⟨hwait, fun g hg => ?_, ?_, h.gone_run hstage hokf hi,
        h.ended_run hstage hokf hi, fun m c => h.sent_run hstage hi⟩
      · rcases mem_frames_after_run hi hg with hg | hg
        · exact sweepAgrees_new (h.agree f hf) hg
        · exact h.agree g hg
      · rcases departures_run (a := a) uuid7 stage hi with
          hle | ⟨hparts, hle⟩
        · exact hle.trans h.once
        · have hzero : ¬ 0 < departures uuid7 stage s := fun hpos =>
            not_over_of_parts hparts hf (h.gone hpos).1
          exact hle.trans (by omega)

/-- A message that has left a stage left no recipient behind. -/
theorem Guarded.barrier
    (h : Guarded uuid7 stage s)
    (hstage : stage ≠ .inProcess) :
    Barrier uuid7 stage s := by
  have honce := h.once
  simp only [departures] at honce
  refine ⟨by omega, fun hleft m c hsent => ?_⟩
  have hpos : 0 < departures uuid7 stage s := by
    simp only [departures]
    omega
  obtain ⟨⟨hpending, hfans⟩, -⟩ := h.gone hpos
  rcases h.sent m c hsent with hsettled | ⟨-, hzero⟩ | hpend | hdisp
  · exact hsettled
  · omega
  · obtain ⟨entry, hentry, hu, -, hst⟩ := (AckTracker.isPendingFor_iff ..).mp hpend
    have hof : entry.isOf uuid7 stage = true := decide_eq_true ⟨hu, hst⟩
    simp [hpending entry hentry] at hof
  · -- a dispatch still to be tracked belongs to a fanout in progress
    obtain ⟨t, ht, f, hhead, hun⟩ := hdisp
    have hf : f ∈ s.frames :=
      List.mem_flatten.mpr ⟨t, ht, List.mem_of_mem_head? hhead⟩
    have hle := le_total (fansOut uuid7 stage) hf
    cases f with
    | fanout f =>
        cases f with
        | send => simp [Frame.untracked] at hun
        | track fo m' todo =>
            obtain ⟨hu, hst, -⟩ : fo.uuid7 = uuid7 ∧ fo.stage = stage ∧ m' = m := by
              simpa [Frame.untracked] using hun
            simp [hfans, hu, hst] at hle
    | inProcess f =>
        cases f with
        | track v m' timeout =>
            obtain ⟨-, hst, -⟩ : v = uuid7 ∧ Stage.inProcess = stage ∧ m' = m := by
              simpa [Frame.untracked] using hun
            exact absurd hst.symm hstage
        | _ => simp [Frame.untracked] at hun
    | _ => simp [Frame.untracked] at hun

end Invariant

/-- **Main theorem.**  In a run that leaves the pre-process or post-process
stage of a message cleanly, the message leaves it at most once and only after
every recipient it was sent to has answered or timed out. -/
theorem stage_barrier
    (uuid7 : String)
    (stage : Stage)
    (hstage : stage ≠ .inProcess)
    (e : Engine)
    (hlog : e.log = [])
    {s : EnginePool}
    (hs : Reachable engine (OnRun (LeavesCleanly uuid7 stage)) (boot e) s) :
    Barrier uuid7 stage s := by
  have hguarded : Guarded uuid7 stage s := by
    refine hs.invariant ?_ (Guarded.fire hstage)
    refine ⟨boot_waiting e, ?_, ?_, ?_, ?_, ?_⟩
    · simp [boot, Pool.frames]
    · simp [boot, departures, Pool.total, Pool.frames, timesLeft, hlog]
    · simp [boot, departures, Pool.total, Pool.frames, timesLeft, hlog]
    · simp [boot, hlog]
    · simp [boot, hlog]
  exact hguarded.barrier hstage

/-- Two recipients are sent the pre-process message; then both answer. -/
def answeredAfterFanout : List EngineLabel :=
  .world (.ingest { uuid7 := "m", rawMessage := "hi" }) ::
    List.replicate 10 (.run 0 {}) ++
  .world (.reply { uuid7 := "m", moduleName := "a", stage := .preProcess }) ::
    List.replicate 5 (.run 1 {}) ++
  .world (.reply { uuid7 := "m", moduleName := "b", stage := .preProcess }) ::
    List.replicate 6 (.run 2 {})

theorem stage_barrier_answeredAfterFanout :
    ∃ s, engine.exec (boot { config := { preProcessModules := ["a", "b"] } })
        answeredAfterFanout = some s ∧
      Barrier "m" .preProcess s ∧ timesLeft "m" .preProcess s.shared = 1 := by
  obtain ⟨s, hrun, hleft⟩ := exec_any (P := engine)
    (Q := fun s => timesLeft "m" .preProcess s.shared = 1)
    (boot { config := { preProcessModules := ["a", "b"] } })
    answeredAfterFanout (by decide +kernel)
  exact ⟨s, hrun, stage_barrier "m" .preProcess (by decide)
    { config := { preProcessModules := ["a", "b"] } } rfl
    (reachable_of_allSteps answeredAfterFanout .start (by decide +kernel) hrun),
    hleft⟩

/-- The first recipient answers before the second has been sent the message. -/
def answeredDuringFanout : List EngineLabel :=
  .world (.ingest { uuid7 := "m", rawMessage := "hi" }) ::
    List.replicate 7 (.run 0 {}) ++
  .world (.reply { uuid7 := "m", moduleName := "a", stage := .preProcess }) ::
    List.replicate 6 (.run 1 {}) ++ [.run 0 {}]

/-- The message leaves the stage while the second recipient has yet to be sent
to. -/
theorem left_before_fanout_ends :
    ¬ ∀ (uuid7 : String) (stage : Stage) (e : Engine) (ls : List EngineLabel)
        (s : EnginePool),
      stage ≠ .inProcess →
      e.log = [] →
      engine.exec (boot e) ls = some s →
      Barrier uuid7 stage s := by
  intro h
  have hbarrier := h "m" .preProcess
    { config := { preProcessModules := ["a", "b"] } } answeredDuringFanout _
    (by decide) rfl rfl
  have hsettled := hbarrier.2 (by decide) "b" _ (List.mem_cons_self ..)
  exact absurd hsettled (by decide)

end CockatielEngine
