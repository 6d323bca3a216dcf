import CockatielEngine.Pipeline.DrainSignal
import CockatielEngine.Pipeline.Effects

/-!
# Pipeline: what enters the ack table leaves it once

An ack removes every entry its module has for the message, whatever the stage,
and answers for the first of them.  A reply is checked against the entry of its
stage before, in a step of its own.

**Main result.**  At every point of a run, whatever operation comes next, the
entries that leave the table are those that the operation reports, and a reply
clears an entry of its own stage, exactly when no entry was tracked for a module
that had another one for the message, or whose reply to another stage of it was
between its check and its ack.
-/

namespace CockatielEngine

section Defs

/-- An operation on the tracker, with the time at which it reads the clock. -/
inductive TrackerOp where
  | track (now : Nat) (uuid7 : String) (stage : Stage) (moduleName : String)
      (timeoutMs : Nat)
  | markReceipt (uuid7 moduleName : String)
  | reTrack (now : Nat) (entry : PendingAck)
  | ack (uuid7 : String)
  | call (c : AckCall)

namespace TrackerOp

/-- The entry that an operation pushes. -/
def pushes : TrackerOp → Option PendingAck
  | .track now uuid7 stage moduleName timeoutMs =>
      some
        { uuid7, stage, moduleName
          sentAt := now
          timeout := timeoutMs
          receiptReceived := false
          resendCount := 0 }
  | .reTrack now entry => some (AckTracker.freshEntry now entry)
  | _ => none

/-- The entries an operation takes out of the table. -/
def removes : TrackerOp → PendingAck → Bool
  | .ack uuid7, e => e.uuid7 = uuid7
  | .call c, e => c.removes e
  | _, _ => false

end TrackerOp

namespace AckTracker

/-- The table after an operation. -/
def apply (t : AckTracker) : TrackerOp → AckTracker
  | .track now uuid7 stage moduleName timeoutMs =>
      t.track now uuid7 stage moduleName timeoutMs
  | .markReceipt uuid7 moduleName => t.markReceipt uuid7 moduleName
  | .reTrack now entry => t.reTrack now entry
  | .ack uuid7 => t.ack uuid7
  | .call c => (t.call c).2

/-- The entries of the table that an operation takes out. -/
def removed (t : AckTracker) (op : TrackerOp) : List PendingAck :=
  t.pending.filter op.removes

/-- The answer of an operation names these entries and no others.  `ack` returns
the entries themselves; the ack of a module returns a stage and the time since it
was sent. -/
def Reports (t : AckTracker) (op : TrackerOp) (left : List PendingAck) : Prop :=
  match op with
  | .ack uuid7 => t.entries uuid7 = left
  | .call (.ackModule now uuid7 moduleName) =>
      (t.ackModule now uuid7 moduleName).1.toList.map (fun x => (x.1, x.2.1)) =
        left.map fun e => (e.stage, now - e.sentAt)
  | .call (.checkTimeouts now) => (t.checkTimeouts now).1.map (·.1) = left
  | _ => left = []

end AckTracker

/-- The entry apart from its receipt. -/
def PendingAck.booked (e : PendingAck) : PendingAck :=
  { e with receiptReceived := false }

/-- An operation on the tracker or one half of a reply: the check that the module
owns the stage, and its ack, with any other operations in between. -/
inductive AckStep where
  | op (o : TrackerOp)
  | owns (r : StageReply)
  | handleAck (now : Nat) (r : StageReply)

/-- The entry that a step pushes. -/
def AckStep.pushes : AckStep → Option PendingAck
  | .op o => o.pushes
  | _ => none

/-- The table, and the replies between their check and their ack. -/
structure AckDesk where
  tracker : AckTracker := .new
  accepted : List StageReply := []

namespace AckDesk

/-- The operation on the tracker that a step amounts to.  A reply that was not
accepted goes no further. -/
def opOf (s : AckDesk) : AckStep → Option TrackerOp
  | .op o => some o
  | .owns _ => none
  | .handleAck now r =>
      if r ∈ s.accepted then some (.call (.ackModule now r.uuid7 r.moduleName))
      else none

def step (s : AckDesk) (x : AckStep) : AckDesk where
  tracker := (s.opOf x).elim s.tracker s.tracker.apply
  accepted :=
    match x with
    | .op _ => s.accepted
    | .owns r =>
        if s.tracker.isPendingFor r.uuid7 r.moduleName r.stage then
          r :: s.accepted
        else s.accepted
    | .handleAck _ r => s.accepted.erase r

/-- The entries that a step takes out of the table. -/
def removed (s : AckDesk) (x : AckStep) : List PendingAck :=
  (s.opOf x).elim [] s.tracker.removed

def run (xs : List AckStep) : AckDesk :=
  xs.foldl step {}

/-- What has been pushed in the run. -/
def pushedBy (xs : List AckStep) : List PendingAck :=
  xs.filterMap AckStep.pushes

/-- What has left the table in the run, step by step. -/
def removedBy (s : AckDesk) : List AckStep → List PendingAck
  | [] => []
  | x :: xs => s.removed x ++ removedBy (s.step x) xs

/-- What leaves the table in a step is what the step reports; a reply clears
entries of its own stage only. -/
structure Accounts (s : AckDesk) (x : AckStep) : Prop where
  reported : ∀ o, s.opOf x = some o → s.tracker.Reports o (s.removed x)
  ownStage : ∀ now r, x = .handleAck now r → ∀ e ∈ s.removed x,
    e.uuid7 = r.uuid7 ∧ e.moduleName = r.moduleName ∧ e.stage = r.stage

/-- What was pushed is in the table or has left it, once; and every step accounts
for what left in it. -/
structure Conserves (xs : List AckStep) : Prop where
  once : ((pushedBy xs).map PendingAck.booked).Perm
    (((run xs).tracker.pending ++ removedBy {} xs).map PendingAck.booked)
  accounts : ∀ done x, done ++ [x] <+: xs → (run done).Accounts x

/-- No other entry of the module for the message is in the table, and no reply of
the module to another stage of it is being handled. -/
def Alone (s : AckDesk) (entry : PendingAck) : Prop :=
  (∀ e ∈ s.tracker.pending, e.isFor entry.uuid7 entry.moduleName = false) ∧
    ∀ r ∈ s.accepted, r.uuid7 = entry.uuid7 → r.moduleName = entry.moduleName →
      r.stage = entry.stage

/-- Whatever the run has tracked was alone. -/
def TracksAlone (xs : List AckStep) : Prop :=
  ∀ done x entry, done ++ [x] <+: xs → x.pushes = some entry →
    (run done).Alone entry

end AckDesk

end Defs

section Table

variable {t : AckTracker} {o : TrackerOp} {u m : String} {e : PendingAck}

theorem map_booked_markFirst
    (p : PendingAck → Bool) (l : List PendingAck) :
    (AckTracker.markFirst p l).map PendingAck.booked = l.map PendingAck.booked := by
  induction l with
  | nil => rfl
  | cons x rest ih =>
      unfold AckTracker.markFirst
      split
      · rfl
      · simp [ih]

/-- An operation removes its entries, keeps the others up to their receipts, and
pushes its own. -/
theorem booked_apply :
    (t.apply o).pending.map PendingAck.booked =
      (t.pending.filter (fun e => !o.removes e) ++ o.pushes.toList).map
        PendingAck.booked := by
  cases o with
  | track now uuid7 stage moduleName timeoutMs =>
      simp [AckTracker.apply, AckTracker.track, TrackerOp.removes, TrackerOp.pushes]
  | markReceipt uuid7 moduleName =>
      simp [AckTracker.apply, AckTracker.markReceipt, TrackerOp.removes,
        TrackerOp.pushes, map_booked_markFirst]
  | reTrack now entry =>
      simp [AckTracker.apply, AckTracker.reTrack, TrackerOp.removes, TrackerOp.pushes]
  | ack uuid7 =>
      simp [AckTracker.apply, AckTracker.ack, TrackerOp.removes, TrackerOp.pushes]
  | call c =>
      simp [AckTracker.apply, AckTracker.pending_call, TrackerOp.removes,
        TrackerOp.pushes]

/-- The answer of a module's ack is about the first entry it removes. -/
theorem reports_ackModule_iff
    (now : Nat) :
    t.Reports (.call (.ackModule now u m))
        (t.removed (.call (.ackModule now u m))) ↔
      (t.pending.filter (PendingAck.isFor u m)).length ≤ 1 := by
  have hremoved : t.removed (.call (.ackModule now u m)) =
      t.pending.filter (PendingAck.isFor u m) := rfl
  have hfirst : t.pending.find? (PendingAck.isFor u m) =
      (t.pending.filter (PendingAck.isFor u m)).head? := by
    rw [List.head?_filter]
  rw [hremoved]
  simp only [AckTracker.Reports, AckTracker.ackModule, hfirst]
  rcases t.pending.filter (PendingAck.isFor u m) with _ | ⟨x, _ | ⟨y, rest⟩⟩
  · simp
  · simp
  · simp

/-- Every other operation reports what it removes. -/
theorem reports_removed
    (h : ∀ now u m, o ≠ .call (.ackModule now u m)) :
    t.Reports o (t.removed o) := by
  cases o with
  | ack uuid7 => rfl
  | call c =>
      cases c with
      | ackModule now u m => exact absurd rfl (h now u m)
      | checkTimeouts now =>
          simp only [AckTracker.Reports, AckTracker.checkTimeouts, List.map_map,
            Function.comp_def, List.map_id']
          rfl
  | _ => simp [AckTracker.Reports, AckTracker.removed, TrackerOp.removes]

end Table

/-- A module has one entry for a message at most, of the stage of each of its
replies to the message that are being handled. -/
structure SingleEntries (pending : List PendingAck) (accepted : List StageReply) :
    Prop where
  one : ∀ u m, (pending.filter (PendingAck.isFor u m)).length ≤ 1
  sameStage : ∀ r ∈ accepted, ∀ e ∈ pending,
    e.isFor r.uuid7 r.moduleName = true → e.stage = r.stage

namespace SingleEntries

variable {l l' : List PendingAck} {acc acc' : List StageReply} {e : PendingAck}

/-- The receipts do not matter. -/
theorem of_booked
    (h : SingleEntries l acc)
    (hbooked : l'.map PendingAck.booked = l.map PendingAck.booked) :
    SingleEntries l' acc := by
  refine ⟨fun u m => ?_, fun r hr e he hfor => ?_⟩
  · have hcount (l : List PendingAck) :
        (l.filter (PendingAck.isFor u m)).length =
          (l.map PendingAck.booked).countP (PendingAck.isFor u m) := by
      rw [List.countP_map, List.countP_eq_length_filter]
      rfl
    rw [hcount, hbooked, ← hcount]
    exact h.one u m
  · have hmem : e.booked ∈ l.map PendingAck.booked :=
      hbooked ▸ List.mem_map_of_mem he
    obtain ⟨x, hx, hxe⟩ := List.mem_map.mp hmem
    have hfor' : x.booked.isFor r.uuid7 r.moduleName = true := by
      rw [hxe]
      exact hfor
    have hstage : x.stage = e.stage := by
      simpa [PendingAck.booked] using congrArg PendingAck.stage hxe
    exact hstage ▸ h.sameStage r hr x hx hfor'

theorem filter
    (h : SingleEntries l acc)
    (p : PendingAck → Bool) :
    SingleEntries (l.filter p) acc := by
  refine ⟨fun u m => ?_, fun r hr e he hfor =>
    h.sameStage r hr e (List.mem_of_mem_filter he) hfor⟩
  have hshorter : ((l.filter p).filter (PendingAck.isFor u m)).length ≤
      (l.filter (PendingAck.isFor u m)).length :=
    (List.filter_sublist.filter _).length_le
  exact hshorter.trans (h.one u m)

theorem of_subset
    (h : SingleEntries l acc)
    (hacc : acc' ⊆ acc) :
    SingleEntries l acc' :=
  ⟨h.one, fun r hr => h.sameStage r (hacc hr)⟩

/-- An entry can be pushed when it is alone. -/
theorem push_iff
    (h : SingleEntries l acc) :
    SingleEntries (l ++ [e]) acc ↔
      (∀ x ∈ l, x.isFor e.uuid7 e.moduleName = false) ∧
        ∀ r ∈ acc, r.uuid7 = e.uuid7 → r.moduleName = e.moduleName →
          r.stage = e.stage := by
  have hself : e.isFor e.uuid7 e.moduleName = true := by simp [PendingAck.isFor]
  constructor
  · intro hpushed
    refine ⟨fun x hx => ?_, fun r hr hu hm => ?_⟩
    · have hone := hpushed.one e.uuid7 e.moduleName
      rw [List.filter_append, List.filter_singleton, hself, List.length_append] at hone
      have hnone : l.filter (PendingAck.isFor e.uuid7 e.moduleName) = [] := by
        rw [← List.length_eq_zero_iff]
        simp only [cond_true, List.length_singleton] at hone
        omega
      simpa using List.filter_eq_nil_iff.mp hnone x hx
    · have hfor : e.isFor r.uuid7 r.moduleName = true := by rw [hu, hm, hself]
      exact (hpushed.sameStage r hr e (by simp) hfor).symm
  · rintro ⟨halone, hstage⟩
    refine ⟨fun u m => ?_, fun r hr x hx hfor => ?_⟩
    · rw [List.filter_append, List.length_append]
      by_cases hfor : e.isFor u m = true
      · obtain ⟨rfl, rfl⟩ : e.uuid7 = u ∧ e.moduleName = m := of_decide_eq_true hfor
        have hnone : l.filter (PendingAck.isFor e.uuid7 e.moduleName) = [] :=
          List.filter_eq_nil_iff.mpr fun x hx => by simp [halone x hx]
        simp [hnone, hself]
      · simpa [hfor] using h.one u m
    · rcases List.mem_append.mp hx with hx | hx
      · exact h.sameStage r hr x hx hfor
      · obtain rfl := List.mem_singleton.mp hx
        obtain ⟨hu, hm⟩ : x.uuid7 = r.uuid7 ∧ x.moduleName = r.moduleName :=
          of_decide_eq_true hfor
        exact (hstage r hr hu.symm hm.symm).symm

/-- A reply is accepted for the one entry its module has. -/
theorem accept
    {t : AckTracker} {r : StageReply}
    (h : SingleEntries t.pending acc)
    (howns : t.isPendingFor r.uuid7 r.moduleName r.stage = true) :
    SingleEntries t.pending (r :: acc) := by
  refine ⟨h.one, fun r' hr' e he hfor => ?_⟩
  rcases List.mem_cons.mp hr' with rfl | hr'
  · obtain ⟨x, hx, hu, hm, hstage⟩ := (AckTracker.isPendingFor_iff ..).mp howns
    have hxfor : x.isFor r'.uuid7 r'.moduleName = true := decide_eq_true ⟨hu, hm⟩
    have hsame : e = x := by
      have hone := h.one r'.uuid7 r'.moduleName
      have he := List.mem_filter.mpr ⟨he, hfor⟩
      have hx := List.mem_filter.mpr ⟨hx, hxfor⟩
      obtain ⟨y, hy⟩ := List.length_eq_one_iff.mp
        (le_antisymm hone (List.length_pos_of_mem he))
      rw [hy] at he hx
      exact (List.mem_singleton.mp he).trans (List.mem_singleton.mp hx).symm
    rw [hsame, hstage]
  · exact h.sameStage r' hr' e he hfor

end SingleEntries

namespace AckDesk

section Steps

variable {s : AckDesk} {x : AckStep} {xs done : List AckStep}

/-- Whatever comes next is accounted for, exactly when every module has one entry
for a message at most, of the stage that its replies are to. -/
theorem accounts_iff_single :
    (∀ x, s.Accounts x) ↔ SingleEntries s.tracker.pending s.accepted := by
  constructor
  · intro h
    refine ⟨fun u m => ?_, fun r hr e he hfor => ?_⟩
    · exact (reports_ackModule_iff 0).mp
        ((h (.op (.call (.ackModule 0 u m)))).reported _ rfl)
    · have hleft : e ∈ s.removed (.handleAck 0 r) := by
        rw [removed, opOf, if_pos hr]
        exact List.mem_filter.mpr ⟨he, hfor⟩
      exact ((h (.handleAck 0 r)).ownStage 0 r rfl e hleft).2.2
  · intro h x
    refine ⟨fun o ho => ?_, ?_⟩
    · rw [removed, ho]
      by_cases hack : ∃ now u m, o = .call (.ackModule now u m)
      · obtain ⟨now, u, m, rfl⟩ := hack
        exact (reports_ackModule_iff now).mpr (h.one u m)
      · exact reports_removed fun now u m heq => hack ⟨now, u, m, heq⟩
    · rintro now r rfl e he
      rw [removed, opOf] at he
      split at he
      · rename_i hr
        obtain ⟨hmem, hfor⟩ := List.mem_filter.mp he
        have hkey : e.uuid7 = r.uuid7 ∧ e.moduleName = r.moduleName := by
          simpa [TrackerOp.removes, AckCall.removes, PendingAck.isFor] using hfor
        exact ⟨hkey.1, hkey.2, h.sameStage r hr e hmem hfor⟩
      · simp at he

/-- An operation that pushes nothing keeps the entries single. -/
theorem single_apply
    {t : AckTracker} {o : TrackerOp} {acc : List StageReply}
    (h : SingleEntries t.pending acc)
    (hpushes : o.pushes = none) :
    SingleEntries (t.apply o).pending acc := by
  refine (h.filter fun e => !o.removes e).of_booked ?_
  rw [booked_apply, hpushes]
  simp

/-- An operation that pushes an entry keeps the entries single when the entry is
alone. -/
theorem single_apply_iff
    {t : AckTracker} {o : TrackerOp} {acc : List StageReply} {entry : PendingAck}
    (h : SingleEntries t.pending acc)
    (hpushes : o.pushes = some entry) :
    SingleEntries (t.apply o).pending acc ↔ AckDesk.Alone ⟨t, acc⟩ entry := by
  have hpending : (t.apply o).pending = t.pending ++ [entry] := by
    cases o with
    | track now uuid7 stage moduleName timeoutMs =>
        obtain rfl := Option.some.inj hpushes
        rfl
    | reTrack now x =>
        obtain rfl := Option.some.inj hpushes
        rfl
    | _ => cases hpushes
  rw [hpending, h.push_iff]
  rfl

/-- A step keeps the entries single exactly when what it tracks is alone. -/
theorem single_step
    (h : SingleEntries s.tracker.pending s.accepted) :
    SingleEntries (s.step x).tracker.pending (s.step x).accepted ↔
      ∀ entry, x.pushes = some entry → s.Alone entry := by
  cases x with
  | op o =>
      change SingleEntries (s.tracker.apply o).pending s.accepted ↔
        ∀ entry, o.pushes = some entry → s.Alone entry
      cases hpushes : o.pushes with
      | none => simpa using single_apply h hpushes
      | some entry => simpa using single_apply_iff h hpushes
  | owns r =>
      simp only [AckStep.pushes, reduceCtorEq, false_imp_iff, implies_true, iff_true]
      change SingleEntries s.tracker.pending
        (if s.tracker.isPendingFor r.uuid7 r.moduleName r.stage then r :: s.accepted
          else s.accepted)
      split
      · rename_i howns
        exact h.accept howns
      · exact h
  | handleAck now r =>
      simp only [AckStep.pushes, reduceCtorEq, false_imp_iff, implies_true, iff_true]
      have hfewer := h.of_subset (List.erase_subset (a := r))
      by_cases hr : r ∈ s.accepted
      · simpa [step, opOf, hr] using single_apply hfewer
          (o := .call (.ackModule now r.uuid7 r.moduleName)) rfl
      · simpa [step, opOf, hr] using hfewer

theorem run_concat :
    run (done ++ [x]) = (run done).step x := by
  simp [run]

/-- At every point of a run the entries are single, exactly when whatever the run
has tracked was alone. -/
theorem single_run_iff :
    (∀ done, done <+: xs →
        SingleEntries (run done).tracker.pending (run done).accepted) ↔
      TracksAlone xs := by
  constructor
  · intro h done x entry hpre
    have hafter := h _ hpre
    rw [run_concat, single_step (h done ((List.prefix_append done [x]).trans hpre))]
      at hafter
    exact hafter entry
  · intro h done hpre
    induction done using List.reverseRecOn with
    | nil => exact ⟨by simp [run, AckTracker.new], by simp [run]⟩
    | append_singleton done x ih =>
        have hbefore := ih ((List.prefix_append done [x]).trans hpre)
        rw [run_concat]
        exact (single_step hbefore).mpr fun entry => h done x entry hpre

/-- What is in the table and what a step pushes, after the step is in the table or
has left it. -/
theorem booked_step
    (s : AckDesk) (x : AckStep) :
    ((s.tracker.pending ++ x.pushes.toList).map PendingAck.booked).Perm
      (((s.step x).tracker.pending ++ s.removed x).map PendingAck.booked) := by
  have happly (o : TrackerOp) :
      ((s.tracker.pending ++ o.pushes.toList).map PendingAck.booked).Perm
        (((s.tracker.apply o).pending ++ s.tracker.removed o).map
          PendingAck.booked) := by
    have hsplit := (List.filter_append_perm o.removes s.tracker.pending).map
      PendingAck.booked
    rw [List.perm_iff_count]
    intro e
    have hcount := hsplit.count_eq e
    simp only [List.map_append, List.count_append, booked_apply,
      AckTracker.removed] at hcount ⊢
    omega
  cases x with
  | op o => exact happly o
  | owns r => simp [AckStep.pushes, step, removed, opOf]
  | handleAck now r =>
      by_cases hr : r ∈ s.accepted
      · simpa [step, removed, opOf, hr, AckStep.pushes, TrackerOp.pushes] using
          happly (.call (.ackModule now r.uuid7 r.moduleName))
      · simp [AckStep.pushes, step, removed, opOf, hr]

/-- What was pushed in a run is in the table or has left it. -/
theorem booked_run
    (s : AckDesk) (xs : List AckStep) :
    ((s.tracker.pending ++ pushedBy xs).map PendingAck.booked).Perm
      (((xs.foldl step s).tracker.pending ++ removedBy s xs).map
        PendingAck.booked) := by
  induction xs generalizing s with
  | nil => simp [pushedBy, removedBy]
  | cons x xs ih =>
      have hpushed : pushedBy (x :: xs) = x.pushes.toList ++ pushedBy xs := by
        cases hx : x.pushes <;> simp [pushedBy, hx]
      rw [List.perm_iff_count]
      intro e
      have hstep := (booked_step s x).count_eq e
      have hrest := (ih (s.step x)).count_eq e
      simp only [List.map_append, List.count_append, List.foldl_cons, removedBy,
        hpushed] at hstep hrest ⊢
      omega

/-- **Main theorem.**  When whatever comes next is accounted for. -/
theorem conserves_iff_tracksAlone
    (xs : List AckStep) :
    (∀ done next, done <+: xs → Conserves (done ++ [next])) ↔ TracksAlone xs := by
  rw [← single_run_iff]
  constructor
  · intro h done hpre
    exact accounts_iff_single.mp fun x =>
      (h done x hpre).accounts done x List.prefix_rfl
  · intro h done next hpre
    refine ⟨booked_run {} (done ++ [next]), ?_⟩
    intro before x hbefore
    have hpart : before <+: done := by
      rcases List.prefix_concat_iff.mp hbefore with heq | hpre'
      · rw [(List.append_inj' heq rfl).1]
      · exact (List.prefix_append before [x]).trans hpre'
    exact accounts_iff_single.mpr (h before (hpart.trans hpre)) x

/-- A module is checked for its pre-process reply; a sweep then finds the entry
expired and sends the message on to the same module. -/
def sweptBetween : List AckStep :=
  let reply : StageReply := { uuid7 := "m", moduleName := "bot", stage := .preProcess }
  [.op (.track 0 "m" .preProcess "bot" 5), .owns reply,
    .op (.call (.checkTimeouts 9)), .op (.track 9 "m" .inProcess "bot" 5),
    .handleAck 9 reply]

/-- The reply clears the entry of the next stage. -/
theorem sweptBetween_not_conserves :
    ¬ ∀ xs, Conserves xs := by
  intro h
  have hstage := ((h sweptBetween).accounts (sweptBetween.take 4) _
    List.prefix_rfl).ownStage 9 _ rfl
  exact absurd hstage (by decide)

end Steps

end AckDesk

section Frames

variable {f : Frame} {e : Engine} {a : Answer}

/-- The operation that a step of the engine carries out on the tracker. -/
def Frame.trackerOp (now : Nat) : Frame → Option TrackerOp
  | .fanout (.track fo moduleName _) =>
      some (.track now fo.uuid7 fo.stage moduleName fo.ackTimeoutMs)
  | .inProcess (.track uuid7 moduleName ackTimeoutMs) =>
      some (.track now uuid7 .inProcess moduleName ackTimeoutMs)
  | .terminal (.ack uuid7) => some (.ack uuid7)
  | .reply (.ackModule uuid7 moduleName _) =>
      some (.call (.ackModule now uuid7 moduleName))
  | .reply (.receipt uuid7 moduleName) => some (.markReceipt uuid7 moduleName)
  | .sweep (.drain _) => some (.call (.checkTimeouts now))
  | .sweep (.resendTrack _ entry) => some (.reTrack now entry)
  | _ => none

/-- Apart from restarting the clocks after a pause, the engine changes the table
by these operations only. -/
theorem step_ackTracker_eq
    (hclocks : f ≠ .resume .restartClocks) :
    (f.step e a).shared.ackTracker =
      (f.trackerOp e.now).elim e.ackTracker e.ackTracker.apply := by
  cases htouch : f.touchesAcks with
  | false =>
      have hnone : f.trackerOp e.now = none := by
        unfold Frame.trackerOp
        split <;> first | rfl | simp [Frame.touchesAcks] at htouch
      rw [Frame.step_ackTracker e a htouch, hnone]
      rfl
  | true =>
      unfold Frame.touchesAcks at htouch
      split at htouch
      · rfl
      · rfl
      · rfl
      · rename_i uuid7 moduleName len
        simp only [Frame.trackerOp, Option.elim_some, AckTracker.apply, AckTracker.call]
        rcases e.ackTracker.ackModule_cases e.now uuid7 moduleName with
          ⟨hack, -⟩ | ⟨entry, -, rest, -, -, -, hack⟩
        · simp [Frame.step, ReplyFrame.step, hack]
        · cases hstage : entry.stage <;>
            simp only [Frame.step, ReplyFrame.step, hack, hstage]
          · rfl
          · rfl
          · split <;> rfl
      · rfl
      · rfl
      · rfl
      · exact absurd rfl hclocks
      · cases htouch

end Frames

end CockatielEngine
