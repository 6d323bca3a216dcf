import CockatielEngine.Blocks.UserDb
import CockatielEngine.Concurrency.TaskPool

/-!
# Audit: decisions on held messages over whole runs

The moderator prompt and the two audit queries decide on the same row.  Each of
them first makes the requests that a block appeal calls for and releases the
row after that, and none looks at whether the row was still held.

**Main result.**  Over a run of any decisions in any interleaving, the requests
are made exactly for the one decision that moves the row, and every other one
is refused without effect, exactly when each decision comes to its release with
the row still held.
-/

namespace CockatielEngine

open TaskPool

/-- A request that a resolution makes outside the timeline. -/
inductive AuditEffect where
  | unblock (userUuid7 : String)
  | relay (verdict : AppealVerdict)
deriving DecidableEq, Repr

/-- What became of a decision: whether it moved the row out of `audit`, whether
it was accepted, the requests it made and those that the row called for. -/
structure Resolution where
  uuid7 : String
  moved : Bool
  accepted : Bool
  performed : List AuditEffect
  calledFor : List AuditEffect
deriving DecidableEq, Repr

/-- What the decisions share: the timeline, the user database, what the block
module was told, and as a ghost what became of each decision. -/
structure AuditState where
  timeline : Timeline
  db : UserDb := {}
  verdicts : List AppealVerdict := []
  resolutions : List Resolution := []

/-- A decision at its await points.  The last two carry the requests it has
made so far, and `release` the user of the appeal it has found, if any. -/
inductive DecisionFrame where
  | readReason (uuid7 : String) (approve : Bool)
  | readUser (uuid7 reason : String) (approve : Bool)
  | unblock (uuid7 userUuid7 : String)
  | relay (uuid7 userUuid7 : String) (approve : Bool)
      (performed : List AuditEffect)
  | release (uuid7 : String) (found : Option String) (approve : Bool)
      (performed : List AuditEffect)
deriving DecidableEq, Repr

/-- Whether the database, the user database or the module took the step's
request, and the time. -/
structure DecisionAnswer where
  ok : Bool := true
  now : Nat := 0
deriving DecidableEq, Repr

/-- A query of the control surface, or the answer to the prompt for a flag. -/
inductive DecisionEvent where
  | query (uuid7 : String) (approve : Bool)
  | prompt (uuid7 reason : String) (approve : Bool)
deriving DecidableEq, Repr

abbrev AuditPool := Pool AuditState DecisionFrame
abbrev AuditLabel := Label DecisionAnswer DecisionEvent

/-- The user whose appeal the row holds, when it holds an appeal. -/
def Timeline.heldAppeal (t : Timeline) (uuid7 : String) : Option String :=
  if isBlockAppealReason (t.auditReason uuid7) then some (t.appealUser uuid7)
  else none

/-- The request that unblocks the user of an approved appeal. -/
def unblockEffects (userUuid7 : String) (approve : Bool) : List AuditEffect :=
  if approve ∧ userUuid7 ≠ "" then [.unblock userUuid7] else []

/-- The requests that a verdict on an appeal calls for. -/
def appealEffects (uuid7 : String) (approve : Bool) :
    Option String → List AuditEffect
  | none => []
  | some userUuid7 => unblockEffects userUuid7 approve ++ [.relay ⟨uuid7, approve⟩]

/-- The stores that a request of the control surface finds. -/
def AuditState.stores (e : AuditState) (cache : Finset String) : BlockStores :=
  { db := e.db, cache := cache, timeline := e.timeline }

/-- What becomes of a decision whose release is answered by `a`. -/
def AuditState.resolution (e : AuditState) (a : DecisionAnswer) (uuid7 : String)
    (approve : Bool) (performed : List AuditEffect) : Resolution :=
  { uuid7 := uuid7
    moved := a.ok && e.timeline.isAudited uuid7
    accepted := a.ok
    performed := performed
    calledFor := appealEffects uuid7 approve (e.timeline.heldAppeal uuid7) }

namespace DecisionFrame

/-- The user of the appeal is read from the row. -/
def readUserStep (e : AuditState) (a : DecisionAnswer) (uuid7 reason : String)
    (approve : Bool) : Outcome AuditState DecisionFrame :=
  if !isBlockAppealReason reason then .thenRun e [.release uuid7 none approve []]
  else
    let user := if a.ok then e.timeline.appealUser uuid7 else ""
    if approve ∧ user ≠ "" then .thenRun e [.unblock uuid7 user]
    else .thenRun e [.relay uuid7 user approve []]

/-- The row is released; that the statement moved no row is no error. -/
def releaseStep (e : AuditState) (a : DecisionAnswer) (uuid7 : String)
    (approve : Bool) (performed : List AuditEffect) :
    Outcome AuditState DecisionFrame :=
  .thenRun
    { e with
      timeline :=
        if a.ok then e.timeline.releaseAudit uuid7 approve a.now else e.timeline
      resolutions := e.resolutions ++ [e.resolution a uuid7 approve performed] }
    []

def step (e : AuditState) (a : DecisionAnswer) :
    DecisionFrame → Outcome AuditState DecisionFrame
  | .readReason uuid7 approve =>
      .thenRun e
        [.readUser uuid7 (if a.ok then e.timeline.auditReason uuid7 else "")
          approve]
  | .readUser uuid7 reason approve => readUserStep e a uuid7 reason approve
  | .unblock uuid7 userUuid7 =>
      .thenRun { e with db := if a.ok then (e.db.unblockUser userUuid7).1 else e.db }
        [.relay uuid7 userUuid7 true [.unblock userUuid7]]
  | .relay uuid7 userUuid7 approve performed =>
      .thenRun
        { e with
          verdicts := e.verdicts ++ if a.ok then [⟨uuid7, approve⟩] else [] }
        [.release uuid7 (some userUuid7) approve
          (performed ++ [.relay ⟨uuid7, approve⟩])]
  | .release uuid7 _ approve performed => releaseStep e a uuid7 approve performed

end DecisionFrame

/-- The decisions as a program; a query without a uuid is denied at once. -/
def decisions : Program AuditState DecisionFrame DecisionAnswer DecisionEvent where
  step e f a := some (f.step e a)
  catches _ := false
  event e
    | .query uuid7 approve =>
        some (e, if uuid7 = "" then [] else [[.readReason uuid7 approve]])
    | .prompt uuid7 reason approve =>
        some (e, [[.readUser uuid7 reason approve]])

section Defs

/-- The requests are made exactly for the decision that moved the row, which
happens once, and every other decision is refused and has made none. -/
structure ResolvedOnce (s : AuditPool) : Prop where
  exactly : ∀ r ∈ s.shared.resolutions, r.moved = true →
    r.performed = r.calledFor
  refused : ∀ r ∈ s.shared.resolutions, r.moved = false →
    r.accepted = false ∧ r.performed = []
  once : ((s.shared.resolutions.filter (·.moved)).map (·.uuid7)).Nodup

/-- A decision whose release lands finds the row still held, and has read of the
appeal what the row says; one whose release fails has found no appeal. -/
def FindsHeld (s : AuditPool) (a : DecisionAnswer) : DecisionFrame → Prop
  | .release uuid7 found approve _ =>
      if a.ok then
        s.shared.timeline.isAudited uuid7 = true ∧
          found.isSome = (s.shared.timeline.heldAppeal uuid7).isSome ∧
          (approve = true → found = s.shared.timeline.heldAppeal uuid7)
      else found = none
  | _ => True

instance (s : AuditPool) (a : DecisionAnswer) (f : DecisionFrame) :
    Decidable (FindsHeld s a f) := by
  unfold FindsHeld
  repeat' split
  all_goals infer_instance

/-- The requests a decision has made are those its reading calls for. -/
def DecisionFrame.Follows : DecisionFrame → Prop
  | .unblock _ userUuid7 => userUuid7 ≠ ""
  | .relay _ userUuid7 approve performed =>
      performed = unblockEffects userUuid7 approve
  | .release uuid7 found approve performed =>
      performed = appealEffects uuid7 approve found
  | _ => True

end Defs

section Steps

variable {e : AuditState} {a : DecisionAnswer} {f : DecisionFrame}

/-- A released row is not held, and no other row is touched. -/
theorem isAudited_releaseAudit
    (t : Timeline) (uuid7 v : String) (approve : Bool) (now : Nat) :
    (t.releaseAudit uuid7 approve now).isAudited v =
      (t.isAudited v && decide (v ≠ uuid7)) := by
  unfold Timeline.releaseAudit Timeline.isAudited
  rw [Timeline.row?_update]
  by_cases hv : v = uuid7
  · subst hv
    cases hrow : t.row? v with
    | none => simp
    | some r =>
        by_cases hheld : r.pipelineStatus = .audit
        · cases approve <;> simp [Row.releaseAudit, hheld]
        · simp [Row.releaseAudit, hheld]
  · simp [hv]

/-- Different findings call for different requests, but for the user of a
rejected appeal. -/
theorem appealEffects_inj
    {uuid7 : String} {approve : Bool} {found held : Option String} :
    appealEffects uuid7 approve found = appealEffects uuid7 approve held ↔
      found.isSome = held.isSome ∧ (approve = true → found = held) := by
  cases found with
  | none => cases held <;> simp [appealEffects]
  | some user =>
      cases held with
      | none => simp [appealEffects]
      | some user' =>
          cases approve with
          | false => simp [appealEffects, unblockEffects]
          | true =>
              by_cases hu : user = "" <;> by_cases hu' : user' = "" <;>
                simp [appealEffects, unblockEffects, hu, hu', eq_comm]

theorem appealEffects_eq_nil
    {uuid7 : String} {approve : Bool} {found : Option String} :
    appealEffects uuid7 approve found = [] ↔ found = none := by
  cases found <;> simp [appealEffects]

/-- Everything a step does to the rows and to the resolutions. -/
theorem DecisionFrame.step_cases
    (f : DecisionFrame) (e : AuditState) (a : DecisionAnswer) :
    ((f.step e a).shared.timeline = e.timeline ∧
      (f.step e a).shared.resolutions = e.resolutions ∧
      ∀ uuid7 found approve performed,
        f ≠ .release uuid7 found approve performed) ∨
    ∃ uuid7 found approve performed,
      f = .release uuid7 found approve performed := by
  cases f with
  | release uuid7 found approve performed => exact Or.inr ⟨_, _, _, _, rfl⟩
  | readUser uuid7 reason approve =>
      refine Or.inl ⟨?_, ?_, by simp⟩ <;>
        simp only [step, readUserStep] <;> repeat' split
      all_goals rfl
  | _ => exact Or.inl ⟨rfl, rfl, by simp⟩

theorem DecisionFrame.resolutions_release
    (e : AuditState) (a : DecisionAnswer) (uuid7 : String) (found : Option String)
    (approve : Bool) (performed : List AuditEffect) :
    ((DecisionFrame.release uuid7 found approve performed).step e
        a).shared.resolutions =
      e.resolutions ++ [e.resolution a uuid7 approve performed] := rfl

/-- The requests made so far stay those of the reading. -/
theorem DecisionFrame.Follows.step
    (h : f.Follows) :
    ∀ g ∈ (f.step e a).new, g.Follows := by
  cases f with
  | readReason uuid7 approve =>
      simp [DecisionFrame.step, DecisionFrame.Follows]
  | readUser uuid7 reason approve =>
      simp only [DecisionFrame.step, readUserStep]
      split
      · simp [DecisionFrame.Follows, appealEffects]
      · generalize (if a.ok = true then e.timeline.appealUser uuid7 else "") = user
        split
        · rename_i hunblock
          simpa [DecisionFrame.Follows] using hunblock.2
        · rename_i hrelay
          simp [DecisionFrame.Follows, unblockEffects, hrelay]
  | unblock uuid7 userUuid7 =>
      have huser : userUuid7 ≠ "" := h
      simp [DecisionFrame.step, DecisionFrame.Follows, unblockEffects, huser]
  | relay uuid7 userUuid7 approve performed =>
      obtain rfl : performed = unblockEffects userUuid7 approve := h
      simp [DecisionFrame.step, DecisionFrame.Follows, appealEffects]
  | release uuid7 found approve performed =>
      simp [DecisionFrame.step, releaseStep]

/-- A row that is not held stays so. -/
theorem DecisionFrame.isAudited_step
    {v : String}
    (h : e.timeline.isAudited v = false) :
    (f.step e a).shared.timeline.isAudited v = false := by
  rcases f.step_cases e a with ⟨htimeline, -, -⟩ |
      ⟨uuid7, found, approve, performed, rfl⟩
  · rwa [htimeline]
  · change Timeline.isAudited (if a.ok then _ else _) v = false
    split
    · rw [isAudited_releaseAudit, h]
      rfl
    · exact h

/-- A decision that moved its row leaves it released. -/
theorem DecisionFrame.isAudited_moved
    {uuid7 : String} {found : Option String} {approve : Bool}
    {performed : List AuditEffect}
    (h : (e.resolution a uuid7 approve performed).moved = true) :
    ((DecisionFrame.release uuid7 found approve performed).step e
      a).shared.timeline.isAudited uuid7 = false := by
  have hok : a.ok = true := (Bool.and_eq_true_iff.mp h).1
  change Timeline.isAudited (if a.ok then _ else _) uuid7 = false
  rw [if_pos hok, isAudited_releaseAudit]
  simp

end Steps

section Runs

/-- The invariant of a run: resolved once, and a moved row is not held. -/
structure ResolvedRows (s : AuditPool) : Prop where
  resolved : ResolvedOnce s
  moved : ∀ r ∈ s.shared.resolutions, r.moved = true →
    s.shared.timeline.isAudited r.uuid7 = false
  frames : ∀ f ∈ s.frames, f.Follows

variable {s s' : AuditPool} {a : DecisionAnswer} {f : DecisionFrame}

/-- A decision that finds its row held resolves it, and one whose release fails
is refused. -/
theorem ResolvedOnce.release
    {uuid7 : String} {found : Option String} {approve : Bool}
    {performed : List AuditEffect}
    (h : ResolvedRows s)
    (hfollows : performed = appealEffects uuid7 approve found)
    (hresolutions : s'.shared.resolutions =
      s.shared.resolutions ++ [s.shared.resolution a uuid7 approve performed])
    (hok : FindsHeld s a (.release uuid7 found approve performed)) :
    ResolvedOnce s' := by
  have hlast : ∀ r ∈ s'.shared.resolutions, r ∈ s.shared.resolutions ∨
      r = s.shared.resolution a uuid7 approve performed := by
    intro r hr
    rw [hresolutions] at hr
    simpa using hr
  constructor
  · intro r hr hmoved
    rcases hlast r hr with hr | rfl
    · exact h.resolved.exactly r hr hmoved
    · have hanswer : a.ok = true := (Bool.and_eq_true_iff.mp hmoved).1
      rw [FindsHeld, if_pos hanswer] at hok
      exact hfollows.trans (appealEffects_inj.mpr hok.2)
  · intro r hr hmoved
    rcases hlast r hr with hr | rfl
    · exact h.resolved.refused r hr hmoved
    · by_cases hanswer : a.ok = true
      · rw [FindsHeld, if_pos hanswer] at hok
        simp [AuditState.resolution, hanswer, hok.1] at hmoved
      · rw [FindsHeld, if_neg hanswer] at hok
        exact ⟨Bool.eq_false_of_not_eq_true hanswer,
          hfollows.trans (appealEffects_eq_nil.mpr hok)⟩
  · rw [hresolutions, List.filter_append, List.map_append]
    refine List.Nodup.append h.resolved.once ?_ ?_
    · cases hmoved : (s.shared.resolution a uuid7 approve performed).moved <;>
        simp [hmoved]
    · -- the row of an earlier resolution is no longer held
      intro v hbefore hnow
      obtain ⟨r, hr, rfl⟩ := List.mem_map.mp hbefore
      obtain ⟨hr, hmoved⟩ := List.mem_filter.mp hr
      obtain ⟨r', hr', hsame⟩ := List.mem_map.mp hnow
      obtain ⟨hr', hmoved'⟩ := List.mem_filter.mp hr'
      obtain rfl := List.mem_singleton.mp hr'
      have hheld : s.shared.timeline.isAudited uuid7 = true :=
        (Bool.and_eq_true_iff.mp hmoved').2
      have hreleased : s.shared.timeline.isAudited uuid7 = false := by
        have hkey : uuid7 = r.uuid7 := hsame
        rw [hkey]
        exact h.moved r hr hmoved
      simp [hreleased] at hheld

/-- The step lemma. -/
theorem ResolvedRows.run
    (h : ResolvedRows s)
    (hf : f.Follows)
    (hok : FindsHeld s a f)
    (hs' : s'.shared = (f.step s.shared a).shared)
    (hframes : ∀ g ∈ s'.frames, g ∈ (f.step s.shared a).new ∨ g ∈ s.frames) :
    ResolvedRows s' := by
  have hfollows : ∀ g ∈ s'.frames, g.Follows := by
    intro g hg
    rcases hframes g hg with hg | hg
    · exact hf.step g hg
    · exact h.frames g hg
  rcases f.step_cases s.shared a with ⟨htimeline, hresolutions, -⟩ |
      ⟨uuid7, found, approve, performed, rfl⟩
  · rw [← hs'] at htimeline hresolutions
    refine ⟨⟨?_, ?_, ?_⟩, ?_, hfollows⟩
    · simpa only [hresolutions] using h.resolved.exactly
    · simpa only [hresolutions] using h.resolved.refused
    · simpa only [hresolutions] using h.resolved.once
    · simpa only [hresolutions, htimeline] using h.moved
  · have hresolutions := DecisionFrame.resolutions_release s.shared a uuid7 found
      approve performed
    rw [← hs'] at hresolutions
    refine ⟨.release h hf hresolutions hok, fun r hr hmoved => ?_, hfollows⟩
    rw [hs']
    rw [hresolutions] at hr
    rcases List.mem_append.mp hr with hr | hr
    · exact DecisionFrame.isAudited_step (h.moved r hr hmoved)
    · obtain rfl := List.mem_singleton.mp hr
      exact DecisionFrame.isAudited_moved hmoved

/-- A new decision has made no requests. -/
theorem ResolvedRows.world
    {ev : DecisionEvent} {r : AuditState × List (List DecisionFrame)}
    (h : ResolvedRows s)
    (hr : decisions.event s.shared ev = some r) :
    ResolvedRows { shared := r.1, threads := s.threads ++ r.2 } := by
  have hnew : r.1 = s.shared ∧ ∀ f ∈ r.2.flatten, f.Follows := by
    cases ev with
    | query uuid7 approve =>
        obtain rfl := Option.some.inj hr
        refine ⟨rfl, ?_⟩
        split <;> simp [DecisionFrame.Follows]
    | prompt uuid7 reason approve =>
        obtain rfl := Option.some.inj hr
        exact ⟨rfl, by simp [DecisionFrame.Follows]⟩
  obtain ⟨hshared, hfollows⟩ := hnew
  rw [hshared]
  refine ⟨⟨h.resolved.exactly, h.resolved.refused, h.resolved.once⟩, h.moved, ?_⟩
  intro f hf
  rw [Pool.frames, List.flatten_append] at hf
  exact (List.mem_append.mp hf).elim (h.frames f) (hfollows f)

/-- A decision that moves no row, or that has misread the row, shows. -/
theorem findsHeld_of_resolvedOnce
    (hf : f.Follows)
    (hs' : s'.shared = (f.step s.shared a).shared)
    (h : ResolvedOnce s') :
    FindsHeld s a f := by
  rcases f.step_cases s.shared a with ⟨-, -, hother⟩ |
      ⟨uuid7, found, approve, performed, rfl⟩
  · cases f with
    | release uuid7 found approve performed => exact absurd rfl (hother _ _ _ _)
    | _ => trivial
  · obtain rfl : performed = appealEffects uuid7 approve found := hf
    have hlast : s.shared.resolution a uuid7 approve
        (appealEffects uuid7 approve found) ∈ s'.shared.resolutions := by
      rw [hs', DecisionFrame.resolutions_release]
      simp
    by_cases hanswer : a.ok = true
    · rw [FindsHeld, if_pos hanswer]
      have hmoved : (s.shared.resolution a uuid7 approve
          (appealEffects uuid7 approve found)).moved = true := by
        by_contra hnot
        have hrefused := h.refused _ hlast (by simpa using hnot)
        simp [AuditState.resolution, hanswer] at hrefused
      exact ⟨(Bool.and_eq_true_iff.mp hmoved).2,
        appealEffects_inj.mp (h.exactly _ hlast hmoved)⟩
    · rw [FindsHeld, if_neg hanswer]
      have hrefused := h.refused _ hlast (by simp [AuditState.resolution, hanswer])
      exact appealEffects_eq_nil.mp hrefused.2

end Runs

/-- Before any decision. -/
def undecided (timeline : Timeline) (db : UserDb) : AuditPool :=
  { shared := { timeline := timeline, db := db }, threads := [] }

theorem resolvedRows_undecided (timeline : Timeline) (db : UserDb) :
    ResolvedRows (undecided timeline db) where
  resolved :=
    { exactly := by simp [undecided]
      refused := by simp [undecided]
      once := by simp [undecided] }
  moved := by simp [undecided]
  frames := by simp [undecided, Pool.frames]

/-- A decision that nothing comes between does what the queries of the control
surface do to the stores in one step. -/
theorem exec_decideAudit
    (e : AuditState) (uuid7 reason : String) (approve : Bool) (now : Nat)
    (cache : Finset String) :
    ∃ n s', decisions.exec
        { shared := e, threads := [[.readUser uuid7 reason approve]] }
        (List.replicate n (.run 0 { now := now })) = some s' ∧
      s'.threads = [[]] ∧
      s'.shared.stores cache =
        (e.stores cache).decideAudit uuid7 reason approve now ∧
      s'.shared.verdicts = e.verdicts ++
        ((e.stores cache).resolveBlockAppeal uuid7 reason approve).2.toList := by
  by_cases happeal : isBlockAppealReason reason = true
  · by_cases hunblock : approve = true ∧ e.timeline.appealUser uuid7 ≠ ""
    · obtain ⟨rfl, huser⟩ := hunblock
      refine ⟨4, ?_⟩
      simp [List.replicate, Program.exec, Program.fire, Program.unwind, decisions,
        DecisionFrame.step, DecisionFrame.readUserStep, DecisionFrame.releaseStep,
        Outcome.thenRun, AuditState.stores, BlockStores.decideAudit,
        BlockStores.resolveBlockAppeal, happeal, huser]
    · refine ⟨3, ?_⟩
      simp [List.replicate, Program.exec, Program.fire, Program.unwind, decisions,
        DecisionFrame.step, DecisionFrame.readUserStep, DecisionFrame.releaseStep,
        Outcome.thenRun, AuditState.stores, BlockStores.decideAudit,
        BlockStores.resolveBlockAppeal, happeal, hunblock]
      intro happrove huser
      exact absurd ⟨happrove, of_decide_eq_true huser⟩ hunblock
  · refine ⟨2, ?_⟩
    simp [List.replicate, Program.exec, Program.fire, Program.unwind, decisions,
      DecisionFrame.step, DecisionFrame.readUserStep, DecisionFrame.releaseStep,
      Outcome.thenRun, AuditState.stores, BlockStores.decideAudit,
      BlockStores.resolveBlockAppeal, happeal]

/-- **Main theorem.**  In each state of a run the rows are resolved once,
exactly when every decision of the run comes to its release with the row still
held and its appeal read as the row has it, or without an appeal when the
release fails. -/
theorem resolved_once_iff
    (timeline : Timeline) (db : UserDb) (ls : List AuditLabel)
    (hrun : (decisions.exec (undecided timeline db) ls).isSome) :
    AllStates decisions ResolvedOnce (undecided timeline db) ls ↔
      AllSteps decisions (OnRun FindsHeld) (undecided timeline db) ls := by
  refine allStates_iff_allSteps ResolvedRows.resolved ?_ ?_
    (resolvedRows_undecided timeline db) hrun
  · rintro s s' (⟨i, a⟩ | ev) h hok hfire
    · obtain ⟨f, rest, o, hi, ho, rfl⟩ := fire_run_cases hfire
      obtain rfl := Option.some.inj ho
      exact h.run (h.frames f (mem_frames_of_getElem? hi (by simp))) (hok.top hi)
        rfl fun g hg => mem_frames_after_run hi hg
    · obtain ⟨r, hr, rfl⟩ := fire_world_cases hfire
      exact h.world hr
  · rintro s s' (⟨i, a⟩ | ev) h hfire hafter
    · obtain ⟨f, rest, o, hi, ho, rfl⟩ := fire_run_cases hfire
      obtain rfl := Option.some.inj ho
      intro g hg
      obtain rfl : f = g := by simpa [Pool.top, hi] using hg
      exact findsHeld_of_resolvedOnce
        (h.frames f (mem_frames_of_getElem? hi (by simp))) rfl hafter
    · trivial

section Examples

/-- A block appeal of one user is held. -/
def appealHeld : Timeline where
  rows := [("m1",
    { eventType := 1, platform := "twitch", rawMessage := "!appeal", command := ""
      flags := some "block appeal a1", userUuid7 := some "u1"
      pipelineStatus := .audit })]

/-- A query decides on the appeal. -/
def decidedOnce : List AuditLabel :=
  .world (.query "m1" true) :: List.replicate 5 (.run 0 {})

theorem resolved_once_iff_decidedOnce :
    AllStates decisions ResolvedOnce (undecided appealHeld {}) decidedOnce :=
  (resolved_once_iff appealHeld {} decidedOnce rfl).mpr (by decide)

/-- The appeal is rejected, and approved after that. -/
def decidedTwice : List AuditLabel :=
  [.world (.query "m1" false), .run 0 {}, .run 0 {}, .run 0 {}, .run 0 {},
   .world (.prompt "m1" "block appeal a1" true), .run 1 {}, .run 1 {}, .run 1 {},
   .run 1 {}]

/-- The second decision unblocks the user and is accepted, although the row has
been rejected. -/
theorem resolved_twice :
    ¬ ∀ (timeline : Timeline) (db : UserDb) (ls : List AuditLabel) (s : AuditPool),
      decisions.exec (undecided timeline db) ls = some s →
      ResolvedOnce s := by
  intro h
  have hrefused := (h appealHeld {} decidedTwice _ rfl).refused
    { uuid7 := "m1", moved := false, accepted := true
      performed := [.unblock "u1", .relay ⟨"m1", true⟩]
      calledFor := [.unblock "u1", .relay ⟨"m1", true⟩] }
    (by decide) rfl
  exact absurd hrefused.1 (by decide)

end Examples

end CockatielEngine
