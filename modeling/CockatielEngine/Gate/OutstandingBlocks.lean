import CockatielEngine.Pipeline.PauseState
import CockatielEngine.Concurrency.TaskPool

/-!
# Gate: several missing dependencies

`set_block` and `clear_block` share one slot.  A reason that the slot refused,
or that a higher one replaced, leaves no trace in it.

**Main result.**  Along a sequence of these calls the gate stays closed while a
reason is outstanding, and the slot shows the highest of them, exactly when the
reported reason is only ever cleared as the last one outstanding.
-/

namespace CockatielEngine

open TaskPool

section Defs

/-- The pause state, and the reasons that were set and not cleared since. -/
structure BlockLedger where
  pauseState : PauseState
  outstanding : Finset BlockedReason

inductive BlockCall where
  | setBlock (reason : BlockedReason)
  | clearBlock (reason : BlockedReason)

namespace BlockLedger

/-- No call of the sequence has been made yet: what the slot shows is all that
is outstanding. -/
def start (pauseState : PauseState) : BlockLedger where
  pauseState := pauseState
  outstanding := pauseState.blocked.toFinset

def handle (s : BlockLedger) : BlockCall → BlockLedger
  | .setBlock reason =>
      { pauseState := s.pauseState.setBlock reason
        outstanding := insert reason s.outstanding }
  | .clearBlock reason =>
      { pauseState := (s.pauseState.clearBlock reason).2
        outstanding := s.outstanding.erase reason }

end BlockLedger

/-- The calls as a program without tasks: each is one critical section. -/
def blockCalls : Program BlockLedger Empty Unit BlockCall where
  step _ f _ := nomatch f
  catches f := nomatch f
  event s call := some (s.handle call, [])

/-- The reason is outstanding, and none that is outranks it. -/
def Highest (outstanding : Finset BlockedReason) (reason : BlockedReason) :
    Prop :=
  reason ∈ outstanding ∧
    ∀ other ∈ outstanding, other.priority ≤ reason.priority

/-- Dispatch is gated while a reason is outstanding, and the highest of them is
the one reported. -/
def ReportsOutstanding (s : BlockLedger) : Prop :=
  (s.outstanding.Nonempty → s.pauseState.isGated = true) ∧
    ∀ reason, s.pauseState.blocked = some reason ↔
      Highest s.outstanding reason

/-- The reported reason is cleared as the last one outstanding. -/
def ClearsLast (s : Pool BlockLedger Empty) : Label Unit BlockCall → Prop
  | .world (.clearBlock reason) =>
      s.shared.pauseState.blocked = some reason →
        s.shared.outstanding.erase reason = ∅
  | _ => True

end Defs

section Steps

variable {outstanding : Finset BlockedReason} {reason other : BlockedReason}
variable {s : BlockLedger}

theorem BlockedReason.priority_injective :
    Function.Injective BlockedReason.priority := by
  intro r r' h
  cases r <;> cases r' <;> simp_all [BlockedReason.priority]

theorem Highest.eq
    (h : Highest outstanding reason)
    (h' : Highest outstanding other) :
    reason = other :=
  BlockedReason.priority_injective
    (le_antisymm (h'.2 reason h.1) (h.2 other h'.1))

theorem exists_highest
    (h : outstanding.Nonempty) :
    ∃ reason, Highest outstanding reason :=
  outstanding.exists_max_image BlockedReason.priority h

/-- Showing the highest outstanding reason is all there is to report. -/
theorem reportsOutstanding_of_highest
    (hb : s.pauseState.blocked = some reason)
    (h : Highest s.outstanding reason) :
    ReportsOutstanding s := by
  refine ⟨fun _ => (PauseState.isGated_iff _).mpr (Or.inr ⟨reason, hb⟩), ?_⟩
  intro other
  rw [hb, Option.some.injEq]
  constructor
  · rintro rfl
    exact h
  · exact h.eq

theorem reportsOutstanding_of_empty
    (hb : s.pauseState.blocked = none)
    (h : s.outstanding = ∅) :
    ReportsOutstanding s := by
  simp [ReportsOutstanding, Highest, hb, h]

/-- What the slot shows is what is outstanding. -/
theorem ReportsOutstanding.empty_of_none
    (h : ReportsOutstanding s)
    (hb : s.pauseState.blocked = none) :
    s.outstanding = ∅ := by
  by_contra hne
  obtain ⟨reason, hreason⟩ := exists_highest (Finset.nonempty_iff_ne_empty.mpr hne)
  simp [(h.2 reason).mpr hreason] at hb

theorem reportsOutstanding_start
    (pauseState : PauseState) :
    ReportsOutstanding (.start pauseState) := by
  cases hb : pauseState.blocked with
  | none =>
      exact reportsOutstanding_of_empty hb (by simp [BlockLedger.start, hb])
  | some reason =>
      exact reportsOutstanding_of_highest hb
        (by simp [BlockLedger.start, hb, Highest])

/-- Setting a reason never loses the report. -/
theorem ReportsOutstanding.setBlock
    (h : ReportsOutstanding s)
    (reason : BlockedReason) :
    ReportsOutstanding (s.handle (.setBlock reason)) := by
  cases hb : s.pauseState.blocked with
  | none =>
      refine reportsOutstanding_of_highest (show _ = some reason from ?_) ?_
      · simp [BlockLedger.handle, PauseState.setBlock, hb]
      · simp [BlockLedger.handle, Highest, h.empty_of_none hb]
  | some current =>
      obtain ⟨hmem, hmax⟩ := (h.2 current).mp hb
      by_cases hlt : current.priority < reason.priority
      · refine reportsOutstanding_of_highest (show _ = some reason from ?_) ?_
        · simp [BlockLedger.handle, PauseState.setBlock, hb, hlt]
        · refine ⟨Finset.mem_insert_self _ _, fun other hother => ?_⟩
          rcases Finset.mem_insert.mp hother with rfl | hother
          · exact le_rfl
          · exact (hmax other hother).trans hlt.le
      · refine reportsOutstanding_of_highest (show _ = some current from ?_) ?_
        · simp [BlockLedger.handle, PauseState.setBlock, hb, hlt]
        · refine ⟨Finset.mem_insert_of_mem hmem, fun other hother => ?_⟩
          rcases Finset.mem_insert.mp hother with rfl | hother
          · exact not_lt.mp hlt
          · exact hmax other hother

/-- Clearing a reason keeps the report exactly when it was not the one shown or
was the last one outstanding. -/
theorem ReportsOutstanding.clearBlock_iff
    (h : ReportsOutstanding s)
    (reason : BlockedReason) :
    ReportsOutstanding (s.handle (.clearBlock reason)) ↔
      (s.pauseState.blocked = some reason → s.outstanding.erase reason = ∅) := by
  by_cases hb : s.pauseState.blocked = some reason
  · have hnone : (s.handle (.clearBlock reason)).pauseState.blocked = none := by
      simp [BlockLedger.handle, PauseState.clearBlock, hb]
    refine ⟨fun hafter _ => hafter.empty_of_none hnone, fun hlast => ?_⟩
    exact reportsOutstanding_of_empty hnone (hlast hb)
  · have hsame : (s.handle (.clearBlock reason)).pauseState = s.pauseState := by
      simp [BlockLedger.handle, PauseState.clearBlock, hb]
    refine iff_of_true ?_ fun hb' => absurd hb' hb
    cases hshown : s.pauseState.blocked with
    | none =>
        refine reportsOutstanding_of_empty (by rw [hsame, hshown]) ?_
        simp [BlockLedger.handle, h.empty_of_none hshown]
    | some current =>
        have hne : current ≠ reason := fun heq => hb (heq ▸ hshown)
        obtain ⟨hmem, hmax⟩ := (h.2 current).mp hshown
        exact reportsOutstanding_of_highest (hsame ▸ hshown)
          ⟨Finset.mem_erase.mpr ⟨hne, hmem⟩,
            fun other hother => hmax other (Finset.mem_of_mem_erase hother)⟩

/-- One call keeps the report exactly when it clears the last reason. -/
theorem ReportsOutstanding.fire_iff
    {s s' : Pool BlockLedger Empty} {l : Label Unit BlockCall}
    (h : ReportsOutstanding s.shared)
    (hfire : blockCalls.fire s l = some s') :
    ReportsOutstanding s'.shared ↔ ClearsLast s l := by
  cases l with
  | run i a =>
      obtain ⟨f, -⟩ := fire_run_cases hfire
      exact f.elim
  | world call =>
      obtain ⟨r, hr, rfl⟩ := fire_world_cases hfire
      obtain rfl := Option.some.inj hr
      cases call with
      | setBlock reason => exact iff_of_true (h.setBlock reason) trivial
      | clearBlock reason => exact h.clearBlock_iff reason

/-- Every sequence of calls runs to its end. -/
theorem exec_blockCalls_isSome
    (s : Pool BlockLedger Empty) (calls : List BlockCall) :
    (blockCalls.exec s (calls.map .world)).isSome := by
  induction calls generalizing s with
  | nil => rfl
  | cons call calls ih => exact ih _

end Steps

/-- **Main theorem.**  Over any sequence of `set_block` and `clear_block` calls,
dispatch is gated while a reason is outstanding and the highest outstanding
reason is the one reported, after every call, exactly when each call that
clears the reported reason clears the last one outstanding. -/
theorem reportsOutstanding_iff_clearsLast
    (pauseState : PauseState)
    (calls : List BlockCall) :
    AllStates blockCalls (fun s => ReportsOutstanding s.shared)
        { shared := .start pauseState, threads := [] } (calls.map .world) ↔
      AllSteps blockCalls ClearsLast
        { shared := .start pauseState, threads := [] } (calls.map .world) :=
  allStates_iff_allSteps (I := fun s => ReportsOutstanding s.shared) id
    (fun h hok hfire => (h.fire_iff hfire).mpr hok)
    (fun h hfire hafter => (h.fire_iff hfire).mp hafter)
    (reportsOutstanding_start pauseState) (exec_blockCalls_isSome _ calls)

/-- The timeline database comes back while the user database is still gone. -/
def timelineBackFirst : List BlockCall :=
  [.setBlock .userDb, .setBlock .timelineDb, .clearBlock .timelineDb]

/-- The gate is open with the user database still missing. -/
theorem open_with_user_db_missing :
    ¬ ∀ (pauseState : PauseState) (calls : List BlockCall)
        (s : Pool BlockLedger Empty),
      blockCalls.exec { shared := .start pauseState, threads := [] }
          (calls.map .world) = some s →
      ReportsOutstanding s.shared := by
  intro h
  have hreports := h {} timelineBackFirst _ rfl
  exact absurd (hreports.1 (by decide)) (by decide)

end CockatielEngine
