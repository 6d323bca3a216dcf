import Mathlib.Data.List.Basic
import Mathlib.Data.String.Basic
import Mathlib.Tactic

/-!
# Pipeline: the pause state

The operator pause, the missing dependency that blocks dispatch, the deferred
intent to resume and the messages held behind the gate.  Each operation is one
critical section of the engine's `pause_state` lock; an operation that answers
returns its answer together with the new state.
-/

namespace CockatielEngine

/-- The dispatch a message was about to make when the gate held it. -/
inductive HoldPoint where
  | entry
  | inProcess
  | postProcess
deriving DecidableEq, Repr

/-- A required dependency the engine cannot run without. -/
inductive BlockedReason where
  | userDb
  | timelineDb
deriving DecidableEq, Repr

namespace BlockedReason

def asStr : BlockedReason → String
  | .userDb => "user_db"
  | .timelineDb => "timeline_db"

def priority : BlockedReason → Nat
  | .timelineDb => 2
  | .userDb => 1

end BlockedReason

/-- `held` is the engine's ordered map: its bindings in ascending key order. -/
structure PauseState where
  paused : Bool := false
  held : List (String × HoldPoint) := []
  blocked : Option BlockedReason := none
  resumeWhenUnblocked : Bool := false
deriving DecidableEq, Repr

namespace PauseState

def isGated (s : PauseState) : Bool :=
  s.paused || s.blocked.isSome

def setBlock (s : PauseState) (reason : BlockedReason) : PauseState :=
  match s.blocked with
  | none => { s with blocked := some reason }
  | some current =>
      if current.priority < reason.priority then
        { s with blocked := some reason }
      else s

/-- The answer tells the caller to run `resume`. -/
def clearBlock (s : PauseState) (reason : BlockedReason) : Bool × PauseState :=
  if s.blocked = some reason then
    (s.resumeWhenUnblocked,
      { s with blocked := none, resumeWhenUnblocked := false })
  else (false, s)

def deferResume (s : PauseState) : PauseState :=
  { s with resumeWhenUnblocked := true }

def deferPause (s : PauseState) : PauseState :=
  { s with resumeWhenUnblocked := false, paused := true }

/-- The answer is false when the engine was already paused. -/
def pause (s : PauseState) : Bool × PauseState :=
  if s.paused then (false, s) else (true, { s with paused := true })

/-- Bind a key of the ordered map. -/
def insertHeld (held : List (String × HoldPoint))
    (uuid7 : String) (point : HoldPoint) : List (String × HoldPoint) :=
  held.filter (fun h => h.1 < uuid7) ++
    (uuid7, point) :: held.filter (fun h => uuid7 < h.1)

/-- The answer `true` means that the caller must not dispatch. -/
def holdIfGated (s : PauseState) (uuid7 : String) (point : HoldPoint) :
    Bool × PauseState :=
  if s.isGated then
    (true, { s with held := insertHeld s.held uuid7 point })
  else (false, s)

/-- The first critical section of `resume`: open the operator's gate and take
everything it held. -/
def resume (s : PauseState) : (Bool × List (String × HoldPoint)) × PauseState :=
  ((s.paused, s.held), { s with held := [], paused := false })

/-! ## The gate after each operation -/

theorem isGated_iff
    (s : PauseState) :
    s.isGated = true ↔ s.paused = true ∨ ∃ r, s.blocked = some r := by
  simp [isGated, Option.isSome_iff_exists]

@[simp] theorem isGated_setBlock
    (s : PauseState) (reason : BlockedReason) :
    (s.setBlock reason).isGated = true := by
  unfold setBlock
  cases hb : s.blocked with
  | none =>
      simp [isGated]
  | some current =>
      dsimp only
      split <;> simp [isGated, hb]

@[simp] theorem isGated_pause
    (s : PauseState) :
    s.pause.2.isGated = true := by
  unfold pause
  split <;> simp_all [isGated]

@[simp] theorem isGated_deferPause
    (s : PauseState) :
    s.deferPause.isGated = true := by
  simp [deferPause, isGated]

@[simp] theorem isGated_deferResume
    (s : PauseState) :
    s.deferResume.isGated = s.isGated := by
  rfl

@[simp] theorem held_deferResume
    (s : PauseState) :
    s.deferResume.held = s.held := by
  rfl

@[simp] theorem held_resume
    (s : PauseState) :
    s.resume.2.held = [] := by
  rfl

/-- A hold never moves the gate. -/
@[simp] theorem isGated_holdIfGated
    (s : PauseState) (uuid7 : String) (point : HoldPoint) :
    (s.holdIfGated uuid7 point).2.isGated = s.isGated := by
  unfold holdIfGated
  split <;> rfl

/-- The gate answers that it holds exactly when it is closed. -/
@[simp] theorem holdIfGated_fst
    (s : PauseState) (uuid7 : String) (point : HoldPoint) :
    (s.holdIfGated uuid7 point).1 = s.isGated := by
  unfold holdIfGated
  split <;> simp_all

/-- An open gate holds nothing. -/
theorem holdIfGated_of_open
    {s : PauseState} {uuid7 : String} {point : HoldPoint}
    (h : s.isGated = false) :
    s.holdIfGated uuid7 point = (false, s) := by
  simp [holdIfGated, h]

/-- Binding a key replaces its hold point and keeps the other bindings. -/
theorem mem_insertHeld_iff
    (held : List (String × HoldPoint))
    (uuid7 : String) (point : HoldPoint) (v : String) (q : HoldPoint) :
    (v, q) ∈ insertHeld held uuid7 point ↔
      (v = uuid7 ∧ q = point) ∨ (v ≠ uuid7 ∧ (v, q) ∈ held) := by
  simp only [insertHeld, List.mem_append, List.mem_filter, List.mem_cons,
    Prod.mk.injEq, decide_eq_true_eq]
  constructor
  · rintro (⟨hm, hlt⟩ | ⟨rfl, rfl⟩ | ⟨hm, hlt⟩)
    · exact Or.inr ⟨hlt.ne, hm⟩
    · exact Or.inl ⟨rfl, rfl⟩
    · exact Or.inr ⟨hlt.ne', hm⟩
  · rintro (⟨rfl, rfl⟩ | ⟨hne, hm⟩)
    · exact Or.inr (Or.inl ⟨rfl, rfl⟩)
    · rcases lt_or_gt_of_ne hne with hlt | hlt
      · exact Or.inl ⟨hm, hlt⟩
      · exact Or.inr (Or.inr ⟨hm, hlt⟩)

@[simp] theorem held_setBlock
    (s : PauseState) (reason : BlockedReason) :
    (s.setBlock reason).held = s.held := by
  unfold setBlock
  repeat' split
  all_goals rfl

@[simp] theorem paused_setBlock
    (s : PauseState) (reason : BlockedReason) :
    (s.setBlock reason).paused = s.paused := by
  unfold setBlock
  repeat' split
  all_goals rfl

@[simp] theorem resumeWhenUnblocked_setBlock
    (s : PauseState) (reason : BlockedReason) :
    (s.setBlock reason).resumeWhenUnblocked = s.resumeWhenUnblocked := by
  unfold setBlock
  repeat' split
  all_goals rfl

/-- Some reason is shown once one was set. -/
@[simp] theorem blocked_isSome_setBlock
    (s : PauseState) (reason : BlockedReason) :
    (s.setBlock reason).blocked.isSome = true := by
  unfold setBlock
  cases hb : s.blocked with
  | none =>
      rfl
  | some current =>
      dsimp only
      split <;> simp [hb]

@[simp] theorem paused_clearBlock
    (s : PauseState) (reason : BlockedReason) :
    (s.clearBlock reason).2.paused = s.paused := by
  unfold clearBlock
  split <;> rfl

@[simp] theorem held_pause
    (s : PauseState) :
    s.pause.2.held = s.held := by
  unfold pause
  split <;> rfl

/-- Binding a key adds at most its own hold. -/
theorem count_insertHeld_le
    (v : String) (q : HoldPoint)
    (held : List (String × HoldPoint)) (uuid7 : String) (point : HoldPoint) :
    (insertHeld held uuid7 point).count (v, q) ≤
      held.count (v, q) + if uuid7 = v ∧ point = q then 1 else 0 := by
  have hbelow := List.Sublist.count_le (v, q)
    (List.filter_sublist (p := fun h : String × HoldPoint => decide (h.1 < uuid7))
      (l := held))
  have habove := List.Sublist.count_le (v, q)
    (List.filter_sublist (p := fun h : String × HoldPoint => decide (uuid7 < h.1))
      (l := held))
  have hdisjoint :
      (held.filter fun h => decide (h.1 < uuid7)).count (v, q) = 0 ∨
      (held.filter fun h => decide (uuid7 < h.1)).count (v, q) = 0 := by
    rcases lt_or_ge v uuid7 with hlt | hge
    · refine Or.inr (List.count_eq_zero.mpr fun hmem => ?_)
      have hgt : uuid7 < v := by simpa using (List.mem_filter.mp hmem).2
      exact lt_asymm hlt hgt
    · refine Or.inl (List.count_eq_zero.mpr fun hmem => ?_)
      have hlt : v < uuid7 := by simpa using (List.mem_filter.mp hmem).2
      exact absurd hlt (not_lt.mpr hge)
  have hhead : (if ((uuid7, point) == (v, q)) = true then 1 else 0) =
      if uuid7 = v ∧ point = q then 1 else 0 := by
    simp
  simp only [insertHeld, List.count_append, List.count_cons, hhead]
  omega

end PauseState
end CockatielEngine
