import Mathlib.Data.Finset.Basic
import Mathlib.Data.List.Basic
import Mathlib.Tactic

/-!
# Sessions: runs of attendance

A history is the list of the sessions that have been closed, newest first, each
with those who attended it.  A *run* of somebody is a stretch of consecutive
sessions that they all attended: the current run ends with the newest session,
the last run with the newest session that they attended at all.

**Rules.**
* `currentRun_cons`, `lastRun_cons`: what one more session makes of the runs.
* `currentRun_eq_ite_last`: the current run is the last one exactly when the
  newest session is the one it ends with.
-/

namespace CockatielEngine
namespace Sessions

universe u v

/-- A session under its name, with those who attended it. -/
structure Session (ι : Type u) (α : Type v) where
  id : ι
  attendees : Finset α

variable {ι : Type u} {α : Type v} [DecidableEq α]

instance [DecidableEq ι] : DecidableEq (Session ι α) := fun s t =>
  decidable_of_iff (s.id = t.id ∧ s.attendees = t.attendees)
    (by cases s; cases t; simp)

/-- The length of the run that ends with the newest session. -/
def currentRun (a : α) (closed : List (Session ι α)) : Nat :=
  (closed.takeWhile fun s => decide (a ∈ s.attendees)).length

/-- The history up to the newest session that was attended. -/
def sinceLast (a : α) (closed : List (Session ι α)) : List (Session ι α) :=
  closed.dropWhile fun s => decide (a ∉ s.attendees)

/-- The length of the run that ends with the newest attended session. -/
def lastRun (a : α) (closed : List (Session ι α)) : Nat :=
  currentRun a (sinceLast a closed)

section Lemmas

variable {a : α} {s : Session ι α} {closed : List (Session ι α)}

@[simp] theorem currentRun_nil :
    currentRun a ([] : List (Session ι α)) = 0 := rfl

@[simp] theorem sinceLast_nil :
    sinceLast a ([] : List (Session ι α)) = [] := rfl

@[simp] theorem lastRun_nil :
    lastRun a ([] : List (Session ι α)) = 0 := rfl

theorem currentRun_cons
    (a : α) (s : Session ι α) (closed : List (Session ι α)) :
    currentRun a (s :: closed) =
      if a ∈ s.attendees then currentRun a closed + 1 else 0 := by
  unfold currentRun
  split <;> rename_i h <;> simp [h]

theorem sinceLast_cons
    (a : α) (s : Session ι α) (closed : List (Session ι α)) :
    sinceLast a (s :: closed) =
      if a ∈ s.attendees then s :: closed else sinceLast a closed := by
  unfold sinceLast
  split <;> rename_i h <;> simp [h]

theorem lastRun_cons
    (a : α) (s : Session ι α) (closed : List (Session ι α)) :
    lastRun a (s :: closed) =
      if a ∈ s.attendees then currentRun a closed + 1 else lastRun a closed := by
  unfold lastRun
  rw [sinceLast_cons]
  split
  · rename_i h
    rw [currentRun_cons, if_pos h]
  · rfl

theorem mem_of_sinceLast
    {rest : List (Session ι α)}
    (h : sinceLast a closed = s :: rest) :
    s ∈ closed :=
  (List.dropWhile_sublist _).subset (h ▸ List.mem_cons_self)

/-- Somebody has a last session exactly when they attended one. -/
theorem sinceLast_eq_nil_iff :
    sinceLast a closed = [] ↔ ∀ s ∈ closed, a ∉ s.attendees := by
  induction closed with
  | nil => simp
  | cons s closed ih =>
      rw [sinceLast_cons, List.forall_mem_cons]
      split
      · rename_i hmem
        simp [hmem]
      · rename_i hmem
        simp [hmem, ih]

/-- The current run is the last one exactly when the newest session is the one
that it ends with. -/
theorem currentRun_eq_ite_last
    [DecidableEq ι]
    (hids : (closed.map (·.id)).Nodup) :
    currentRun a closed =
      if (sinceLast a closed).head?.map (·.id) = closed.head?.map (·.id) then
        lastRun a closed
      else 0 := by
  cases closed with
  | nil => rfl
  | cons s closed =>
      by_cases hmem : a ∈ s.attendees
      · simp [currentRun_cons, sinceLast_cons, lastRun_cons, hmem]
      · rw [currentRun_cons, if_neg hmem, sinceLast_cons, if_neg hmem]
        split
        · rename_i hlast
          obtain ⟨t, ht, hid⟩ : ∃ t, (sinceLast a closed).head? = some t ∧
              t.id = s.id := by
            simpa [Option.map_eq_some_iff] using hlast
          obtain ⟨rest, hrest⟩ := List.head?_eq_some_iff.mp ht
          rw [List.map_cons, List.nodup_cons] at hids
          exact absurd (hid ▸ List.mem_map_of_mem (mem_of_sinceLast hrest)) hids.1
        · rfl

end Lemmas

end Sessions
end CockatielEngine
