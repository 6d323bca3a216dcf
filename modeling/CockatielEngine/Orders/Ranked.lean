import Mathlib.Data.List.Sort
import Mathlib.Tactic

/-!
# Orders: ranks in a list

An element's rank counts those that come before it in an order.  In a list that is
sorted by the order, the element at an index is the one whose rank is the index.

**Rules.**
* `getElem?_eq_some_iff_ranked`: an element of a sorted list by its rank.
* `Ranked.perm`: ranks do not depend on how a list is arranged.
-/

namespace CockatielEngine

universe u

section Ranked

variable {α : Type u} {before : α → α → Bool} {l l' : List α} {k : Nat} {x y : α}

/-- Exactly `k` elements of the list come before this one of its elements. -/
def Ranked (before : α → α → Bool) (l : List α) (k : Nat) (x : α) : Prop :=
  x ∈ l ∧ l.countP (before · x) = k

theorem Ranked.perm
    (h : Ranked before l k x)
    (hperm : l.Perm l') :
    Ranked before l' k x :=
  ⟨hperm.mem_iff.mp h.1, (hperm.countP_eq _).symm.trans h.2⟩

theorem before_self
    (hasymm : ∀ x y, before x y = true → before y x = false)
    (x : α) :
    before x x = false := by
  cases hself : before x x with
  | false => rfl
  | true => exact hself.symm.trans (hasymm x x hself)

/-- As many elements of a sorted list come before one of them as its index says. -/
theorem countP_before_getElem
    (hasymm : ∀ x y, before x y = true → before y x = false)
    (hsorted : l.Pairwise fun x y => before x y = true)
    (hk : k < l.length) :
    l.countP (before · l[k]) = k := by
  induction l generalizing k with
  | nil => cases hk
  | cons a l ih =>
      obtain ⟨hfirst, hrest⟩ := List.pairwise_cons.mp hsorted
      cases k with
      | zero =>
          rw [List.countP_eq_zero]
          intro x hx
          rw [List.getElem_cons_zero, Bool.not_eq_true]
          rcases List.mem_cons.mp hx with rfl | hx
          · exact before_self hasymm x
          · exact hasymm a x (hfirst x hx)
      | succ k =>
          have hk : k < l.length := Nat.lt_of_succ_lt_succ hk
          rw [List.getElem_cons_succ, List.countP_cons, ih hrest hk,
            if_pos (hfirst _ (List.getElem_mem hk))]

/-- The element at an index of a sorted list is the one of that rank. -/
theorem getElem?_eq_some_iff_ranked
    (hasymm : ∀ x y, before x y = true → before y x = false)
    (hsorted : l.Pairwise fun x y => before x y = true) :
    l[k]? = some x ↔ Ranked before l k x := by
  constructor
  · intro h
    obtain ⟨hk, rfl⟩ := List.getElem?_eq_some_iff.mp h
    exact ⟨List.getElem_mem hk, countP_before_getElem hasymm hsorted hk⟩
  · rintro ⟨hmem, hcount⟩
    obtain ⟨j, hj, rfl⟩ := List.mem_iff_getElem.mp hmem
    rw [countP_before_getElem hasymm hsorted hj] at hcount
    rw [← hcount]
    exact List.getElem?_eq_getElem hj

end Ranked

end CockatielEngine
