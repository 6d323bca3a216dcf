import Mathlib.Data.List.Infix
import Mathlib.Order.Bounds.Defs
import Mathlib.Tactic

/-!
# The distance between two sequences

An edit inserts, deletes or substitutes one letter.  The Levenshtein distance is
given by its recursion over the first letters of the two sequences.

**Rules.**
* `isLeast_levenshtein`: it is the least number of edits that turn one sequence into
  the other.
* `levenshtein_concat`: the same recursion over the last letters.
-/

namespace CockatielEngine

universe u

section Levenshtein

variable {α : Type u}

/-- One letter is inserted, deleted or substituted, anywhere in the sequence. -/
inductive Edit : List α → List α → Prop
  | insert (before after : List α) (c : α) :
      Edit (before ++ after) (before ++ c :: after)
  | delete (before after : List α) (c : α) :
      Edit (before ++ c :: after) (before ++ after)
  | substitute (before after : List α) (c d : α) :
      Edit (before ++ c :: after) (before ++ d :: after)

/-- One sequence is turned into another by so many edits. -/
inductive Edits : Nat → List α → List α → Prop
  | none (xs : List α) : Edits 0 xs xs
  | step {n : Nat} {xs ys zs : List α} :
      Edit xs ys →
      Edits n ys zs →
      Edits (n + 1) xs zs

variable {c d x y : α} {xs ys zs before after : List α} {n : Nat}

theorem Edit.cons
    (h : Edit xs ys) :
    Edit (c :: xs) (c :: ys) := by
  cases h with
  | insert before after d => exact .insert (c :: before) after d
  | delete before after d => exact .delete (c :: before) after d
  | substitute before after d e => exact .substitute (c :: before) after d e

theorem Edits.cons
    (h : Edits n xs ys) :
    Edits n (c :: xs) (c :: ys) := by
  induction h with
  | none xs => exact .none _
  | step hedit _ ih => exact .step hedit.cons ih

theorem Edit.reverse
    (h : Edit xs ys) :
    Edit xs.reverse ys.reverse := by
  cases h with
  | insert before after c => simpa using Edit.insert after.reverse before.reverse c
  | delete before after c => simpa using Edit.delete after.reverse before.reverse c
  | substitute before after c d =>
      simpa using Edit.substitute after.reverse before.reverse c d

theorem Edits.reverse
    (h : Edits n xs ys) :
    Edits n xs.reverse ys.reverse := by
  induction h with
  | none xs => exact .none _
  | step hedit _ ih => exact .step hedit.reverse ih

theorem edits_nil_left (ys : List α) : Edits ys.length [] ys := by
  induction ys with
  | nil => exact .none []
  | cons y ys ih => exact .step (.insert [] [] y) ih.cons

theorem edits_nil_right (xs : List α) : Edits xs.length xs [] := by
  induction xs with
  | nil => exact .none []
  | cons x xs ih => exact .step (.delete [] xs x) ih

variable [DecidableEq α]

/-- The cost of one letter in place of another. -/
def substitutionCost (c d : α) : Nat :=
  if c = d then 0 else 1

/-- The distance, by recursion over the first letters. -/
def levenshtein : List α → List α → Nat
  | [], ys => ys.length
  | xs, [] => xs.length
  | x :: xs, y :: ys =>
      min (min (levenshtein xs (y :: ys) + 1) (levenshtein (x :: xs) ys + 1))
        (levenshtein xs ys + substitutionCost x y)
termination_by xs ys => xs.length + ys.length

@[simp] theorem levenshtein_nil_left :
    levenshtein [] ys = ys.length := by
  rw [levenshtein]

@[simp] theorem levenshtein_nil_right :
    levenshtein xs [] = xs.length := by
  cases xs with
  | nil => rw [levenshtein]
  | cons x xs =>
      rw [levenshtein]
      exact List.cons_ne_nil x xs

theorem levenshtein_cons_cons :
    levenshtein (x :: xs) (y :: ys) =
      min (min (levenshtein xs (y :: ys) + 1) (levenshtein (x :: xs) ys + 1))
        (levenshtein xs ys + substitutionCost x y) := by
  rw [levenshtein]

theorem substitutionCost_le (c d : α) : substitutionCost c d ≤ 1 := by
  unfold substitutionCost
  split
  · exact Nat.zero_le 1
  · exact le_rfl

/-! ## As few edits as the distance -/

theorem edits_substitute
    (h : Edits n xs ys) :
    Edits (n + substitutionCost x y) (x :: xs) (y :: ys) := by
  unfold substitutionCost
  split
  · rename_i heq
    subst heq
    exact h.cons
  · exact .step (.substitute [] xs x y) h.cons

/-- One sequence can be turned into the other by as many edits as their distance. -/
theorem edits_levenshtein (xs ys : List α) : Edits (levenshtein xs ys) xs ys := by
  induction xs generalizing ys with
  | nil =>
      rw [levenshtein_nil_left]
      exact edits_nil_left ys
  | cons x xs ihx =>
      induction ys with
      | nil =>
          rw [levenshtein_nil_right]
          exact edits_nil_right (x :: xs)
      | cons y ys ihy =>
          rw [levenshtein_cons_cons]
          rcases min_choice (min (levenshtein xs (y :: ys) + 1)
              (levenshtein (x :: xs) ys + 1)) (levenshtein xs ys + substitutionCost x y)
            with hmin | hmin
          · rw [hmin]
            rcases min_choice (levenshtein xs (y :: ys) + 1)
              (levenshtein (x :: xs) ys + 1) with hmin' | hmin'
            · rw [hmin']
              exact .step (.delete [] xs x) (ihx (y :: ys))
            · rw [hmin']
              exact .step (.insert [] (x :: xs) y) ihy.cons
          · rw [hmin]
            exact edits_substitute (ihx ys)

/-! ## No fewer edits

An edit moves a sequence no further than one from any other. -/

theorem levenshtein_cons_left_le (x : α) (xs zs : List α) :
    levenshtein (x :: xs) zs ≤ levenshtein xs zs + 1 := by
  cases zs with
  | nil => simp
  | cons z zs =>
      rw [levenshtein_cons_cons]
      exact (min_le_left _ _).trans (min_le_left _ _)

theorem levenshtein_cons_right_le (xs : List α) (z : α) (zs : List α) :
    levenshtein xs (z :: zs) ≤ levenshtein xs zs + 1 := by
  cases xs with
  | nil => simp
  | cons x xs =>
      rw [levenshtein_cons_cons]
      exact (min_le_left _ _).trans (min_le_right _ _)

theorem levenshtein_le_cons_left (x : α) (xs zs : List α) :
    levenshtein xs zs ≤ levenshtein (x :: xs) zs + 1 := by
  induction zs with
  | nil =>
      rw [levenshtein_nil_right, levenshtein_nil_right, List.length_cons]
      omega
  | cons z zs ih =>
      have hright := levenshtein_cons_right_le xs z zs
      rw [levenshtein_cons_cons]
      omega

theorem levenshtein_cons_le_cons (c d : α) (xs zs : List α) :
    levenshtein (c :: xs) zs ≤ levenshtein (d :: xs) zs + 1 := by
  induction zs with
  | nil => simp
  | cons z zs ih =>
      have hcost := substitutionCost_le c z
      rw [levenshtein_cons_cons, levenshtein_cons_cons]
      omega

/-- Two sequences behind the same first letters are no further apart. -/
theorem levenshtein_append_le
    (before : List α)
    (h : ∀ zs, levenshtein xs zs ≤ levenshtein ys zs + 1) :
    levenshtein (before ++ xs) zs ≤ levenshtein (before ++ ys) zs + 1 := by
  induction before generalizing zs with
  | nil => exact h zs
  | cons c before ih =>
      rw [List.cons_append, List.cons_append]
      induction zs with
      | nil =>
          have hnil := @ih []
          rw [levenshtein_nil_right, levenshtein_nil_right] at hnil ⊢
          rw [List.length_cons, List.length_cons]
          omega
      | cons z zs ihz =>
          have hboth := @ih (z :: zs)
          have hrest := @ih zs
          rw [levenshtein_cons_cons, levenshtein_cons_cons]
          omega

theorem levenshtein_le_of_edit
    (h : Edit xs ys) :
    levenshtein xs zs ≤ levenshtein ys zs + 1 := by
  cases h with
  | insert before after c =>
      exact levenshtein_append_le before (levenshtein_le_cons_left c after)
  | delete before after c =>
      exact levenshtein_append_le before (levenshtein_cons_left_le c after)
  | substitute before after c d =>
      exact levenshtein_append_le before (levenshtein_cons_le_cons c d after)

@[simp] theorem levenshtein_self (xs : List α) : levenshtein xs xs = 0 := by
  induction xs with
  | nil => simp
  | cons x xs ih => simp [levenshtein_cons_cons, ih, substitutionCost]

theorem levenshtein_le_of_edits
    (h : Edits n xs ys) :
    levenshtein xs ys ≤ n := by
  induction h with
  | none xs => exact (levenshtein_self xs).le
  | step hedit _ ih =>
      exact (levenshtein_le_of_edit hedit).trans (Nat.succ_le_succ ih)

/-- The distance is the least number of edits. -/
theorem isLeast_levenshtein (xs ys : List α) :
    IsLeast {n | Edits n xs ys} (levenshtein xs ys) :=
  ⟨edits_levenshtein xs ys, fun _ h => levenshtein_le_of_edits h⟩

/-! ## The last letters -/

theorem levenshtein_reverse (xs ys : List α) :
    levenshtein xs.reverse ys.reverse = levenshtein xs ys := by
  refine le_antisymm (levenshtein_le_of_edits (edits_levenshtein xs ys).reverse) ?_
  have hback := (edits_levenshtein xs.reverse ys.reverse).reverse
  rw [List.reverse_reverse, List.reverse_reverse] at hback
  exact levenshtein_le_of_edits hback

theorem levenshtein_concat :
    levenshtein (xs ++ [x]) (ys ++ [y]) =
      min (min (levenshtein xs (ys ++ [y]) + 1) (levenshtein (xs ++ [x]) ys + 1))
        (levenshtein xs ys + substitutionCost x y) := by
  rw [← levenshtein_reverse (xs ++ [x]), ← levenshtein_reverse xs (ys ++ [y]),
    ← levenshtein_reverse (xs ++ [x]) ys, ← levenshtein_reverse xs ys]
  simp only [List.reverse_append, List.reverse_singleton, List.singleton_append]
  exact levenshtein_cons_cons

end Levenshtein

end CockatielEngine
