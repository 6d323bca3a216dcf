import Mathlib.Logic.Function.Basic
import Mathlib.Tactic

/-!
# Storage: a disk whose operations may fail

A disk maps file names to contents.  Deleting a file, copying one over another
and renaming one over another each succeed or fail; what the operating system
decides is an argument of the operation.

A failing copy touches its destination only, and a failing deletion or rename
nothing.

**Rules.**
* `remove_of_ne`, `copy_of_ne`, `rename_of_ne`: the files an operation does not
  name.
* `copy_of_copied`, `rename_of_true`: what an operation that succeeds leaves.
-/

namespace CockatielEngine
namespace Storage

universe u v

variable {ι : Type u} {β : Type v} [DecidableEq ι]

/-- The contents of the files that exist. -/
abbrev Disk (ι : Type u) (β : Type v) := ι → Option β

/-- How a copy ends; a failing one leaves anything in its destination. -/
inductive CopyOutcome (β : Type v) where
  | copied
  | failed (left : Option β)

/-- Delete a file. -/
def remove (d : Disk ι β) (file : ι) (ok : Bool) : Disk ι β :=
  if ok then Function.update d file none else d

/-- Copy `src` over `dst`; the answer is whether it succeeded. -/
def copy (d : Disk ι β) (src dst : ι) : CopyOutcome β → Bool × Disk ι β
  | .copied =>
      match d src with
      | some content => (true, Function.update d dst (some content))
      | none => (false, d)
  | .failed left => (false, Function.update d dst left)

/-- Rename `src` over `dst`; the answer is whether it succeeded. -/
def rename (d : Disk ι β) (src dst : ι) (ok : Bool) : Bool × Disk ι β :=
  match ok, d src with
  | true, some content =>
      (true, Function.update (Function.update d src none) dst (some content))
  | _, _ => (false, d)

section Rules

variable {d : Disk ι β} {src dst file : ι} {ok : Bool} {content : β}

@[simp] theorem remove_of_ne
    (h : file ≠ dst) :
    remove d dst ok file = d file := by
  cases ok <;> simp [remove, h]

theorem remove_self :
    remove d file ok file = if ok then none else d file := by
  cases ok <;> simp [remove]

@[simp] theorem copy_of_ne
    {outcome : CopyOutcome β}
    (h : file ≠ dst) :
    (copy d src dst outcome).2 file = d file := by
  cases outcome with
  | copied => cases hs : d src <;> simp [copy, hs, h]
  | failed left => simp [copy, h]

/-- A copy that succeeded has its source in its destination. -/
theorem copy_of_copied
    {outcome : CopyOutcome β}
    (h : (copy d src dst outcome).1 = true) :
    ∃ content, d src = some content ∧
      (copy d src dst outcome).2 = Function.update d dst (some content) := by
  cases outcome with
  | copied =>
      cases hs : d src with
      | none => simp [copy, hs] at h
      | some content => exact ⟨content, rfl, by simp [copy, hs]⟩
  | failed left => cases h

@[simp] theorem rename_of_ne
    (hsrc : file ≠ src)
    (hdst : file ≠ dst) :
    (rename d src dst ok).2 file = d file := by
  cases ok with
  | false => rfl
  | true => cases hs : d src <;> simp [rename, hs, hsrc, hdst]

/-- A rename that failed changes nothing. -/
theorem rename_of_false
    (h : (rename d src dst ok).1 = false) :
    (rename d src dst ok).2 = d := by
  cases ok with
  | false => rfl
  | true =>
      cases hs : d src with
      | none => simp [rename, hs]
      | some content => simp [rename, hs] at h

/-- A rename that succeeded has its source in its destination. -/
theorem rename_of_true
    (h : (rename d src dst ok).1 = true) :
    ∃ content, d src = some content ∧
      (rename d src dst ok).2 =
        Function.update (Function.update d src none) dst (some content) := by
  cases ok with
  | false => cases h
  | true =>
      cases hs : d src with
      | none => simp [rename, hs] at h
      | some content => exact ⟨content, rfl, by simp [rename, hs]⟩

/-- A rename never loses the file: it is in one of the two places. -/
theorem rename_keeps
    (d : Disk ι β) (src dst : ι) (ok : Bool) :
    (rename d src dst ok).2 src = d src ∨ (rename d src dst ok).2 dst = d src := by
  cases hr : (rename d src dst ok).1 with
  | false => exact Or.inl (by rw [rename_of_false hr])
  | true =>
      obtain ⟨content, hs, heq⟩ := rename_of_true hr
      exact Or.inr (by simp [heq, hs])

end Rules

end Storage
end CockatielEngine
