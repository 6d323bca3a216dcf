import Mathlib.Data.Finset.Basic
import Mathlib.Tactic

/-!
# Sets: marks that several owners share

One flat set holds the marks of all owners.  An owner puts marks and lifts them
again, and the set does not say whose a mark is.
-/

namespace CockatielEngine

universe u v w

/-- An owner puts marks or lifts them. -/
inductive Change (O : Type u) (P : Type v) where
  | put (owner : O) (what : P)
  | lift (owner : O) (what : P)
deriving DecidableEq

namespace Change

variable {O : Type u} {P : Type v} {κ : Type w}

section Defs

variable [DecidableEq O] [DecidableEq κ]

/-- What the owners have put since they last lifted. -/
def settle (l : List (O × P)) : Change O P → List (O × P)
  | .put o p => l ++ [(o, p)]
  | .lift o _ => l.filter fun b => b.1 ≠ o

def inForce (cs : List (Change O P)) : List (O × P) :=
  cs.foldl settle []

/-- Every lift fits what its owner has put and not lifted by then. -/
def AllFit (fits : P → P → Prop) : List (O × P) → List (Change O P) → Prop
  | _, [] => True
  | l, .put o p :: cs => AllFit fits (settle l (.put o p)) cs
  | l, .lift o p :: cs =>
      (∀ b ∈ l, b.1 = o → fits b.2 p) ∧ AllFit fits (settle l (.lift o p)) cs

instance decidableAllFit (fits : P → P → Prop) [∀ p q, Decidable (fits p q)] :
    (l : List (O × P)) → (cs : List (Change O P)) → Decidable (AllFit fits l cs)
  | _, [] => .isTrue trivial
  | l, .put o p :: cs => decidableAllFit fits (settle l (.put o p)) cs
  | l, .lift o p :: cs =>
      have := decidableAllFit fits (settle l (.lift o p)) cs
      inferInstanceAs (Decidable ((∀ b ∈ l, b.1 = o → fits b.2 p) ∧ _))

variable (adds removes : O → P → Finset κ)

/-- The flat set after a change. -/
def apply (marks : Finset κ) : Change O P → Finset κ
  | .put o p => marks ∪ adds o p
  | .lift o p => marks \ removes o p

/-- The change puts the mark. -/
def Puts (k : κ) : Change O P → Prop
  | .put o p => k ∈ adds o p
  | .lift _ _ => False

/-- The change lifts the mark. -/
def Lifts (k : κ) : Change O P → Prop
  | .put _ _ => False
  | .lift o p => k ∈ removes o p

/-- Some change puts the mark, and none after it lifts it. -/
def Marked (cs : List (Change O P)) (k : κ) : Prop :=
  ∃ before c after, cs = before ++ c :: after ∧ c.Puts adds k ∧
    ∀ c' ∈ after, ¬ c'.Lifts removes k

/-- Every mark is one that an owner has put and not lifted. -/
def Backed (marks : Finset κ) (l : List (O × P)) : Prop :=
  ∀ k ∈ marks, ∃ b ∈ l, k ∈ adds b.1 b.2

end Defs

section Lemmas

variable {adds removes : O → P → Finset κ} {fits : P → P → Prop}
variable {marks : Finset κ} {l : List (O × P)} {c : Change O P}
variable {cs : List (Change O P)} {k : κ} {b : O × P}

theorem not_marked_nil : ¬ Marked adds removes ([] : List (Change O P)) k := by
  rintro ⟨before, c, after, h, -⟩
  simp at h

/-- A mark is from the first change or from a later one. -/
theorem marked_cons_iff :
    Marked adds removes (c :: cs) k ↔
      Marked adds removes cs k ∨ c.Puts adds k ∧ ∀ c' ∈ cs, ¬ c'.Lifts removes k := by
  constructor
  · rintro ⟨before, c₁, after, h, hputs, hlifts⟩
    cases before with
    | nil =>
        obtain ⟨rfl, rfl⟩ := List.cons.inj h
        exact Or.inr ⟨hputs, hlifts⟩
    | cons c₀ before =>
        obtain ⟨-, rfl⟩ := List.cons.inj h
        exact Or.inl ⟨before, c₁, after, rfl, hputs, hlifts⟩
  · rintro (⟨before, c₁, after, rfl, hputs, hlifts⟩ | ⟨hputs, hlifts⟩)
    · exact ⟨c :: before, c₁, after, rfl, hputs, hlifts⟩
    · exact ⟨[], c, cs, rfl, hputs, hlifts⟩

section InForce

variable [DecidableEq O]

/-- What is in force was put. -/
theorem put_mem_of_mem_foldl_settle
    (h : b ∈ cs.foldl settle l) :
    b ∈ l ∨ .put b.1 b.2 ∈ cs := by
  induction cs generalizing l with
  | nil => exact Or.inl h
  | cons c cs ih =>
      rcases ih h with hb | hb
      · cases c with
        | put o p =>
            rcases List.mem_append.mp hb with hb | hb
            · exact Or.inl hb
            · obtain rfl := List.mem_singleton.mp hb
              exact Or.inr List.mem_cons_self
        | lift o p => exact Or.inl (List.mem_filter.mp hb).1
      · exact Or.inr (List.mem_cons_of_mem _ hb)

theorem put_mem_of_mem_inForce
    (h : b ∈ inForce cs) :
    .put b.1 b.2 ∈ cs :=
  (put_mem_of_mem_foldl_settle h).resolve_left List.not_mem_nil

end InForce

variable [DecidableEq κ]

theorem mem_apply_iff :
    k ∈ c.apply adds removes marks ↔
      c.Puts adds k ∨ k ∈ marks ∧ ¬ c.Lifts removes k := by
  cases c with
  | put o p => simp [apply, Puts, Lifts, or_comm]
  | lift o p => simp [apply, Puts, Lifts]

/-- What the set holds after a run of changes. -/
theorem mem_foldl_apply_iff :
    k ∈ cs.foldl (apply adds removes) marks ↔
      Marked adds removes cs k ∨ k ∈ marks ∧ ∀ c ∈ cs, ¬ c.Lifts removes k := by
  induction cs generalizing marks with
  | nil => simp [not_marked_nil]
  | cons c cs ih =>
      rw [List.foldl_cons, ih, mem_apply_iff, marked_cons_iff, List.forall_mem_cons]
      tauto

variable [DecidableEq O]

/-- An owner's put marks are backed by it. -/
theorem Backed.put
    (h : Backed adds marks l) (o : O) (p : P) :
    Backed adds (apply adds removes marks (.put o p)) (settle l (.put o p)) := by
  intro k hk
  rcases mem_apply_iff.mp hk with hputs | ⟨hk, -⟩
  · exact ⟨(o, p), List.mem_append_right _ (List.mem_singleton_self _), hputs⟩
  · obtain ⟨b, hb, hkb⟩ := h k hk
    exact ⟨b, List.mem_append_left _ hb, hkb⟩

/-- A lift of all that its owner has put leaves the others' marks backed. -/
theorem Backed.lift
    {o : O} {p : P}
    (h : Backed adds marks l)
    (hfits : ∀ b ∈ l, b.1 = o → adds o b.2 ⊆ removes o p) :
    Backed adds (apply adds removes marks (.lift o p)) (settle l (.lift o p)) := by
  intro k hk
  obtain ⟨hk, hnot⟩ := (mem_apply_iff.mp hk).resolve_left id
  obtain ⟨b, hb, hkb⟩ := h k hk
  have howner : b.1 ≠ o := by
    rintro rfl
    exact hnot (hfits b hb rfl hkb)
  exact ⟨b, List.mem_filter.mpr ⟨hb, by simpa using howner⟩, hkb⟩

/-- In a run all of whose lifts fit, every mark is backed. -/
theorem Backed.foldl
    (hcovers : ∀ o p q, fits p q → adds o p ⊆ removes o q)
    (hfit : AllFit fits l cs)
    (h : Backed adds marks l) :
    Backed adds (cs.foldl (apply adds removes) marks) (cs.foldl settle l) := by
  induction cs generalizing marks l with
  | nil => exact h
  | cons c cs ih =>
      cases c with
      | put o p => exact ih hfit (h.put o p)
      | lift o p =>
          exact ih hfit.2 (h.lift fun b hb ho => hcovers o _ _ (hfit.1 b hb ho))

/-- A mark of such a run is one that is in force. -/
theorem exists_inForce_of_marked
    (hcovers : ∀ o p q, fits p q → adds o p ⊆ removes o q)
    (hfit : AllFit fits [] cs)
    (h : Marked adds removes cs k) :
    ∃ b ∈ inForce cs, k ∈ adds b.1 b.2 := by
  have hbacked : Backed adds (∅ : Finset κ) ([] : List (O × P)) := by
    intro k hk
    simp at hk
  exact Backed.foldl hcovers hfit hbacked k (mem_foldl_apply_iff.mpr (Or.inl h))

end Lemmas

end Change
end CockatielEngine
