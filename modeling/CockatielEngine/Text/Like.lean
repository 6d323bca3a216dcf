import Mathlib.Data.List.Infix
import Mathlib.Logic.Nontrivial.Basic
import Mathlib.Tactic

/-!
# Patterns with wildcards

A pattern is a list of letters.  One letter of the alphabet stands for any text,
another for any single letter, and every other letter stands for those that fold
to the same key.

The results compare a text that is used as a pattern with the text itself: it
matches only itself, at the start or inside of another text, exactly when all of
its letters are rigid.
-/

namespace CockatielEngine

universe u v

section Like

variable {α : Type u} {κ : Type v} [DecidableEq α] [DecidableEq κ]

/-- The letter for any text, the letter for any letter, and the folding. -/
structure LikeRules (α : Type u) (κ : Type v) where
  many : α
  single : α
  fold : α → κ

namespace LikeRules

variable (R : LikeRules α κ)

/-- The letter `c` of a pattern matches the letter `d` of a text. -/
def admits (c d : α) : Bool :=
  c = R.single || R.fold c = R.fold d

/-- The pattern matches the whole text. -/
def like : List α → List α → Bool
  | [], s => s.isEmpty
  | c :: p, s =>
      if c = R.many then s.tails.any fun t => like p t
      else
        match s with
        | [] => false
        | d :: s => R.admits c d && like p s

/-- The letter matches nothing but itself. -/
structure Rigid (c : α) : Prop where
  not_many : c ≠ R.many
  not_single : c ≠ R.single
  fold : ∀ d, R.fold c = R.fold d → d = c

variable {R}
variable {c d : α} {p q s t : List α}

@[simp] theorem like_nil_iff :
    R.like [] s = true ↔ s = [] :=
  List.isEmpty_iff

@[simp] theorem like_many_cons_iff :
    R.like (R.many :: p) s = true ↔ ∃ t, t <:+ s ∧ R.like p t = true := by
  have h : R.like (R.many :: p) s = s.tails.any (R.like p) := if_pos rfl
  simp [h]

theorem like_cons_nil
    (hc : c ≠ R.many) :
    R.like (c :: p) [] = false :=
  if_neg hc

theorem like_cons_cons
    (hc : c ≠ R.many) :
    R.like (c :: p) (d :: s) = (R.admits c d && R.like p s) :=
  if_neg hc

@[simp] theorem like_many_singleton :
    R.like [R.many] s = true := by
  rw [like_many_cons_iff]
  exact ⟨[], List.nil_suffix, by simp⟩

theorem admits_self :
    R.admits c c = true := by
  simp [admits]

theorem Rigid.admits_iff
    (h : R.Rigid c) :
    R.admits c d = true ↔ d = c := by
  simp only [admits, Bool.or_eq_true, decide_eq_true_eq]
  constructor
  · rintro (hsingle | hfold)
    · exact absurd hsingle h.not_single
    · exact h.fold d hfold
  · rintro rfl
    exact Or.inr rfl

/-- Matches of two patterns, one after the other. -/
theorem like_append
    (hp : R.like p s = true)
    (hq : R.like q t = true) :
    R.like (p ++ q) (s ++ t) = true := by
  induction p generalizing s with
  | nil =>
      obtain rfl := like_nil_iff.mp hp
      exact hq
  | cons c p ih =>
      by_cases hc : c = R.many
      · subst hc
        obtain ⟨r, ⟨l, rfl⟩, hr⟩ := like_many_cons_iff.mp hp
        refine like_many_cons_iff.mpr ⟨r ++ t, ⟨l, ?_⟩, ih hr⟩
        simp
      · cases s with
        | nil =>
            rw [like_cons_nil hc] at hp
            cases hp
        | cons d s =>
            rw [like_cons_cons hc, Bool.and_eq_true] at hp
            rw [List.cons_append, List.cons_append, like_cons_cons hc, hp.1, ih hp.2]
            rfl

/-- Every text matches itself. -/
theorem like_self :
    R.like p p = true := by
  induction p with
  | nil => rfl
  | cons c p ih =>
      by_cases hc : c = R.many
      · subst hc
        exact like_many_cons_iff.mpr ⟨p, List.suffix_cons _ _, ih⟩
      · rw [like_cons_cons hc, admits_self, ih]
        rfl

/-- More text may follow a match. -/
theorem like_append_many
    (hp : R.like p s = true) :
    R.like (p ++ [R.many]) s = true := by
  have happend := like_append hp (like_many_singleton (s := []))
  rwa [List.append_nil] at happend

/-- Rigid letters match themselves, and the rest of the pattern the rest. -/
theorem like_rigid_append_iff
    (hp : ∀ c ∈ p, R.Rigid c) :
    R.like (p ++ q) s = true ↔ ∃ t, s = p ++ t ∧ R.like q t = true := by
  induction p generalizing s with
  | nil => simp
  | cons c p ih =>
      have hc := hp c List.mem_cons_self
      have hrest := fun x hx => hp x (List.mem_cons_of_mem c hx)
      cases s with
      | nil =>
          rw [List.cons_append, like_cons_nil hc.not_many]
          simp
      | cons d s =>
          rw [List.cons_append, like_cons_cons hc.not_many, Bool.and_eq_true,
            hc.admits_iff, ih hrest]
          constructor
          · rintro ⟨rfl, t, rfl, ht⟩
            exact ⟨t, rfl, ht⟩
          · rintro ⟨t, hs, ht⟩
            obtain ⟨rfl, rfl⟩ := List.cons.inj hs
            exact ⟨rfl, t, rfl, ht⟩

/-- A rigid text followed by anything. -/
theorem like_prefix_iff
    (hp : ∀ c ∈ p, R.Rigid c) :
    R.like (p ++ [R.many]) s = true ↔ p <+: s := by
  rw [like_rigid_append_iff hp]
  constructor
  · rintro ⟨t, rfl, _⟩
    exact ⟨t, rfl⟩
  · rintro ⟨t, rfl⟩
    exact ⟨t, rfl, like_many_singleton⟩

/-- A rigid text between anything. -/
theorem like_infix_iff
    (hp : ∀ c ∈ p, R.Rigid c) :
    R.like (R.many :: (p ++ [R.many])) s = true ↔ p <:+: s := by
  rw [like_many_cons_iff, List.infix_iff_prefix_suffix]
  constructor
  · rintro ⟨t, hsuffix, ht⟩
    exact ⟨t, (like_prefix_iff hp).mp ht, hsuffix⟩
  · rintro ⟨t, hstarts, hsuffix⟩
    exact ⟨t, hsuffix, (like_prefix_iff hp).mpr hstarts⟩

/-- A letter that is not rigid lets another text of at most one letter pass. -/
theorem exists_like_of_not_rigid
    [Nontrivial α]
    (hc : ¬ R.Rigid c) :
    ∃ s, R.like [c] s = true ∧ s.length ≤ 1 ∧ s ≠ [c] := by
  by_cases hmany : c = R.many
  · subst hmany
    exact ⟨[], like_many_singleton, Nat.zero_le 1, by simp⟩
  · obtain ⟨d, hd, hne⟩ : ∃ d, R.admits c d = true ∧ d ≠ c := by
      by_cases hsingle : c = R.single
      · obtain ⟨d, hne⟩ := exists_ne c
        exact ⟨d, by simp [admits, hsingle], hne⟩
      · by_contra hnone
        push Not at hnone
        refine hc ⟨hmany, hsingle, fun d hfold => hnone d ?_⟩
        simp [admits, hfold]
    refine ⟨[d], ?_, le_rfl, by simpa using hne⟩
    rw [like_cons_cons hmany, hd]
    rfl

/-- A text with a letter that is not rigid matches another text that is no
longer. -/
theorem exists_like_ne
    [Nontrivial α]
    (hp : ¬ ∀ c ∈ p, R.Rigid c) :
    ∃ s, R.like p s = true ∧ s.length ≤ p.length ∧ s ≠ p := by
  push Not at hp
  obtain ⟨c, hmem, hc⟩ := hp
  obtain ⟨a, b, rfl⟩ := List.append_of_mem hmem
  obtain ⟨s, hs, hlen, hne⟩ := exists_like_of_not_rigid hc
  refine ⟨a ++ (s ++ b), ?_, ?_, ?_⟩
  · rw [← List.singleton_append]
    exact like_append like_self (like_append hs like_self)
  · simp only [List.length_append, List.length_cons]
    omega
  · intro heq
    rw [← List.singleton_append] at heq
    exact hne (List.append_cancel_right (List.append_cancel_left heq))

/-- Such a text lets a text pass that does not start with it. -/
theorem exists_like_not_startsWith
    [Nontrivial α]
    (hp : ¬ ∀ c ∈ p, R.Rigid c) :
    ∃ s, R.like (p ++ [R.many]) s = true ∧ ¬ p <+: s := by
  obtain ⟨s, hs, hlen, hne⟩ := exists_like_ne hp
  exact ⟨s, like_append_many hs,
    fun hstarts => hne (hstarts.eq_of_length_le hlen).symm⟩

/-- And one that does not contain it. -/
theorem exists_like_not_contains
    [Nontrivial α]
    (hp : ¬ ∀ c ∈ p, R.Rigid c) :
    ∃ s, R.like (R.many :: (p ++ [R.many])) s = true ∧ ¬ p <:+: s := by
  obtain ⟨s, hs, hlen, hne⟩ := exists_like_ne hp
  exact ⟨s, like_many_cons_iff.mpr ⟨s, List.suffix_rfl, like_append_many hs⟩,
    fun hwithin => hne (hwithin.eq_of_length_le hlen).symm⟩

end LikeRules
end Like

end CockatielEngine
