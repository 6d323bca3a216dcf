import CockatielEngine.Text.Separated

/-!
# Text: the pieces between blanks

The pieces into which blanks cut a text, where several blanks in a row count as one
and blanks at the ends do not count.
-/

namespace CockatielEngine

universe u

section Tokens

variable {α : Type u} {p : α → Bool} {l l' t : List α} {ts : List (List α)} {x : α}

/-- The non-empty pieces between the characters that count as blanks. -/
def tokens (p : α → Bool) (l : List α) : List (List α) :=
  (l.splitOnP p).filter fun t => !t.isEmpty

@[simp] theorem tokens_nil : tokens p [] = [] := by
  simp [tokens]

/-- A blank separates what is before it from what is after it. -/
theorem tokens_append_cons
    (hx : p x = true) :
    tokens p (l ++ x :: l') = tokens p l ++ tokens p l' := by
  simp [tokens, List.splitOnP_append_cons l l' hx]

theorem tokens_cons
    (hx : p x = true) :
    tokens p (x :: l) = tokens p l := by
  have hcut : tokens p ([] ++ x :: l) = tokens p [] ++ tokens p l :=
    tokens_append_cons hx
  simpa using hcut

theorem tokens_concat
    (hx : p x = true) :
    tokens p (l ++ [x]) = tokens p l := by
  have hcut : tokens p (l ++ x :: []) = tokens p l ++ tokens p [] :=
    tokens_append_cons hx
  simpa using hcut

theorem tokens_dropWhile :
    tokens p (l.dropWhile p) = tokens p l := by
  induction l with
  | nil => rfl
  | cons x l ih =>
      rw [List.dropWhile_cons]
      split
      · rename_i hx
        rw [ih, tokens_cons hx]
      · rfl

theorem tokens_dropWhile_reverse :
    tokens p (l.reverse.dropWhile p).reverse = tokens p l := by
  induction l using List.reverseRecOn with
  | nil => rfl
  | append_singleton l x ih =>
      rw [List.reverse_append, List.reverse_singleton, List.singleton_append,
        List.dropWhile_cons]
      split
      · rename_i hx
        rw [ih, tokens_concat hx]
      · simp

theorem false_of_mem_tokens
    (h : t ∈ tokens p l)
    (hx : x ∈ t) :
    p x = false :=
  false_of_mem_splitOnP (List.mem_of_mem_filter h) hx

theorem ne_nil_of_mem_tokens
    (h : t ∈ tokens p l) :
    t ≠ [] := by
  simpa using (List.mem_filter.mp h).2

/-- A text without blanks is one piece. -/
theorem tokens_eq_singleton
    (ht : t ≠ [])
    (hp : ∀ x ∈ t, p x = false) :
    tokens p t = [t] := by
  simp [tokens, List.splitOnP_eq_singleton hp, ht]

/-- What stands before the first blank is the first piece. -/
theorem tokens_eq_cons
    (hfirst : l.takeWhile (!p ·) ≠ []) :
    tokens p l = l.takeWhile (!p ·) :: tokens p (l.dropWhile (!p ·)) := by
  have hone : tokens p (l.takeWhile (!p ·)) = [l.takeWhile (!p ·)] := by
    refine tokens_eq_singleton hfirst fun x hx => ?_
    simpa using List.all_eq_true.mp List.all_takeWhile x hx
  conv_lhs => rw [← List.takeWhile_append_dropWhile (p := (!p ·)) (l := l)]
  cases hrest : l.dropWhile (!p ·) with
  | nil => simpa using hone
  | cons x rest =>
      have hx : p x = true := by
        have hhead := List.head_dropWhile_not (!p ·) (l := l) (by simp [hrest])
        simpa [hrest] using hhead
      rw [tokens_append_cons hx, tokens_cons hx, hone, List.singleton_append]

/-- Pieces that are joined by a blank are cut there. -/
theorem tokens_intercalate
    (hx : p x = true)
    (hts : ∀ t ∈ ts, t ≠ [] ∧ ∀ y ∈ t, p y = false) :
    tokens p ([x].intercalate ts) = ts := by
  induction ts with
  | nil => simp [List.intercalate]
  | cons t ts ih =>
      obtain ⟨hne, hp⟩ := hts t List.mem_cons_self
      have hrest := ih fun t ht => hts t (List.mem_cons_of_mem _ ht)
      cases ts with
      | nil => simpa [List.intercalate] using tokens_eq_singleton hne hp
      | cons t' ts =>
          rw [List.intercalate_cons_cons, List.append_assoc, List.singleton_append,
            tokens_append_cons hx, hrest, tokens_eq_singleton hne hp,
            List.singleton_append]

end Tokens

end CockatielEngine
