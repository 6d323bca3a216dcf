import Mathlib.Data.List.DropRight
import CockatielEngine.Commands.CommandParsing

/-!
# Text: blanks at the ends
-/

namespace CockatielEngine

variable {t : Text} {c : Char}

theorem trim_eq_rdropWhile :
    t.trim = (t.dropWhile Text.isWhitespace).rdropWhile Text.isWhitespace := rfl

/-- Trimmed text has no blanks to trim. -/
theorem trim_trim : t.trim.trim = t.trim := by
  have hstart : t.trim.dropWhile Text.isWhitespace = t.trim := by
    rw [List.dropWhile_eq_self_iff]
    intro hpos
    have hstarts : t.trim <+: t.dropWhile Text.isWhitespace :=
      List.rdropWhile_prefix _ _
    rw [hstarts.getElem hpos]
    exact List.dropWhile_get_zero_not _ _ (hpos.trans_le hstarts.length_le)
  rw [trim_eq_rdropWhile (t := t.trim), hstart, trim_eq_rdropWhile,
    List.rdropWhile_idempotent]

theorem trim_concat
    (hc : Text.isWhitespace c = true) :
    Text.trim (t ++ [c]) = t.trim := by
  rw [trim_eq_rdropWhile, trim_eq_rdropWhile, List.dropWhile_append]
  split
  · rename_i hempty
    rw [List.isEmpty_iff.mp hempty, List.dropWhile_cons_of_pos hc, List.dropWhile_nil]
  · exact List.rdropWhile_concat_pos _ _ _ hc

theorem rdropWhile_append_cons
    {p : Char → Bool} {s : Text}
    (hc : p c = false) :
    (t ++ c :: s).rdropWhile p = t ++ c :: s.rdropWhile p := by
  induction s using List.reverseRecOn with
  | nil => simp [hc]
  | append_singleton s x ih =>
      rw [← List.cons_append, ← List.append_assoc, List.rdropWhile_concat,
        List.rdropWhile_concat]
      split
      · exact ih
      · simp

/-- A text that starts and ends without blanks. -/
theorem trim_append_cons
    {s : Text}
    (ht : t ≠ [])
    (htrim : t.trim = t)
    (hc : Text.isWhitespace c = false) :
    Text.trim (t ++ c :: s) = t ++ c :: s.rdropWhile Text.isWhitespace := by
  have hstart : t.dropWhile Text.isWhitespace = t := by
    have hlength := (List.rdropWhile_prefix Text.isWhitespace
      (t.dropWhile Text.isWhitespace)).length_le
    rw [← trim_eq_rdropWhile, htrim] at hlength
    exact (List.dropWhile_suffix _).eq_of_length_le hlength
  rw [trim_eq_rdropWhile, List.dropWhile_append, hstart, if_neg (by simpa using ht),
    rdropWhile_append_cons hc]

theorem trim_rdropWhile :
    Text.trim (t.rdropWhile Text.isWhitespace) = t.trim := by
  induction t using List.reverseRecOn with
  | nil => rfl
  | append_singleton t x ih =>
      rw [List.rdropWhile_concat]
      split
      · rename_i hx
        rw [ih, trim_concat hx]
      · rfl

end CockatielEngine
