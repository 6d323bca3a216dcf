import CockatielEngine.Text.EditDistance

/-!
# Commands: the distance of two command names

`edit_distance` keeps one row of the table of distances at a time: the distances of
what has been read of the one name from all beginnings of the other.

**Main result.**  The program never reads outside of a row, and what is left in the
last cell is the Levenshtein distance.
-/

namespace CockatielEngine

universe u v

section Loops

variable {σ : Type u} {β : Type v}

/-- A loop with an index keeps what each of its steps keeps. -/
theorem foldlM_zipIdx_eq_some
    (l : List β)
    (step : σ → β × Nat → Option σ)
    (inv : List β → σ)
    (hstep : ∀ before c after, l = before ++ c :: after →
      step (inv before) (c, before.length) = some (inv (before ++ [c]))) :
    l.zipIdx.foldlM step (inv []) = some (inv l) := by
  have hrest : ∀ after before : List β, l = before ++ after →
      (after.zipIdx before.length).foldlM step (inv before) = some (inv l) := by
    intro after
    induction after with
    | nil =>
        rintro before rfl
        rw [List.append_nil]
        rfl
    | cons c after ih =>
        intro before heq
        have hnext := ih (before ++ [c]) (by rw [heq]; simp)
        rw [List.length_append, List.length_singleton] at hnext
        rw [List.zipIdx_cons, List.foldlM_cons, hstep before c after heq]
        exact hnext
  exact hrest l [] rfl

end Loops

section Program

/-- The body of the inner loop; an index out of range panics. -/
def pushCell (prev : List Nat) (ca : Char) (cur : List Nat) (cell : Char × Nat) :
    Option (List Nat) := do
  let cost := if ca = cell.1 then 0 else 1
  let above ← prev[cell.2 + 1]?
  let left ← cur[cell.2]?
  let diagonal ← prev[cell.2]?
  some (cur ++ [min (min (above + 1) (left + 1)) (diagonal + cost)])

/-- The body of the outer loop. -/
def nextRow (b : List Char) (prev : List Nat) (row : Char × Nat) : Option (List Nat) :=
  b.zipIdx.foldlM (pushCell prev row.1) [row.2 + 1]

/-- `edit_distance`. -/
def editDistance (a b : String) : Option Nat := do
  let a := a.toList
  let b := b.toList
  let prev ← a.zipIdx.foldlM (nextRow b) (List.range (b.length + 1))
  prev[b.length]?

end Program

section Rows

variable {a b before after : List Char} {ca cb : Char}

/-- The distances of a text from all beginnings of another. -/
def distanceRow (a b : List Char) : List Nat :=
  b.inits.map (levenshtein a)

theorem getElem?_distanceRow
    {j : Nat}
    (hj : j ≤ b.length) :
    (distanceRow a b)[j]? = some (levenshtein a (b.take j)) := by
  have hlt : j < b.inits.length := by
    rw [List.length_inits]
    omega
  rw [distanceRow, List.getElem?_map, List.getElem?_eq_getElem hlt, List.getElem_inits,
    Option.map_some]

/-- The first row is that of the empty text. -/
theorem distanceRow_nil_left (b : List Char) :
    distanceRow [] b = List.range (b.length + 1) := by
  refine List.ext_getElem? fun j => ?_
  by_cases hj : j ≤ b.length
  · rw [getElem?_distanceRow hj, levenshtein_nil_left, List.length_take_of_le hj,
      List.getElem?_range (Nat.lt_succ_of_le hj)]
  · rw [List.getElem?_eq_none, List.getElem?_eq_none]
    · rw [List.length_range]
      omega
    · rw [distanceRow, List.length_map, List.length_inits]
      omega

theorem distanceRow_nil_right (a : List Char) : distanceRow a [] = [a.length] := by
  simp [distanceRow]

theorem distanceRow_concat :
    distanceRow a (before ++ [cb]) =
      distanceRow a before ++ [levenshtein a (before ++ [cb])] := by
  simp [distanceRow, List.inits_append]

/-- A cell that is pushed is the next distance of its row. -/
theorem pushCell_distanceRow
    (heq : b = before ++ cb :: after) :
    pushCell (distanceRow a b) ca (distanceRow (a ++ [ca]) before) (cb, before.length) =
      some (distanceRow (a ++ [ca]) (before ++ [cb])) := by
  have habove : (distanceRow a b)[before.length + 1]? =
      some (levenshtein a (before ++ [cb])) := by
    rw [getElem?_distanceRow (by rw [heq]; simp), heq, List.take_length_add_append]
    rfl
  have hleft : (distanceRow (a ++ [ca]) before)[before.length]? =
      some (levenshtein (a ++ [ca]) before) := by
    rw [getElem?_distanceRow le_rfl, List.take_length]
  have hdiagonal : (distanceRow a b)[before.length]? = some (levenshtein a before) := by
    rw [getElem?_distanceRow (by rw [heq]; simp), heq, List.take_left]
  simp only [pushCell, habove, hleft, hdiagonal, Option.bind_eq_bind, Option.bind_some]
  rw [distanceRow_concat, levenshtein_concat]
  rfl

/-- A row follows from the one before it. -/
theorem nextRow_distanceRow :
    nextRow b (distanceRow a b) (ca, a.length) = some (distanceRow (a ++ [ca]) b) := by
  have hloop := foldlM_zipIdx_eq_some b (pushCell (distanceRow a b) ca)
    (distanceRow (a ++ [ca])) fun _ _ _ heq => pushCell_distanceRow heq
  rw [distanceRow_nil_right, List.length_append, List.length_singleton] at hloop
  exact hloop

end Rows

/-- The program returns the Levenshtein distance, which is the least number of
insertions, deletions and substitutions. -/
theorem editDistance_eq
    (a b : String) :
    editDistance a b = some (levenshtein a.toList b.toList) ∧
      IsLeast {n | Edits n a.toList b.toList} (levenshtein a.toList b.toList) := by
  refine ⟨?_, isLeast_levenshtein _ _⟩
  have hloop := foldlM_zipIdx_eq_some a.toList (nextRow b.toList)
    (fun read => distanceRow read b.toList) fun _ _ _ _ => nextRow_distanceRow
  rw [distanceRow_nil_left] at hloop
  simp only [editDistance, hloop, Option.bind_eq_bind, Option.bind_some]
  rw [getElem?_distanceRow le_rfl, List.take_length]

end CockatielEngine
