import Mathlib.Data.List.Basic
import Mathlib.Data.String.Basic
import Mathlib.Tactic

/-!
# Text: fields separated by a character

A text whose fields are joined by a separator is cut into them at every
occurrence of the separator.  A field that contains the separator does not come
back whole.
-/

namespace CockatielEngine

variable {sep : Char} {s a b m : String} {ms : List String}

/-- The fields of a text. -/
def fields (sep : Char) (s : String) : List String :=
  (s.toList.splitOn sep).map String.ofList

/-- A text with one more field; the empty text has none. -/
def addField (sep : Char) (s m : String) : String :=
  if s = "" then m else s ++ sep.toString ++ m

/-- A text with more fields, one after the other. -/
def addFields (sep : Char) (s : String) (ms : List String) : String :=
  ms.foldl (addField sep) s

@[simp] theorem fields_empty : fields sep "" = [""] := by
  simp [fields, List.splitOn_eq_splitOnP]

/-- What is joined by the separator is cut there. -/
theorem fields_append :
    fields sep (a ++ sep.toString ++ b) = fields sep a ++ fields sep b := by
  simp [fields, List.splitOn_eq_splitOnP, List.splitOnP_append_cons]

/-- Before its first separator a text is what stands there. -/
theorem append_cons_inj
    {α : Type*} {sep : α} {x x' z z' : List α}
    (hx : sep ∉ x)
    (hx' : sep ∉ x')
    (h : x ++ sep :: z = x' ++ sep :: z') :
    x = x' ∧ z = z' := by
  induction x generalizing x' with
  | nil =>
      cases x' with
      | nil => exact ⟨rfl, (List.cons.inj h).2⟩
      | cons c x' =>
          obtain ⟨rfl, -⟩ := List.cons.inj h
          exact absurd List.mem_cons_self hx'
  | cons c x ih =>
      cases x' with
      | nil =>
          obtain ⟨rfl, -⟩ := List.cons.inj h
          exact absurd List.mem_cons_self hx
      | cons c' x' =>
          obtain ⟨rfl, htail⟩ := List.cons.inj h
          obtain ⟨rfl, rfl⟩ := ih (fun hmem => hx (List.mem_cons_of_mem _ hmem))
            (fun hmem => hx' (List.mem_cons_of_mem _ hmem)) htail
          exact ⟨rfl, rfl⟩

/-- No piece contains a separator. -/
theorem false_of_mem_splitOnP
    {α : Type*} {p : α → Bool} {l xs : List α} {x : α}
    (h : l ∈ xs.splitOnP p)
    (hx : x ∈ l) :
    p x = false := by
  induction xs generalizing l x with
  | nil =>
      obtain rfl : l = [] := by simpa using h
      exact absurd hx List.not_mem_nil
  | cons y xs ih =>
      rw [List.splitOnP_cons_eq_if_modifyHead] at h
      split at h
      · rcases List.mem_cons.mp h with rfl | h
        · exact absurd hx List.not_mem_nil
        · exact ih h hx
      · rename_i hy
        cases hrest : xs.splitOnP p with
        | nil => simp [hrest] at h
        | cons first rest =>
            rw [hrest, List.modifyHead_cons] at h
            rcases List.mem_cons.mp h with rfl | h
            · rcases List.mem_cons.mp hx with rfl | hx
              · simpa using hy
              · exact ih (hrest ▸ List.mem_cons_self) hx
            · exact ih (hrest ▸ List.mem_cons_of_mem _ h) hx

theorem notMem_of_mem_splitOn
    {x : Char} {l xs : List Char}
    (h : l ∈ xs.splitOn x) :
    x ∉ l := by
  rw [List.splitOn_eq_splitOnP] at h
  intro hx
  exact absurd (false_of_mem_splitOnP h hx) (by simp)

/-- No field contains the separator. -/
theorem notMem_of_mem_fields
    (h : m ∈ fields sep a) :
    sep ∉ m.toList := by
  obtain ⟨l, hl, rfl⟩ := List.mem_map.mp h
  rw [String.toList_ofList]
  exact notMem_of_mem_splitOn hl

/-- A text without the separator is one field. -/
theorem fields_eq_singleton
    (h : sep ∉ a.toList) :
    fields sep a = [a] := by
  rw [fields, List.splitOn_eq_singleton h, List.map_singleton, String.ofList_toList]

theorem self_mem_fields_iff :
    a ∈ fields sep a ↔ sep ∉ a.toList :=
  ⟨notMem_of_mem_fields, fun h => by simp [fields_eq_singleton h]⟩

theorem addField_ne_empty
    (hm : m ≠ "") :
    addField sep a m ≠ "" := by
  unfold addField
  split
  · exact hm
  · simp

/-- A non-empty text is a field after the addition if it was one before or is one
of what was added. -/
theorem mem_fields_addField
    (hm : m ≠ "") :
    m ∈ fields sep (addField sep a b) ↔ m ∈ fields sep a ∨ m ∈ fields sep b := by
  unfold addField
  split
  · simp_all
  · rw [fields_append, List.mem_append]

theorem addField_addField
    (ha : a ≠ "") :
    addField sep (addField sep s a) b = addField sep s (a ++ sep.toString ++ b) := by
  rw [addField, if_neg (addField_ne_empty ha)]
  unfold addField
  split
  · rfl
  · simp only [String.append_assoc]

/-- A field that is added makes the text longer. -/
theorem length_lt_addField
    (hm : m ≠ "") :
    s.length < (addField sep s m).length := by
  have hpos : m.length ≠ 0 := by simpa using hm
  unfold addField
  split
  · rename_i hs
    simp only [hs, String.length_empty]
    omega
  · simp only [String.length_append]
    omega

theorem addField_ne_self
    (hm : m ≠ "") :
    addField sep s m ≠ s := by
  intro h
  exact absurd (congrArg String.length h) (length_lt_addField hm).ne'

theorem addFields_concat :
    addFields sep s (ms ++ [m]) = addField sep (addFields sep s ms) m := by
  simp [addFields]

theorem addFields_ne_self
    (hne : ms ≠ [])
    (hms : ∀ m ∈ ms, m ≠ "") :
    addFields sep s ms ≠ s := by
  have hlonger : ∀ ms : List String, (∀ m ∈ ms, m ≠ "") →
      s.length + ms.length ≤ (addFields sep s ms).length := by
    intro ms hms
    induction ms using List.reverseRecOn with
    | nil => exact le_rfl
    | append_singleton ms m ih =>
        have hbefore := ih fun x hx => hms x (List.mem_append_left _ hx)
        have hlast : (addFields sep s ms).length <
            (addField sep (addFields sep s ms) m).length :=
          length_lt_addField (hms m (by simp))
        rw [addFields_concat, List.length_append, List.length_singleton]
        omega
  intro h
  have hlength := hlonger ms hms
  have hpos := List.length_pos_iff.mpr hne
  rw [h] at hlength
  omega

theorem addField_inj :
    addField sep s a = addField sep s b ↔ a = b := by
  unfold addField
  split
  · exact Iff.rfl
  · simp

/-- Fields added one after the other are added at once, joined. -/
theorem addFields_eq
    (hne : ms ≠ [])
    (hms : ∀ m ∈ ms, m ≠ "") :
    addFields sep s ms = addField sep s (sep.toString.intercalate ms) := by
  induction ms using List.reverseRecOn with
  | nil => exact absurd rfl hne
  | append_singleton ms m ih =>
      rw [addFields_concat]
      cases ms with
      | nil => simp [addFields]
      | cons a ms =>
          have hjoined : sep.toString.intercalate (a :: ms) ≠ "" := by
            cases ms with
            | nil => simpa using hms a (by simp)
            | cons b ms => simp
          rw [ih (by simp) fun x hx => hms x (List.mem_append_left _ hx),
            addField_addField hjoined,
            String.intercalate_append_of_ne_nil (by simp) (by simp),
            String.intercalate_singleton]

/-- The fields after the addition are those before and those of what was added. -/
theorem mem_fields_addFields
    (hm : m ≠ "") :
    m ∈ fields sep (addFields sep s ms) ↔
      m ∈ fields sep s ∨ ∃ a ∈ ms, m ∈ fields sep a := by
  induction ms using List.reverseRecOn with
  | nil => simp [addFields]
  | append_singleton ms a ih =>
      rw [addFields_concat, mem_fields_addField hm, ih]
      simp [or_and_right, exists_or, or_assoc]

/-! ## The value of a key among the fields -/

/-- What follows the key in a field that starts with it. -/
def afterKey (key m : String) : Option String :=
  if key.toList.isPrefixOf m.toList then
    some (.ofList (m.toList.drop key.toList.length))
  else none

/-- The value of the first field that starts with the key. -/
def firstValue (sep : Char) (key s : String) : Option String :=
  (fields sep s).findSome? (afterKey key)

/-- A text up to its first separator. -/
def upTo (sep : Char) (s : String) : String :=
  .ofList (s.toList.takeWhile (· ≠ sep))

theorem splitOn_eq_cons
    (x : Char) (xs : List Char) :
    ∃ rest, xs.splitOn x = xs.takeWhile (· ≠ x) :: rest := by
  rw [List.splitOn_eq_splitOnP]
  induction xs with
  | nil => exact ⟨[], rfl⟩
  | cons y xs ih =>
      obtain ⟨rest, hrest⟩ := ih
      rw [List.splitOnP_cons_eq_if_modifyHead, hrest]
      by_cases hy : y = x
      · exact ⟨xs.takeWhile (· ≠ x) :: rest, by simp [hy]⟩
      · exact ⟨rest, by simp [hy]⟩

section Values

variable {key v : String}

theorem afterKey_empty
    (hkey : key ≠ "") :
    afterKey key "" = none := by
  have hne : key.toList ≠ [] := by simpa using hkey
  cases hlist : key.toList with
  | nil => exact absurd hlist hne
  | cons c rest => simp [afterKey, hlist]

/-- The value among the fields of a text is found before the value of what was
added to it. -/
theorem firstValue_addField
    (hkey : key ≠ "") :
    firstValue sep key (addField sep s m) =
      (firstValue sep key s).or (firstValue sep key m) := by
  unfold addField
  split
  · rename_i hs
    simp [hs, firstValue, afterKey_empty hkey]
  · rw [firstValue, fields_append, List.findSome?_append]
    rfl

/-- A value that is found stays the first one. -/
theorem firstValue_addFields
    (hkey : key ≠ "")
    (h : firstValue sep key s = some v) :
    firstValue sep key (addFields sep s ms) = some v := by
  induction ms using List.reverseRecOn with
  | nil => exact h
  | append_singleton ms m ih =>
      rw [addFields_concat, firstValue_addField hkey, ih, Option.some_or]

/-- A field that starts with the key gives its value up to the next separator. -/
theorem firstValue_key
    (hsep : sep ∉ key.toList) :
    firstValue sep key (key ++ v) = some (upTo sep v) := by
  obtain ⟨rest, hrest⟩ := splitOn_eq_cons sep (key ++ v).toList
  have hkey : ∀ c ∈ key.toList, decide (c ≠ sep) = true := by
    intro c hc
    simpa using fun heq : c = sep => hsep (heq ▸ hc)
  rw [String.toList_append, List.takeWhile_append_of_pos hkey] at hrest
  simp [firstValue, fields, hrest, afterKey, upTo]

end Values

end CockatielEngine
