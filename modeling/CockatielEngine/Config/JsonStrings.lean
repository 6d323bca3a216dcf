import CockatielEngine.Config.Credentials

/-!
# Config: arrays of strings in compact JSON

Quotes, backslashes and control characters are escaped, and nothing stands between
the strings but a comma.  The reader takes this form only.
-/

namespace CockatielEngine

/-- The letter that a control character is escaped with. -/
def shortEscape (c : Char) : Option Char :=
  match c.toNat with
  | 8 => some 'b'
  | 9 => some 't'
  | 10 => some 'n'
  | 12 => some 'f'
  | 13 => some 'r'
  | _ => none

def escapeChar (c : Char) : Text :=
  if c = '"' ∨ c = '\\' then ['\\', c]
  else if c.toNat < 32 then
    match shortEscape c with
    | some s => ['\\', s]
    | none => '\\' :: 'u' :: '0' :: '0' :: hexByte (UInt8.ofNat c.toNat)
  else [c]

def unescape (c : Char) : Option Char :=
  match c with
  | '"' => some '"'
  | '\\' => some '\\'
  | '/' => some '/'
  | 'b' => some (Char.ofNat 8)
  | 't' => some '\t'
  | 'n' => some '\n'
  | 'f' => some (Char.ofNat 12)
  | 'r' => some '\r'
  | _ => none

/-- The character of a string that starts a text, and the rest. -/
def readChar : Text → Option (Char × Text)
  | [] => none
  | c :: rest =>
      if c = '\\' then
        match rest with
        | 'u' :: '0' :: '0' :: h :: l :: rest =>
            match hexValue h, hexValue l with
            | some h, some l => some (Char.ofNat (16 * h + l), rest)
            | _, _ => none
        | s :: rest => (unescape s).map fun c => (c, rest)
        | [] => none
      else if c.toNat < 32 then none
      else some (c, rest)

/-- A string up to its quote, and the rest; the number bounds its length. -/
def readString : Nat → Text → Option (Text × Text)
  | 0, _ => none
  | n + 1, text =>
      if text.head? = some '"' then some ([], text.tail)
      else
        (readChar text).bind fun r =>
          (readString n r.2).map fun s => (r.1 :: s.1, s.2)

/-- Strings with commas between them up to the bracket; the number bounds how many. -/
def readStrings : Nat → Text → Option (List Text)
  | 0, _ => none
  | n + 1, text =>
      if text.head? = some '"' then
        (readString text.length text.tail).bind fun r =>
          if r.2 = [']'] then some [r.1]
          else if r.2.head? = some ',' then (readStrings n r.2.tail).map (r.1 :: ·)
          else none
      else none

def quoted (item : Text) : Text :=
  '"' :: (item.flatMap escapeChar ++ ['"'])

def writeStrings (items : List Text) : Text :=
  '[' :: ([','].intercalate (items.map quoted) ++ [']'])

def readArray (text : Text) : Option (List Text) :=
  if text = ['[', ']'] then some []
  else if text.head? = some '[' then readStrings text.length text.tail
  else none

section RoundTrip

variable {c : Char} {item text : Text} {items : List Text} {n : Nat}

theorem readChar_escapeChar
    (c : Char)
    (text : Text) :
    readChar (escapeChar c ++ text) = some (c, text) ∧
      (escapeChar c).head? ≠ some '"' := by
  unfold escapeChar
  split
  · rename_i h
    rcases h with rfl | rfl
    · exact ⟨rfl, by decide⟩
    · exact ⟨rfl, by decide⟩
  · rename_i hplain
    rw [not_or] at hplain
    split
    · rename_i hcontrol
      obtain ⟨k, hk, rfl⟩ : ∃ k, k < 32 ∧ c = Char.ofNat k :=
        ⟨c.toNat, hcontrol, (Char.ofNat_toNat c).symm⟩
      clear hplain hcontrol
      interval_cases k
      all_goals exact ⟨rfl, by decide⟩
    · rename_i hcontrol
      refine ⟨?_, by simpa using hplain.1⟩
      rw [List.singleton_append, readChar.eq_def]
      exact (if_neg hplain.2).trans (if_neg hcontrol)

theorem escapeChar_ne_nil : escapeChar c ≠ [] := by
  unfold escapeChar
  repeat' split
  all_goals simp

theorem length_le_flatMap_escapeChar
    (item : Text) :
    item.length ≤ (item.flatMap escapeChar).length := by
  induction item with
  | nil => exact Nat.le_refl _
  | cons c item ih =>
      have hpos := List.length_pos_of_ne_nil (escapeChar_ne_nil (c := c))
      rw [List.flatMap_cons, List.length_append, List.length_cons]
      omega

theorem readString_escaped
    (hn : item.length < n) :
    readString n (item.flatMap escapeChar ++ '"' :: text) = some (item, text) := by
  induction item generalizing n with
  | nil =>
      obtain ⟨n, rfl⟩ := Nat.exists_eq_succ_of_ne_zero (Nat.ne_of_gt hn)
      rfl
  | cons c item ih =>
      obtain ⟨n, rfl⟩ :=
        Nat.exists_eq_succ_of_ne_zero (Nat.ne_of_gt (Nat.zero_lt_of_lt hn))
      obtain ⟨hchar, hquote⟩ :=
        readChar_escapeChar c (item.flatMap escapeChar ++ '"' :: text)
      have hhead : (escapeChar c ++ (item.flatMap escapeChar ++ '"' :: text)).head? ≠
          some '"' := by
        rwa [List.head?_append_of_ne_nil _ escapeChar_ne_nil]
      rw [List.flatMap_cons, List.append_assoc, readString, if_neg hhead, hchar,
        Option.bind_some, ih (Nat.lt_of_succ_lt_succ hn), Option.map_some]

/-- A string in quotes is read, and then what comes behind it. -/
theorem readStrings_quoted :
    readStrings (n + 1) (quoted item ++ text) =
      if text = [']'] then some [item]
      else if text.head? = some ',' then (readStrings n text.tail).map (item :: ·)
      else none := by
  have hbound : item.length < (quoted item ++ text).length := by
    have hlength := length_le_flatMap_escapeChar item
    simp only [quoted, List.length_append, List.length_cons]
    omega
  have htail : (quoted item ++ text).tail = item.flatMap escapeChar ++ '"' :: text := by
    simp [quoted]
  rw [readStrings, if_pos (by simp [quoted]), htail, readString_escaped hbound,
    Option.bind_some]

theorem readStrings_written
    (hne : items ≠ [])
    (hn : items.length ≤ n) :
    readStrings n ([','].intercalate (items.map quoted) ++ [']']) = some items := by
  induction items generalizing n with
  | nil => exact absurd rfl hne
  | cons item items ih =>
      obtain ⟨n, rfl⟩ :=
        Nat.exists_eq_succ_of_ne_zero (Nat.ne_of_gt (Nat.zero_lt_of_lt hn))
      cases items with
      | nil =>
          have hjoined : [','].intercalate ([item].map quoted) = quoted item := by
            simp [List.intercalate]
          rw [hjoined, readStrings_quoted, if_pos rfl]
      | cons next items =>
          have hrest := ih (List.cons_ne_nil next items) (Nat.le_of_succ_le_succ hn)
          rw [List.map_cons] at hrest
          rw [List.map_cons, List.map_cons, List.intercalate_cons_cons, List.append_assoc,
            List.append_assoc, readStrings_quoted, List.singleton_append,
            if_neg (by simp), List.head?_cons, if_pos rfl, List.tail_cons, hrest,
            Option.map_some]

theorem length_le_joined
    (items : List Text) :
    items.length ≤ ([','].intercalate (items.map quoted)).length := by
  induction items with
  | nil => exact Nat.zero_le _
  | cons item items ih =>
      cases items with
      | nil => simp [List.intercalate, quoted]
      | cons next items =>
          rw [List.map_cons, List.map_cons, List.intercalate_cons_cons]
          rw [List.map_cons] at ih
          simp only [List.length_append, List.length_cons] at ih ⊢
          omega

theorem readArray_writeStrings
    (items : List Text) :
    readArray (writeStrings items) = some items := by
  cases items with
  | nil => rfl
  | cons item items =>
      have hlength := length_le_joined (item :: items)
      have hne : writeStrings (item :: items) ≠ ['[', ']'] := fun heq => by
        have hshort := congrArg List.length heq
        rw [List.length_cons] at hlength
        simp only [writeStrings, List.length_cons, List.length_append, List.length_nil]
          at hshort
        omega
      rw [readArray, if_neg hne, writeStrings, List.head?_cons, if_pos rfl,
        List.tail_cons]
      refine readStrings_written (List.cons_ne_nil item items) ?_
      simp only [List.length_cons, List.length_append] at hlength ⊢
      omega

theorem notMem_escapeChar : '\n' ∉ escapeChar c := by
  unfold escapeChar
  split
  · rename_i h
    rcases h with rfl | rfl
    · decide
    · decide
  · split
    · rename_i hcontrol
      obtain ⟨k, hk, rfl⟩ : ∃ k, k < 32 ∧ c = Char.ofNat k :=
        ⟨c.toNat, hcontrol, (Char.ofNat_toNat c).symm⟩
      clear hcontrol
      interval_cases k
      all_goals decide
    · rename_i hcontrol
      rw [List.mem_singleton]
      rintro rfl
      exact hcontrol (by decide)

theorem notMem_writeStrings : '\n' ∉ writeStrings items := by
  have hquoted : ∀ item : Text, '\n' ∉ quoted item := by
    intro item hmem
    simp only [quoted, List.mem_cons, List.mem_append, List.mem_flatMap,
      List.not_mem_nil, or_false] at hmem
    rcases hmem with hchar | ⟨c, -, hmem⟩ | hchar
    · revert hchar
      decide
    · exact notMem_escapeChar hmem
    · revert hchar
      decide
  have hjoined : '\n' ∉ [','].intercalate (items.map quoted) := by
    induction items with
    | nil => simp [List.intercalate]
    | cons item items ih =>
        cases items with
        | nil => simpa [List.intercalate] using hquoted item
        | cons next items =>
            rw [List.map_cons, List.map_cons, List.intercalate_cons_cons]
            rw [List.map_cons] at ih
            simp only [List.mem_append, not_or]
            exact ⟨⟨hquoted item, by decide⟩, ih⟩
  simp [writeStrings, hjoined]

end RoundTrip

/-- Arrays of strings in compact JSON. -/
def compactJson : StringArrays where
  write := writeStrings
  read := readArray
  read_write := readArray_writeStrings
  brackets _ := ⟨_, rfl⟩
  no_feed _ := notMem_writeStrings

end CockatielEngine
