import CockatielEngine.Text.Lines
import CockatielEngine.Text.Trimming

/-!
# Text: files of keys and values

A file has an entry in each of its lines: a key, an equals sign and a value.  Blanks
around a key and a value, and quotes around a value, do not count; empty lines and
comments have no entry.  An entry is written over the first line that starts with its
key and the equals sign, or behind all lines.

**Rules.**
* `entryLines_writeEntries`, `entryLines_writeEntries_of_notMem`: the lines of a key
  after entries are written.
-/

namespace CockatielEngine

/-- `trim_matches('"')`. -/
def unquote (value : Text) : Text :=
  (value.dropWhile (· = '"')).rdropWhile (· = '"')

/-- The key and the value of a line. -/
def envEntry (line : Text) : Option (Text × Text) :=
  let line := line.trim
  if line = [] ∨ line.head? = some '#' ∨ '=' ∉ line then none
  else
    let key := Text.trim (line.takeWhile (· ≠ '='))
    if key = [] then none
    else some (key, unquote (Text.trim (line.dropWhile (· ≠ '=')).tail))

/-- What a text has to read, line for line. -/
def envEntries (text : Text) : List (Text × Text) :=
  (textLines text).filterMap envEntry

/-- The line that an entry is written as. -/
def envLine (entry : Text × Text) : Text :=
  entry.1 ++ '=' :: entry.2

/-- The line starts with the key and the equals sign. -/
def isLineOf (key line : Text) : Bool :=
  (key ++ ['=']).isPrefixOf line.trim

/-- The entry in place of the first line of its key, or behind all lines. -/
def writeEntry (entry : Text × Text) : List Text → List Text
  | [] => [envLine entry]
  | line :: rest =>
      if isLineOf entry.1 line then envLine entry :: rest
      else line :: writeEntry entry rest

def writeEntries (entries : List (Text × Text)) (lines : List Text) : List Text :=
  entries.foldl (fun lines entry => writeEntry entry lines) lines

/-- The lines of a file, none if there is no file. -/
def fileLines (file : Option Text) : List Text :=
  (file.map textLines).getD []

/-- `write_env_file`, and `write_env_map`. -/
def mergeEnv (file : Option Text) (entries : List (Text × Text)) : Text :=
  renderLines (writeEntries entries (fileLines file))

/-- A key that is read as it is written. -/
structure ReadableKey (key : Text) : Prop where
  ne_nil : key ≠ []
  trimmed : key.trim = key
  no_equals : '=' ∉ key
  no_feed : '\n' ∉ key
  no_comment : key.head? ≠ some '#'

theorem ReadableKey.ne_equals
    {key : Text} {c : Char}
    (hkey : ReadableKey key)
    (hc : c ∈ key) :
    c ≠ '=' := by
  rintro rfl
  exact hkey.no_equals hc

section Reading

variable {key key' line : Text} {entry : Text × Text}

@[simp] theorem trim_stripReturn
    (t : Text) :
    Text.trim (stripReturn t) = t.trim := by
  unfold stripReturn
  split
  · rename_i hlast
    rw [← trim_concat (t := t.dropLast) (c := '\r') (by decide),
      List.dropLast_append_getLast? _ hlast]
  · rfl

@[simp] theorem envEntry_nil : envEntry [] = none := by
  simp [envEntry, Text.trim, Text.trimStart]

@[simp] theorem envEntry_stripReturn
    (line : Text) :
    envEntry (stripReturn line) = envEntry line := by
  rw [envEntry, envEntry, trim_stripReturn]

@[simp] theorem isLineOf_stripReturn
    (key line : Text) :
    isLineOf key (stripReturn line) = isLineOf key line := by
  rw [isLineOf, isLineOf, trim_stripReturn]

theorem envEntry_of_trim
    {value : Text}
    (hkey : ReadableKey key)
    (h : line.trim = key ++ '=' :: value) :
    envEntry line = some (key, unquote value.trim) := by
  have htake : (key ++ '=' :: value).takeWhile (· ≠ '=') = key := by
    rw [List.takeWhile_append_of_pos fun c hc => decide_eq_true (hkey.ne_equals hc)]
    simp
  have hdrop : ((key ++ '=' :: value).dropWhile (· ≠ '=')).tail = value := by
    rw [List.dropWhile_append_of_pos fun c hc => decide_eq_true (hkey.ne_equals hc)]
    simp
  have hhead : (key ++ '=' :: value).head? ≠ some '#' := by
    rw [List.head?_append_of_ne_nil _ hkey.ne_nil]
    exact hkey.no_comment
  simp only [envEntry, h, htake, hdrop, hkey.trimmed]
  rw [if_neg, if_neg hkey.ne_nil]
  rintro (hnil | hcomment | hequals)
  · simp at hnil
  · exact hhead hcomment
  · simp at hequals

theorem isLineOf_iff :
    isLineOf key line = true ↔ ∃ value, line.trim = key ++ '=' :: value := by
  rw [isLineOf, List.isPrefixOf_iff_prefix]
  constructor
  · rintro ⟨value, h⟩
    exact ⟨value, by rw [← h]; simp⟩
  · rintro ⟨value, h⟩
    exact ⟨value, by rw [h]; simp⟩

/-- A line that starts with the key is read as one of the key. -/
theorem envEntry_of_isLineOf
    (hkey : ReadableKey key)
    (h : isLineOf key line = true) :
    ∃ value, envEntry line = some (key, value) := by
  obtain ⟨value, htrim⟩ := isLineOf_iff.mp h
  exact ⟨_, envEntry_of_trim hkey htrim⟩

/-- A line is of one key at most. -/
theorem isLineOf_inj
    (hkey : ReadableKey key)
    (hkey' : ReadableKey key')
    (h : isLineOf key line = true)
    (h' : isLineOf key' line = true) :
    key = key' := by
  obtain ⟨value, hvalue⟩ := envEntry_of_isLineOf hkey h
  obtain ⟨value', hvalue'⟩ := envEntry_of_isLineOf hkey' h'
  exact (Prod.mk.inj (Option.some.inj (hvalue.symm.trans hvalue'))).1

theorem trim_envLine
    (hkey : ReadableKey entry.1) :
    (envLine entry).trim = entry.1 ++ '=' :: entry.2.rdropWhile Text.isWhitespace :=
  trim_append_cons hkey.ne_nil hkey.trimmed (by decide)

/-- An entry that is written is read with its value trimmed and unquoted. -/
theorem envEntry_envLine
    (hkey : ReadableKey entry.1) :
    envEntry (envLine entry) = some (entry.1, unquote entry.2.trim) := by
  rw [envEntry_of_trim hkey (trim_envLine hkey), trim_rdropWhile]

theorem isLineOf_envLine
    (hkey : ReadableKey entry.1) :
    isLineOf entry.1 (envLine entry) = true :=
  isLineOf_iff.mpr ⟨_, trim_envLine hkey⟩

theorem envLine_ne_nil : envLine entry ≠ [] := by
  simp [envLine]

theorem trim_subset
    (t : Text) :
    t.trim ⊆ t :=
  List.Subset.trans (List.rdropWhile_prefix _ _).subset (List.dropWhile_suffix _).subset

/-- A value has the characters of its line only. -/
theorem subset_of_envEntry
    {value : Text}
    (h : envEntry line = some (key, value)) :
    value ⊆ line := by
  simp only [envEntry] at h
  split at h
  · cases h
  · split at h
    · cases h
    · obtain rfl := (Prod.mk.inj (Option.some.inj h)).2
      intro c hc
      have htrimmed := (List.dropWhile_suffix _).subset
        ((List.rdropWhile_prefix _ _).subset hc)
      have hrest := List.tail_subset _ (trim_subset _ htrimmed)
      exact trim_subset line ((List.dropWhile_suffix _).subset hrest)

end Reading

section Writing

variable {key line : Text} {entry : Text × Text} {lines : List Text}
variable {entries : List (Text × Text)}

theorem writeEntry_ne_nil : writeEntry entry lines ≠ [] := by
  cases lines with
  | nil => simp [writeEntry]
  | cons line lines =>
      rw [writeEntry]
      split <;> simp

/-- The lines that are read as ones of the key. -/
def entryLines (key : Text) (lines : List Text) : List Text :=
  lines.filter fun line => (envEntry line).map (·.1) = some key

theorem entryLines_cons_of_key
    {value : Text}
    (h : envEntry line = some (key, value)) :
    entryLines key (line :: lines) = line :: entryLines key lines :=
  List.filter_cons_of_pos (by rw [h]; simp)

theorem entryLines_cons_of_ne
    (h : (envEntry line).map (·.1) ≠ some key) :
    entryLines key (line :: lines) = entryLines key lines :=
  List.filter_cons_of_neg (by simpa using h)

/-- An entry is written among the lines of its key. -/
theorem entryLines_writeEntry
    (hentry : ReadableKey entry.1) :
    entryLines entry.1 (writeEntry entry lines) =
      writeEntry entry (entryLines entry.1 lines) := by
  have hnew := envEntry_envLine hentry
  induction lines with
  | nil => exact entryLines_cons_of_key hnew
  | cons line lines ih =>
      rw [writeEntry]
      split
      · rename_i hline
        obtain ⟨value, hvalue⟩ := envEntry_of_isLineOf hentry hline
        rw [entryLines_cons_of_key hnew, entryLines_cons_of_key hvalue, writeEntry,
          if_pos hline]
      · rename_i hline
        by_cases hkey : (envEntry line).map (·.1) = some entry.1
        · obtain ⟨⟨k, value⟩, hvalue, rfl⟩ := Option.map_eq_some_iff.mp hkey
          rw [entryLines_cons_of_key hvalue, entryLines_cons_of_key hvalue, ih,
            writeEntry, if_neg hline]
        · rw [entryLines_cons_of_ne hkey, entryLines_cons_of_ne hkey, ih]

/-- The lines of another key stay as they are. -/
theorem entryLines_writeEntry_of_ne
    (hentry : ReadableKey entry.1)
    (hkey : key ≠ entry.1) :
    entryLines key (writeEntry entry lines) = entryLines key lines := by
  have hne : ∀ {line : Text} {value : Text}, envEntry line = some (entry.1, value) →
      (envEntry line).map (·.1) ≠ some key := by
    intro line value hvalue heq
    rw [hvalue, Option.map_some] at heq
    exact hkey (Option.some.inj heq).symm
  have hnew := hne (envEntry_envLine hentry)
  induction lines with
  | nil => exact entryLines_cons_of_ne hnew
  | cons line lines ih =>
      rw [writeEntry]
      split
      · rename_i hline
        obtain ⟨value, hvalue⟩ := envEntry_of_isLineOf hentry hline
        rw [entryLines_cons_of_ne hnew, entryLines_cons_of_ne (hne hvalue)]
      · by_cases hread : (envEntry line).map (·.1) = some key
        · obtain ⟨⟨k, value⟩, hvalue, rfl⟩ := Option.map_eq_some_iff.mp hread
          rw [entryLines_cons_of_key hvalue, entryLines_cons_of_key hvalue, ih]
        · rw [entryLines_cons_of_ne hread, entryLines_cons_of_ne hread, ih]

/-- The keys of the entries can be read, and each is there once. -/
structure ReadableEntries (entries : List (Text × Text)) : Prop where
  readable : ∀ entry ∈ entries, ReadableKey entry.1
  nodup : (entries.map (·.1)).Nodup

theorem ReadableEntries.of_cons
    (h : ReadableEntries (entry :: entries)) :
    ReadableKey entry.1 ∧ (∀ e ∈ entries, e.1 ≠ entry.1) ∧ ReadableEntries entries := by
  obtain ⟨hfirst, hnodup⟩ := List.nodup_cons.mp h.nodup
  refine ⟨h.readable entry List.mem_cons_self, fun e he heq => ?_,
    fun e he => h.readable e (List.mem_cons_of_mem _ he), hnodup⟩
  exact hfirst (List.mem_map.mpr ⟨e, he, heq⟩)

theorem entryLines_writeEntries_of_notMem
    (h : ReadableEntries entries)
    (hkey : key ∉ entries.map (·.1)) :
    entryLines key (writeEntries entries lines) = entryLines key lines := by
  induction entries generalizing lines with
  | nil => rfl
  | cons entry entries ih =>
      obtain ⟨hentry, -, hrest⟩ := h.of_cons
      rw [List.map_cons, List.mem_cons, not_or] at hkey
      rw [writeEntries, List.foldl_cons]
      exact (ih hrest hkey.2).trans (entryLines_writeEntry_of_ne hentry hkey.1)

theorem entryLines_writeEntries
    (h : ReadableEntries entries)
    (hmem : entry ∈ entries) :
    entryLines entry.1 (writeEntries entries lines) =
      writeEntry entry (entryLines entry.1 lines) := by
  induction entries generalizing lines with
  | nil => cases hmem
  | cons first entries ih =>
      obtain ⟨hfirst, hothers, hrest⟩ := h.of_cons
      rw [writeEntries, List.foldl_cons]
      rcases List.mem_cons.mp hmem with rfl | hmem
      · have hnotMem : entry.1 ∉ entries.map (·.1) := fun hkey => by
          obtain ⟨e, he, heq⟩ := List.mem_map.mp hkey
          exact hothers e he heq
        exact (entryLines_writeEntries_of_notMem hrest hnotMem).trans
          (entryLines_writeEntry hfirst)
      · exact (ih hrest hmem).trans
          (by rw [entryLines_writeEntry_of_ne hfirst (hothers entry hmem)])

end Writing

end CockatielEngine
