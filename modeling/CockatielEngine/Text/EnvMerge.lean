import CockatielEngine.Text.EnvFile

/-!
# Text: entries that are written again

All entries can be written line by line: a line is written over by the one entry of
its key, if there is one, and what no line is written over by comes last.

**Rules.**
* `envEntries_mergeEnv`: what is read back of a file that is written.
* `mergeEnv_eq_self_iff`: when a second write changes nothing.
-/

namespace CockatielEngine

/-- The lines that are not written over: all but the first one of each key. -/
def keptLines : List Text → List Text → List Text
  | _, [] => []
  | keys, line :: rest =>
      if keys.any (isLineOf · line) then
        keptLines (keys.eraseP (isLineOf · line)) rest
      else line :: keptLines keys rest

/-- Every key has a line. -/
def HasLines (keys lines : List Text) : Prop :=
  ∀ key ∈ keys, ∃ line ∈ lines, isLineOf key line = true

instance (keys lines : List Text) : Decidable (HasLines keys lines) :=
  inferInstanceAs (Decidable (∀ key ∈ keys, ∃ line ∈ lines, isLineOf key line = true))

section LineByLine

variable {line : Text} {entry : Text × Text} {lines lines' : List Text}
variable {entries : List (Text × Text)} {f : Text → Text}

theorem ReadableEntries.sublist
    {entries' : List (Text × Text)}
    (h : ReadableEntries entries)
    (hsub : entries'.Sublist entries) :
    ReadableEntries entries' :=
  ⟨fun e he => h.readable e (hsub.subset he), h.nodup.sublist (hsub.map _)⟩

theorem ReadableEntries.eraseP
    (h : ReadableEntries entries)
    (p : Text × Text → Bool) :
    ReadableEntries (entries.eraseP p) :=
  h.sublist List.eraseP_sublist

/-- A line that is of none of the keys stays in front. -/
theorem writeEntries_cons_of_none
    (h : ∀ e ∈ entries, isLineOf e.1 line = false) :
    writeEntries entries (line :: lines) = line :: writeEntries entries lines := by
  induction entries generalizing lines with
  | nil => rfl
  | cons entry entries ih =>
      rw [writeEntries, List.foldl_cons, writeEntry,
        if_neg (by rw [h entry List.mem_cons_self]; simp)]
      exact ih fun e he => h e (List.mem_cons_of_mem _ he)

theorem writeEntries_append
    {entries' : List (Text × Text)} :
    writeEntries (entries ++ entries') lines =
      writeEntries entries' (writeEntries entries lines) :=
  List.foldl_append

/-- The entries of a readable list that a line is of are those of one key. -/
theorem isLineOf_eq_decide
    (h : ReadableEntries entries)
    (hmem : entry ∈ entries)
    (hline : isLineOf entry.1 line = true) :
    ∀ e ∈ entries, isLineOf e.1 line = decide (e.1 = entry.1) := by
  intro e he
  by_cases hkey : e.1 = entry.1
  · rw [hkey, hline, decide_eq_true rfl]
  · rw [decide_eq_false hkey, Bool.eq_false_iff]
    intro hof
    exact hkey (isLineOf_inj (h.readable e he) (h.readable entry hmem) hof hline)

theorem find?_eraseP_congr
    {p q : Text × Text → Bool}
    (h : ∀ e ∈ entries, p e = q e) :
    entries.find? p = entries.find? q ∧ entries.eraseP p = entries.eraseP q := by
  induction entries with
  | nil => exact ⟨rfl, rfl⟩
  | cons e entries ih =>
      obtain ⟨hfind, herase⟩ := ih fun e' he' => h e' (List.mem_cons_of_mem _ he')
      rw [List.find?_cons, List.find?_cons, List.eraseP_cons, List.eraseP_cons,
        h e List.mem_cons_self, hfind, herase]
      exact ⟨rfl, rfl⟩

/-- Two lines of one key are written over by the same entry. -/
theorem find?_eraseP_isLineOf
    {line' : Text}
    (h : ReadableEntries entries)
    (hmem : entry ∈ entries)
    (hline : isLineOf entry.1 line = true)
    (hline' : isLineOf entry.1 line' = true) :
    entries.find? (fun e => isLineOf e.1 line) =
        entries.find? (fun e => isLineOf e.1 line') ∧
      entries.eraseP (fun e => isLineOf e.1 line) =
        entries.eraseP fun e => isLineOf e.1 line' :=
  find?_eraseP_congr fun e he => (isLineOf_eq_decide h hmem hline e he).trans
    (isLineOf_eq_decide h hmem hline' e he).symm

/-- The entries that are left are of other keys. -/
theorem isLineOf_of_mem_eraseP
    (h : ReadableEntries entries)
    (hmem : entry ∈ entries.eraseP fun e => isLineOf e.1 line) :
    isLineOf entry.1 line = false := by
  induction entries with
  | nil => cases hmem
  | cons first entries ih =>
      obtain ⟨hfirst, hothers, hrest⟩ := h.of_cons
      rw [List.eraseP_cons] at hmem
      cases hline : isLineOf first.1 line with
      | true =>
          rw [hline, cond_true] at hmem
          by_contra hof
          exact hothers entry hmem (isLineOf_inj (hrest.readable entry hmem) hfirst
            (Bool.eq_true_of_not_eq_false hof) hline)
      | false =>
          rw [hline, cond_false] at hmem
          rcases List.mem_cons.mp hmem with rfl | hmem
          · exact hline
          · exact ih hrest hmem

theorem isLineOf_of_find?
    (hfind : entries.find? (fun e => isLineOf e.1 line) = some entry) :
    entry ∈ entries ∧ isLineOf entry.1 line = true :=
  ⟨List.mem_of_find?_eq_some hfind, by simpa using List.find?_some hfind⟩

/-- A line of one of the keys is written over by its entry. -/
theorem writeEntries_cons_of_some
    (h : ReadableEntries entries)
    (hfind : entries.find? (fun e => isLineOf e.1 line) = some entry) :
    writeEntries entries (line :: lines) = envLine entry ::
      writeEntries (entries.eraseP fun e => isLineOf e.1 line) lines := by
  obtain ⟨hline, before, after, rfl, hbefore⟩ := List.find?_eq_some_iff_append.mp hfind
  have hnone : ∀ e ∈ before, isLineOf e.1 line = false := fun e he => by
    simpa using hbefore e he
  have hafter : ∀ e ∈ after, isLineOf e.1 (envLine entry) = false := by
    intro e he
    obtain ⟨hentry, hothers, hrest⟩ :=
      (h.sublist (List.sublist_append_right before _)).of_cons
    by_contra hof
    exact hothers e he (isLineOf_inj (hrest.readable e he) hentry
      (Bool.eq_true_of_not_eq_false hof) (isLineOf_envLine hentry))
  rw [List.eraseP_append_right _ fun e he => by simp [hnone e he],
    List.eraseP_cons_of_pos (p := fun e : Text × Text => isLineOf e.1 line) hline,
    writeEntries_append, writeEntries_append, writeEntries_cons_of_none hnone,
    writeEntries, List.foldl_cons, writeEntry, if_pos hline]
  exact writeEntries_cons_of_none hafter

/-- Entries whose keys no line has are written behind all lines. -/
theorem writeEntries_nil
    (h : ReadableEntries entries) :
    writeEntries entries [] = entries.map envLine := by
  induction entries with
  | nil => rfl
  | cons entry entries ih =>
      obtain ⟨hentry, hothers, hrest⟩ := h.of_cons
      rw [writeEntries, List.foldl_cons, List.map_cons, ← ih hrest]
      refine writeEntries_cons_of_none fun e he => ?_
      by_contra hof
      exact hothers e he (isLineOf_inj (hrest.readable e he) hentry
        (Bool.eq_true_of_not_eq_false hof) (isLineOf_envLine hentry))

/-- A line is of one of the keys, or of none. -/
theorem isLineOf_cases
    (entries : List (Text × Text))
    (line : Text) :
    (∀ e ∈ entries, isLineOf e.1 line = false) ∨
      ∃ entry, entries.find? (fun e => isLineOf e.1 line) = some entry := by
  cases hfind : entries.find? fun e => isLineOf e.1 line with
  | none => exact Or.inl fun e he => by simpa using List.find?_eq_none.mp hfind e he
  | some entry => exact Or.inr ⟨entry, rfl⟩

/-- All entries are written line by line: a line that is of no key is kept, and one of
a key takes its entry from the list. -/
@[elab_as_elim]
theorem ReadableEntries.lineByLine
    {motive : (entries : List (Text × Text)) → List Text → ReadableEntries entries → Prop}
    (nil : ∀ {entries} (h : ReadableEntries entries), motive entries [] h)
    (kept : ∀ {entries} (h : ReadableEntries entries) (line : Text) (lines : List Text),
      (∀ e ∈ entries, isLineOf e.1 line = false) → motive entries lines h →
      motive entries (line :: lines) h)
    (written : ∀ {entries} (h : ReadableEntries entries) (line : Text)
      (lines : List Text) (entry : Text × Text),
      entries.find? (fun e => isLineOf e.1 line) = some entry →
      motive (entries.eraseP fun e => isLineOf e.1 line) lines (h.eraseP _) →
      motive entries (line :: lines) h)
    {entries : List (Text × Text)}
    (lines : List Text)
    (h : ReadableEntries entries) :
    motive entries lines h := by
  induction lines generalizing entries with
  | nil => exact nil h
  | cons line lines ih =>
      rcases isLineOf_cases entries line with hnone | ⟨entry, hfind⟩
      · exact kept h line lines hnone (ih h)
      · exact written h line lines entry hfind (ih (h.eraseP _))

theorem isLineOf_comp
    (hf : ∀ key line, isLineOf key (f line) = isLineOf key line)
    (line : Text) :
    (fun e : Text × Text => isLineOf e.1 (f line)) = fun e => isLineOf e.1 line :=
  funext fun e => hf e.1 line

/-- Entries that are written on lines of their own can be written over again. -/
theorem writeEntries_map_envLine
    (h : ReadableEntries entries)
    (hf : ∀ key line, isLineOf key (f line) = isLineOf key line) :
    writeEntries entries ((entries.map envLine).map f) = entries.map envLine := by
  induction entries with
  | nil => rfl
  | cons entry entries ih =>
      obtain ⟨hentry, -, hrest⟩ := h.of_cons
      have hline : isLineOf entry.1 (f (envLine entry)) = true :=
        (hf _ _).trans (isLineOf_envLine hentry)
      rw [List.map_cons, List.map_cons, writeEntries_cons_of_some h
        (List.find?_cons_of_pos (p := fun e : Text × Text => isLineOf e.1 _) hline),
        List.eraseP_cons_of_pos (p := fun e : Text × Text => isLineOf e.1 _) hline,
        ih hrest]

/-- What is written over is written over again, and what changes meanwhile is what
was kept. -/
theorem writeEntries_map_writeEntries
    (h : ReadableEntries entries)
    (hf : ∀ key line, isLineOf key (f line) = isLineOf key line) :
    writeEntries entries ((writeEntries entries lines).map f) =
      writeEntries entries (lines.map f) := by
  induction lines, h using ReadableEntries.lineByLine with
  | nil h =>
      rw [writeEntries_nil h, List.map_nil, writeEntries_nil h]
      exact writeEntries_map_envLine h hf
  | @kept entries h line lines hnone ih =>
      have hnone' : ∀ e ∈ entries, isLineOf e.1 (f line) = false := fun e he =>
        (hf _ _).trans (hnone e he)
      rw [writeEntries_cons_of_none hnone, List.map_cons, List.map_cons,
        writeEntries_cons_of_none hnone', writeEntries_cons_of_none hnone', ih]
  | written h line lines entry hfind ih =>
      obtain ⟨hmem, hline⟩ := isLineOf_of_find? hfind
      have hnew : isLineOf entry.1 (f (envLine entry)) = true :=
        (hf _ _).trans (isLineOf_envLine (h.readable entry hmem))
      obtain ⟨hfound, herase⟩ := find?_eraseP_isLineOf h hmem hnew hline
      have hsame := isLineOf_comp hf line
      rw [writeEntries_cons_of_some h hfind, List.map_cons, List.map_cons,
        writeEntries_cons_of_some h (hfound.trans hfind), herase, ih,
        writeEntries_cons_of_some h (hsame ▸ hfind), hsame]

/-- Lines can be changed unseen where they are written over. -/
theorem writeEntries_map_eq_iff
    (h : ReadableEntries entries)
    (hf : ∀ key line, isLineOf key (f line) = isLineOf key line) :
    writeEntries entries (lines.map f) = writeEntries entries lines ↔
      ∀ line ∈ keptLines (entries.map (·.1)) lines, f line = line := by
  induction lines, h using ReadableEntries.lineByLine with
  | nil h => simp [keptLines]
  | @kept entries h line lines hnone ih =>
      have hnone' : ∀ e ∈ entries, isLineOf e.1 (f line) = false := fun e he =>
        (hf _ _).trans (hnone e he)
      have hany : ¬ (entries.map (·.1)).any (isLineOf · line) = true := by
        simpa using hnone
      rw [List.map_cons, keptLines, writeEntries_cons_of_none hnone,
        writeEntries_cons_of_none hnone', if_neg hany, List.cons.injEq, ih,
        List.forall_mem_cons]
  | @written entries h line lines entry hfind ih =>
      obtain ⟨hmem, hline⟩ := isLineOf_of_find? hfind
      have hsame := isLineOf_comp hf line
      have hany : (entries.map (·.1)).any (isLineOf · line) = true :=
        List.any_eq_true.mpr ⟨entry.1, List.mem_map_of_mem hmem, hline⟩
      have herase : (entries.map (·.1)).eraseP (isLineOf · line) =
          (entries.eraseP fun e => isLineOf e.1 line).map (·.1) := List.eraseP_map
      rw [List.map_cons, keptLines, writeEntries_cons_of_some h hfind,
        writeEntries_cons_of_some h (hsame ▸ hfind), hsame, if_pos hany, herase,
        List.cons.injEq, ih, and_iff_right rfl]

theorem length_writeEntries_map
    (h : ReadableEntries entries)
    (hf : ∀ key line, isLineOf key (f line) = isLineOf key line) :
    (writeEntries entries (lines.map f)).length =
      (writeEntries entries lines).length := by
  induction lines, h using ReadableEntries.lineByLine with
  | nil h => rfl
  | kept h line lines hnone ih =>
      rw [List.map_cons, writeEntries_cons_of_none hnone,
        writeEntries_cons_of_none fun e he => (hf _ _).trans (hnone e he),
        List.length_cons, List.length_cons, ih]
  | written h line lines entry hfind ih =>
      have hsame := isLineOf_comp hf line
      rw [List.map_cons, writeEntries_cons_of_some h hfind, writeEntries_cons_of_some h
        (hsame ▸ hfind), hsame, List.length_cons, List.length_cons, ih]

/-! ### The end of the lines -/

/-- A line of no key can be taken from the front. -/
theorem hasLines_of_cons_of_none
    (hnone : ∀ e ∈ entries, isLineOf e.1 line = false) :
    HasLines (entries.map (·.1)) (line :: lines) ↔
      HasLines (entries.map (·.1)) lines := by
  refine forall₂_congr fun key hkey => ?_
  obtain ⟨e, he, rfl⟩ := List.mem_map.mp hkey
  simp [hnone e he]

/-- A line of a key can be taken from the front together with the entry. -/
theorem hasLines_of_cons_of_some
    (h : ReadableEntries entries) :
    HasLines (entries.map (·.1)) (line :: lines) ↔
      HasLines ((entries.eraseP fun e => isLineOf e.1 line).map (·.1)) lines := by
  constructor
  · intro hlines key hkey
    obtain ⟨e, he, rfl⟩ := List.mem_map.mp hkey
    obtain ⟨l, hl, hof⟩ := hlines e.1 (List.mem_map_of_mem (List.mem_of_mem_eraseP he))
    rcases List.mem_cons.mp hl with rfl | hl
    · rw [isLineOf_of_mem_eraseP h he] at hof
      cases hof
    · exact ⟨l, hl, hof⟩
  · intro hlines key hkey
    obtain ⟨e, he, rfl⟩ := List.mem_map.mp hkey
    by_cases hof : isLineOf e.1 line = true
    · exact ⟨line, List.mem_cons_self, hof⟩
    · have hmem := (List.mem_eraseP_of_neg
        (p := fun e : Text × Text => isLineOf e.1 line) hof).mpr he
      obtain ⟨l, hl, hof'⟩ := hlines e.1 (List.mem_map_of_mem hmem)
      exact ⟨l, List.mem_cons_of_mem _ hl, hof'⟩

theorem eq_nil_of_hasLines
    (h : HasLines (entries.map (·.1)) []) :
    entries = [] := by
  cases entries with
  | nil => rfl
  | cons entry entries =>
      obtain ⟨line, hline, -⟩ := h entry.1 List.mem_cons_self
      cases hline

/-- Behind lines of all keys nothing is written. -/
theorem writeEntries_append_of_hasLines
    (h : ReadableEntries entries)
    (hlines : HasLines (entries.map (·.1)) lines) :
    writeEntries entries (lines ++ lines') = writeEntries entries lines ++ lines' := by
  induction lines, h using ReadableEntries.lineByLine with
  | nil h =>
      obtain rfl := eq_nil_of_hasLines hlines
      rfl
  | kept h line lines hnone ih =>
      rw [List.cons_append, writeEntries_cons_of_none hnone,
        writeEntries_cons_of_none hnone, ih ((hasLines_of_cons_of_none hnone).mp hlines),
        List.cons_append]
  | written h line lines entry hfind ih =>
      rw [List.cons_append, writeEntries_cons_of_some h hfind,
        writeEntries_cons_of_some h hfind, ih ((hasLines_of_cons_of_some h).mp hlines),
        List.cons_append]

/-- The last line is an entry, or the one that was the last before. -/
theorem getLast?_writeEntries
    (lines : List Text)
    (h : ReadableEntries entries) :
    (∃ e, (writeEntries entries lines).getLast? = some (envLine e)) ∨
      (writeEntries entries lines).getLast? = lines.getLast? := by
  induction lines, h using ReadableEntries.lineByLine with
  | @nil entries h =>
      rw [writeEntries_nil h]
      rcases List.eq_nil_or_concat' entries with rfl | ⟨init, last, rfl⟩
      · exact Or.inr rfl
      · exact Or.inl ⟨last, by simp⟩
  | kept h line lines hnone ih =>
      rw [writeEntries_cons_of_none hnone, List.getLast?_cons, List.getLast?_cons]
      rcases ih with ⟨e, he⟩ | hsame
      · exact Or.inl ⟨e, by rw [he, Option.getD_some]⟩
      · exact Or.inr (by rw [hsame])
  | written h line lines entry hfind ih =>
      rw [writeEntries_cons_of_some h hfind, List.getLast?_cons, List.getLast?_cons]
      rcases ih with ⟨e, he⟩ | hsame
      · exact Or.inl ⟨e, by rw [he, Option.getD_some]⟩
      · rw [hsame]
        cases lines.getLast? with
        | none => exact Or.inl ⟨entry, rfl⟩
        | some last => exact Or.inr rfl

/-- An entry whose key no line has is written last, or one of those behind it is. -/
theorem getLast?_writeEntries_of_missing
    (h : ReadableEntries entries)
    (hmissing : ¬ HasLines (entries.map (·.1)) lines) :
    ∃ e, (writeEntries entries lines).getLast? = some (envLine e) := by
  induction lines, h using ReadableEntries.lineByLine with
  | @nil entries h =>
      rw [writeEntries_nil h]
      rcases List.eq_nil_or_concat' entries with rfl | ⟨init, last, rfl⟩
      · exact absurd (fun key hkey => nomatch hkey) hmissing
      · exact ⟨last, by simp⟩
  | kept h line lines hnone ih =>
      obtain ⟨e, he⟩ := ih (mt (hasLines_of_cons_of_none hnone).mpr hmissing)
      exact ⟨e, by rw [writeEntries_cons_of_none hnone, List.getLast?_cons, he,
        Option.getD_some]⟩
  | written h line lines entry hfind ih =>
      obtain ⟨e, he⟩ := ih (mt (hasLines_of_cons_of_some h).mpr hmissing)
      exact ⟨e, by rw [writeEntries_cons_of_some h hfind, List.getLast?_cons, he,
        Option.getD_some]⟩

end LineByLine

/-! ## The file that is written -/

section Merging

variable {file : Option Text} {lines : List Text} {entries : List (Text × Text)}

/-- An entry on a line of its own. -/
structure OneLine (entries : List (Text × Text)) : Prop
    extends ReadableEntries entries where
  ne_nil : entries ≠ []
  no_feed : ∀ e ∈ entries, '\n' ∉ e.2

theorem OneLine.notMem_envLine
    (h : OneLine entries)
    {entry : Text × Text}
    (hmem : entry ∈ entries) :
    '\n' ∉ envLine entry := by
  simp [envLine, (h.readable entry hmem).no_feed, h.no_feed entry hmem]

theorem notMem_of_mem_writeEntries
    (h : ∀ e ∈ entries, '\n' ∉ envLine e)
    (hlines : ∀ line ∈ lines, '\n' ∉ line) :
    ∀ line ∈ writeEntries entries lines, '\n' ∉ line := by
  have hstep : ∀ (entry : Text × Text) (lines : List Text), '\n' ∉ envLine entry →
      (∀ line ∈ lines, '\n' ∉ line) → ∀ line ∈ writeEntry entry lines, '\n' ∉ line := by
    intro entry lines hentry hlines
    induction lines with
    | nil => simpa [writeEntry] using hentry
    | cons first lines ih =>
        obtain ⟨hfirst, hrest⟩ := List.forall_mem_cons.mp hlines
        rw [writeEntry]
        split
        · exact List.forall_mem_cons.mpr ⟨hentry, hrest⟩
        · exact List.forall_mem_cons.mpr ⟨hfirst, ih hrest⟩
  induction entries generalizing lines with
  | nil => exact hlines
  | cons entry entries ih =>
      obtain ⟨hentry, hrest⟩ := List.forall_mem_cons.mp h
      exact ih hrest (hstep entry lines hentry hlines)

theorem notMem_of_mem_fileLines :
    ∀ line ∈ fileLines file, '\n' ∉ line := by
  cases file with
  | none => exact fun line hline => nomatch hline
  | some text => exact fun line hline => notMem_of_mem_textLines hline

theorem isLineOf_nil
    {key : Text} :
    isLineOf key [] = false := by
  rw [← Bool.not_eq_true, isLineOf_iff]
  rintro ⟨value, h⟩
  simp [Text.trim, Text.trimStart] at h

/-- The lines without an empty last one, where all keys have one already. -/
def closedLines (keys lines : List Text) : List Text :=
  if HasLines keys lines ∧ lines.getLast? = some [] then lines.dropLast else lines

theorem length_closeLines_lt
    (h : lines.getLast? = some [] ∧ lines.dropLast ≠ []) :
    (closeLines lines).length < lines.length := by
  have hpos := List.length_pos_of_ne_nil h.2
  rw [closeLines, if_pos h]
  rw [List.length_dropLast] at hpos ⊢
  omega

theorem closeLines_eq_self_iff :
    closeLines lines = lines ↔ ¬ (lines.getLast? = some [] ∧ lines.dropLast ≠ []) :=
  ⟨fun heq h => absurd (congrArg List.length heq) (length_closeLines_lt h).ne,
    fun h => if_neg h⟩

theorem closeLines_subset : closeLines lines ⊆ lines := by
  unfold closeLines
  split
  · exact List.dropLast_subset lines
  · exact List.Subset.refl lines

theorem closeLines_eq_self_of_length
    (h : (closeLines lines).length = lines.length) :
    closeLines lines = lines :=
  closeLines_eq_self_iff.mpr fun hclosed => (length_closeLines_lt hclosed).ne h

/-- An empty line is of no key. -/
theorem HasLines.of_concat_nil
    {keys : List Text}
    (h : HasLines keys (lines ++ [[]])) :
    HasLines keys lines := by
  intro key hkey
  obtain ⟨line, hline, hof⟩ := h key hkey
  rcases List.mem_append.mp hline with hline | hline
  · exact ⟨line, hline, hof⟩
  · obtain rfl := List.mem_singleton.mp hline
    rw [isLineOf_nil] at hof
    cases hof

/-- The last line that is written is empty where nothing is written behind it. -/
theorem getLast?_writeEntries_eq_nil_iff
    (h : ReadableEntries entries) :
    (writeEntries entries lines).getLast? = some [] ↔
      HasLines (entries.map (·.1)) lines ∧ lines.getLast? = some [] := by
  constructor
  · intro hlast
    refine ⟨?_, ?_⟩
    · by_contra hmissing
      obtain ⟨e, he⟩ := getLast?_writeEntries_of_missing h hmissing
      exact envLine_ne_nil (Option.some.inj (he.symm.trans hlast))
    · rcases getLast?_writeEntries lines h with ⟨e, he⟩ | hsame
      · exact absurd (Option.some.inj (he.symm.trans hlast)) envLine_ne_nil
      · exact hsame.symm.trans hlast
  · rintro ⟨hlines, hlast⟩
    obtain ⟨init, rfl⟩ := List.getLast?_eq_some_iff.mp hlast
    rw [writeEntries_append_of_hasLines h hlines.of_concat_nil]
    simp

theorem writeEntries_ne_nil
    (hne : entries ≠ []) :
    writeEntries entries lines ≠ [] := by
  obtain ⟨init, last, rfl⟩ := (List.eq_nil_or_concat' entries).resolve_left hne
  rw [writeEntries_append]
  exact writeEntry_ne_nil

theorem closeLines_writeEntries_eq_self_iff
    (h : ReadableEntries entries)
    (hne : entries ≠ []) :
    closeLines (writeEntries entries lines) = writeEntries entries lines ↔
      (writeEntries entries lines).getLast? ≠ some [] := by
  refine closeLines_eq_self_iff.trans (not_congr (and_iff_left_of_imp fun hlast => ?_))
  obtain ⟨hlines, hlast⟩ := (getLast?_writeEntries_eq_nil_iff h).mp hlast
  obtain ⟨init, rfl⟩ := List.getLast?_eq_some_iff.mp hlast
  rw [writeEntries_append_of_hasLines h hlines.of_concat_nil, List.dropLast_concat]
  exact writeEntries_ne_nil hne

theorem closeLines_writeEntries
    (h : ReadableEntries entries)
    (hne : entries ≠ []) :
    closeLines (writeEntries entries lines) =
      writeEntries entries (closedLines (entries.map (·.1)) lines) := by
  unfold closedLines
  split
  · rename_i hclosed
    obtain ⟨hlines, hlast⟩ := hclosed
    obtain ⟨init, rfl⟩ := List.getLast?_eq_some_iff.mp hlast
    have hinit := hlines.of_concat_nil
    rw [writeEntries_append_of_hasLines h hinit, closeLines_concat,
      if_pos ⟨rfl, writeEntries_ne_nil hne⟩, List.dropLast_concat]
  · rename_i hopen
    refine closeLines_eq_self_iff.mpr fun hclosed => hopen ?_
    exact (getLast?_writeEntries_eq_nil_iff h).mp hclosed.1

theorem OneLine.notMem_of_mem
    (h : OneLine entries)
    (hlines : ∀ line ∈ lines, '\n' ∉ line) :
    ∀ line ∈ writeEntries entries lines, '\n' ∉ line :=
  notMem_of_mem_writeEntries (fun _ he => h.notMem_envLine he) hlines

theorem closedLines_subset
    {keys : List Text} :
    closedLines keys lines ⊆ lines := by
  unfold closedLines
  split
  · exact List.dropLast_subset lines
  · exact List.Subset.refl lines

theorem notMem_of_mem_closedLines
    {keys : List Text} :
    ∀ line ∈ closedLines keys (fileLines file), '\n' ∉ line :=
  fun line hline => notMem_of_mem_fileLines line (closedLines_subset hline)

/-- The text of a file after the entries are written. -/
theorem mergeEnv_eq
    (h : OneLine entries) :
    mergeEnv file entries = terminate
      (writeEntries entries (closedLines (entries.map (·.1)) (fileLines file))) := by
  rw [mergeEnv, renderLines_eq_terminate (writeEntries_ne_nil h.ne_nil)
    (h.notMem_of_mem notMem_of_mem_fileLines),
    closeLines_writeEntries h.toReadableEntries h.ne_nil]

theorem textLines_mergeEnv
    (h : OneLine entries) :
    textLines (mergeEnv file entries) =
      (writeEntries entries (closedLines (entries.map (·.1)) (fileLines file))).map
        stripReturn := by
  rw [mergeEnv_eq h]
  exact textLines_terminate (h.notMem_of_mem notMem_of_mem_closedLines)

theorem filterMap_stripReturn :
    (lines.map stripReturn).filterMap envEntry = lines.filterMap envEntry := by
  rw [List.filterMap_map]
  exact congrArg (fun g => lines.filterMap g) (funext envEntry_stripReturn)

/-- What is read back of a file that is written. -/
theorem envEntries_mergeEnv
    (h : OneLine entries) :
    envEntries (mergeEnv file entries) =
      (writeEntries entries (fileLines file)).filterMap envEntry := by
  rw [envEntries, textLines_mergeEnv h, filterMap_stripReturn,
    ← closeLines_writeEntries h.toReadableEntries h.ne_nil]
  rcases List.eq_nil_or_concat' (writeEntries entries (fileLines file)) with
    hnil | ⟨init, last, hconcat⟩
  · exact absurd hnil (writeEntries_ne_nil h.ne_nil)
  · rw [hconcat, closeLines_concat]
    split
    · rename_i hclosed
      rw [hclosed.1, List.filterMap_append]
      simp
    · rfl

theorem keptLines_concat_nil
    {keys : List Text} :
    keptLines keys (lines ++ [[]]) = keptLines keys lines ++ [[]] := by
  induction lines generalizing keys with
  | nil => simp [keptLines, isLineOf_nil]
  | cons line lines ih =>
      rw [List.cons_append, keptLines, keptLines]
      split
      · exact ih
      · rw [ih, List.cons_append]

theorem stripReturn_eq_self_iff
    {line : Text} :
    stripReturn line = line ↔ line.getLast? ≠ some '\r' := by
  unfold stripReturn
  split
  · rename_i h
    refine iff_of_false (fun heq => ?_) (not_not_intro h)
    have hlength := congrArg List.length heq
    have hpos : 0 < line.length := by
      cases line with
      | nil => cases h
      | cons c line => exact Nat.succ_pos _
    rw [List.length_dropLast] at hlength
    omega
  · rename_i h
    exact iff_of_true rfl h

/-- Closing the lines takes no line that could matter. -/
theorem keptLines_closedLines
    {keys : List Text} :
    (∀ line ∈ keptLines keys (closedLines keys lines), line.getLast? ≠ some '\r') ↔
      ∀ line ∈ keptLines keys lines, line.getLast? ≠ some '\r' := by
  unfold closedLines
  split
  · rename_i hclosed
    obtain ⟨init, rfl⟩ := List.getLast?_eq_some_iff.mp hclosed.2
    rw [List.dropLast_concat, keptLines_concat_nil, List.forall_mem_append]
    simp
  · exact Iff.rfl

/-- After closing the lines end in an empty one where there were two. -/
theorem getLast?_closedLines
    {keys : List Text} :
    (HasLines keys (closedLines keys lines) ∧
        (closedLines keys lines).getLast? = some []) ↔
      HasLines keys lines ∧ [[], []] <:+ lines := by
  unfold closedLines
  split
  · rename_i hclosed
    obtain ⟨hlines, hlast⟩ := hclosed
    obtain ⟨init, rfl⟩ := List.getLast?_eq_some_iff.mp hlast
    rw [List.dropLast_concat, and_iff_right hlines, and_iff_right hlines.of_concat_nil,
      List.getLast?_eq_some_iff]
    constructor
    · rintro ⟨init, rfl⟩
      exact ⟨init, by simp⟩
    · rintro ⟨init', heq⟩
      refine ⟨init', ?_⟩
      have hconcat : (init' ++ [[]]) ++ [[]] = init ++ [[]] := by
        rw [← heq, List.append_assoc]
        rfl
      exact (List.append_inj_left' hconcat rfl).symm
  · rename_i hopen
    refine iff_of_false hopen fun htwo => hopen ⟨htwo.1, ?_⟩
    obtain ⟨init, rfl⟩ := htwo.2
    simp

theorem notMem_map_stripReturn
    (h : ∀ line ∈ lines, '\n' ∉ line) :
    ∀ line ∈ lines.map stripReturn, '\n' ∉ line := by
  intro line hline
  obtain ⟨l, hl, rfl⟩ := List.mem_map.mp hline
  exact fun hmem => h l hl ((stripReturn_isPrefix l).subset hmem)

/-- The text of a file after the entries are written twice. -/
theorem mergeEnv_mergeEnv
    (h : OneLine entries) :
    mergeEnv (some (mergeEnv file entries)) entries =
      terminate (closeLines (writeEntries entries
        ((closedLines (entries.map (·.1)) (fileLines file)).map stripReturn))) := by
  rw [mergeEnv, fileLines, Option.map_some, Option.getD_some, textLines_mergeEnv h,
    writeEntries_map_writeEntries h.toReadableEntries isLineOf_stripReturn]
  exact renderLines_eq_terminate (writeEntries_ne_nil h.ne_nil)
    (h.notMem_of_mem (notMem_map_stripReturn notMem_of_mem_closedLines))

/-- Closed lines are the same as the ones they were read from exactly when no line is
closed away and none that is kept loses a return. -/
theorem closeLines_stripReturn_eq_iff
    (h : ReadableEntries entries) :
    closeLines (writeEntries entries (lines.map stripReturn)) =
        writeEntries entries lines ↔
      writeEntries entries (lines.map stripReturn) = writeEntries entries lines ∧
        closeLines (writeEntries entries lines) = writeEntries entries lines := by
  constructor
  · intro hclosed
    have hself : closeLines (writeEntries entries (lines.map stripReturn)) =
        writeEntries entries (lines.map stripReturn) := by
      refine closeLines_eq_self_of_length ?_
      rw [hclosed, length_writeEntries_map h isLineOf_stripReturn]
    rw [hself] at hclosed
    exact ⟨hclosed, hclosed ▸ hself⟩
  · rintro ⟨hsame, hself⟩
    rw [hsame, hself]

/-- Entries that are written again change nothing exactly when no line that is kept
ends in a carriage return, and the lines do not end in two empty ones with nothing
written behind them. -/
theorem mergeEnv_eq_self_iff
    (file : Option Text)
    (h : OneLine entries) :
    mergeEnv (some (mergeEnv file entries)) entries = mergeEnv file entries ↔
      (∀ line ∈ keptLines (entries.map (·.1)) (fileLines file),
        line.getLast? ≠ some '\r') ∧
      ¬ (HasLines (entries.map (·.1)) (fileLines file) ∧
        [[], []] <:+ fileLines file) := by
  have hreadable := h.toReadableEntries
  set lines := closedLines (entries.map (·.1)) (fileLines file) with hlines
  have hfeed : ∀ line ∈ lines, '\n' ∉ line := notMem_of_mem_closedLines
  have hkept : writeEntries entries (lines.map stripReturn) = writeEntries entries lines ↔
      ∀ line ∈ keptLines (entries.map (·.1)) lines, line.getLast? ≠ some '\r' :=
    (writeEntries_map_eq_iff hreadable isLineOf_stripReturn).trans
      (forall₂_congr fun _ _ => stripReturn_eq_self_iff)
  have hended : closeLines (writeEntries entries lines) = writeEntries entries lines ↔
      ¬ (HasLines (entries.map (·.1)) (fileLines file) ∧
        [[], []] <:+ fileLines file) := by
    rw [closeLines_writeEntries_eq_self_iff hreadable h.ne_nil, Ne,
      getLast?_writeEntries_eq_nil_iff hreadable, hlines, getLast?_closedLines]
  rw [mergeEnv_mergeEnv h, mergeEnv_eq h, ← hlines, ← hended, ← keptLines_closedLines,
    ← hlines, ← hkept, ← closeLines_stripReturn_eq_iff hreadable]
  constructor
  · intro hsame
    refine terminate_inj (fun line hline => ?_) (h.notMem_of_mem hfeed) hsame
    exact h.notMem_of_mem (notMem_map_stripReturn hfeed) line (closeLines_subset hline)
  · intro hclosed
    rw [hclosed]

end Merging

end CockatielEngine
