import Mathlib.Data.List.TakeWhile
import CockatielEngine.Commands.CommandParsing
import CockatielEngine.Maps.Bindings
import CockatielEngine.Text.Tokens

/-!
# Commands: every token of a command is read once

`parse_command` with everything that it returns: the command, its flags and the
positional arguments behind it.  The grammar of the tokens (`Reads`) says what each
of them is read as.

**Main result.**  The flag is the longest registered one that the message starts
with, in whatever order the registry is iterated; there is no command exactly when
there is no such flag or nothing behind it; and the tokens behind the flag are the
name and what the flags and arguments were read from, each token once.
-/

namespace CockatielEngine

/-- No command and no module is bound twice. -/
structure KeyedRegistry extends CommandRegistry where
  indexKeys : (index.map Prod.fst).Nodup
  moduleKeys : (modules.map Prod.fst).Nodup

/-- The same bindings, found in another order. -/
structure CommandRegistry.SameMaps (r r' : CommandRegistry) : Prop where
  index : r'.index.Perm r.index
  modules : r'.modules.Perm r.modules

structure ParsedCommand where
  command : Command
  args : String
deriving DecidableEq, Repr

/-- The loop over the tokens after the name: the flags, and the tokens that are
neither a flag nor the value of one. -/
def parseTokens (definitions : List CommandFlag) :
    List Text → List CommandFlag × List Text
  | [] => ([], [])
  | token :: rest =>
      if isFlagToken token then
        match Text.splitColon token.tail with
        | some (name, value) =>
            let parsed := parseTokens definitions rest
            (parsedFlag definitions name value :: parsed.1, parsed.2)
        | none =>
            match rest with
            | [] => ([parsedFlag definitions token.tail "true".toList], [])
            | next :: rest' =>
                if next.head? = some '-' then
                  let parsed := parseTokens definitions (next :: rest')
                  (parsedFlag definitions token.tail "true".toList :: parsed.1,
                    parsed.2)
                else
                  let parsed := parseTokens definitions rest'
                  (parsedFlag definitions token.tail next :: parsed.1, parsed.2)
      else
        let parsed := parseTokens definitions rest
        (parsed.1, token :: parsed.2)

/-- What is read behind the flag: the name, then the tokens. -/
def parseBehind (registry : CommandRegistry) (flag : String) (afterFlag : Text) :
    ParsedCommand :=
  let name : String := .ofList (afterFlag.takeWhile (!Text.isWhitespace ·))
  let rest := Text.trim (afterFlag.dropWhile (!Text.isWhitespace ·))
  let parsed :=
    parseTokens (registry.commandFlags flag name) (Text.splitWhitespace rest)
  { command :=
      { commandFlag := flag
        commandName := name
        commandDescription := (registry.commandDescription flag name).getD ""
        commandFlags := parsed.1 }
    args := .ofList ([' '].intercalate parsed.2) }

/-- The command of a raw message that starts with a registered flag, with the
arguments behind it. -/
def parseCommandWithArgs (raw : Text) (registry : CommandRegistry) :
    Option ParsedCommand :=
  let raw := raw.trim
  if raw.isEmpty then none
  else
    match matchedFlag raw registry with
    | none => none
    | some flag =>
        let afterFlag := Text.trimStart (raw.drop flag.length)
        if afterFlag.isEmpty then none
        else some (parseBehind registry flag afterFlag)

/-- What a token is read as.  A flag with a value of its own takes two tokens. -/
inductive TokenKind where
  | positional
  | inline
  | separate
  | bare
deriving DecidableEq, Repr

/-- The tokens that flags and arguments were read from.  Nothing may be left
over. -/
def rebuild :
    List TokenKind → List CommandFlag → List Text → Option (List Text)
  | [], [], [] => some []
  | .positional :: kinds, flags, arg :: args =>
      (rebuild kinds flags args).map (arg :: ·)
  | .inline :: kinds, flag :: flags, args =>
      (rebuild kinds flags args).map
        (('-' :: flag.flagName.toList ++ ':' :: flag.value.toList) :: ·)
  | .separate :: kinds, flag :: flags, args =>
      (rebuild kinds flags args).map fun tokens =>
        ('-' :: flag.flagName.toList) :: flag.value.toList :: tokens
  | .bare :: kinds, flag :: flags, args =>
      (rebuild kinds flags args).map (('-' :: flag.flagName.toList) :: ·)
  | _, _, _ => none

/-- What the tokens are read as: a flag with a value after its first colon, a flag
with the next token for its value, a flag that stands for `true`, or an
argument. -/
inductive Reads : List TokenKind → List Text → List CommandFlag → List Text → Prop
  | nil : Reads [] [] [] []
  | positional
      {kinds tokens flags args token}
      (hflag : isFlagToken token = false)
      (rest : Reads kinds tokens flags args) :
      Reads (.positional :: kinds) (token :: tokens) flags (token :: args)
  | inline
      {kinds tokens flags args flag}
      (hname : ':' ∉ flag.flagName.toList)
      (rest : Reads kinds tokens flags args) :
      Reads (.inline :: kinds)
        (('-' :: flag.flagName.toList ++ ':' :: flag.value.toList) :: tokens)
        (flag :: flags) args
  | separate
      {kinds tokens flags args flag}
      (hne : flag.flagName ≠ "")
      (hname : ':' ∉ flag.flagName.toList)
      (hvalue : flag.value.toList.head? ≠ some '-')
      (rest : Reads kinds tokens flags args) :
      Reads (.separate :: kinds)
        (('-' :: flag.flagName.toList) :: flag.value.toList :: tokens)
        (flag :: flags) args
  | bare
      {kinds tokens flags args flag}
      (hne : flag.flagName ≠ "")
      (hname : ':' ∉ flag.flagName.toList)
      (hvalue : flag.value = "true")
      (hnext : ∀ next ∈ tokens.head?, next.head? = some '-')
      (rest : Reads kinds tokens flags args) :
      Reads (.bare :: kinds) (('-' :: flag.flagName.toList) :: tokens)
        (flag :: flags) args

/-- A registered flag that the message starts with, and none is longer. -/
structure LongestFlag (registry : CommandRegistry) (raw : Text) (flag : String) :
    Prop where
  registered : flag ∈ registry.index.map (·.1.1)
  starts : flag.toList <+: raw
  longest : ∀ other ∈ registry.index.map (·.1.1), other.toList <+: raw →
    other.length ≤ flag.length

/-- The message was read from its longest flag on: the first token is the name, and
the flags and arguments are read from the others. -/
structure ReadFrom (registry : CommandRegistry) (raw : Text) (p : ParsedCommand) :
    Prop where
  flag : LongestFlag registry raw p.command.commandFlag
  tokens : ∃ kinds rest,
    Text.splitWhitespace (raw.drop p.command.commandFlag.length) =
        p.command.commandName.toList :: rest ∧
      Reads kinds rest p.command.commandFlags
        (Text.splitWhitespace p.args.toList) ∧
      rebuild kinds p.command.commandFlags (Text.splitWhitespace p.args.toList) =
        some rest

section Tokens

variable {definitions : List CommandFlag} {kinds : List TokenKind}
variable {flags : List CommandFlag} {args : List Text} {name value token : Text}

@[simp] theorem flagName_parsedFlag :
    (parsedFlag definitions name value).flagName = .ofList name := by
  unfold parsedFlag
  split <;> rfl

@[simp] theorem value_parsedFlag :
    (parsedFlag definitions name value).value = .ofList value := by
  unfold parsedFlag
  split <;> rfl

theorem eq_cons_of_isFlagToken
    (h : isFlagToken token = true) :
    token = '-' :: token.tail ∧ token.tail ≠ [] := by
  unfold isFlagToken at h
  split at h
  · exact ⟨rfl, by simp⟩
  · cases h

theorem notMem_of_splitColon
    (h : Text.splitColon token = none) :
    ':' ∉ token := by
  unfold Text.splitColon at h
  split at h
  · cases h
  · rename_i hcolon
    simpa using hcolon

/-- The first colon separates the name from the value. -/
theorem splitColon_eq_some
    (h : Text.splitColon token = some (name, value)) :
    token = name ++ ':' :: value ∧ ':' ∉ name := by
  unfold Text.splitColon at h
  split at h
  · rename_i hcolon
    simp only [Option.some.injEq, Prod.mk.injEq] at h
    obtain ⟨rfl, rfl⟩ := h
    have hsplit := List.takeWhile_append_dropWhile (p := (· ≠ ':')) (l := token)
    have hne : token.dropWhile (· ≠ ':') ≠ [] := by
      intro hnil
      rw [List.dropWhile_eq_nil_iff] at hnil
      exact absurd (hnil ':' (by simpa using hcolon)) (by simp)
    have hhead : (token.dropWhile (· ≠ ':')).head hne = ':' := by
      simpa using List.head_dropWhile_not (· ≠ ':') hne
    have hrest : ':' :: (token.dropWhile (· ≠ ':')).tail =
        token.dropWhile (· ≠ ':') := by
      have hcons := List.cons_head_tail hne
      rwa [hhead] at hcons
    refine ⟨?_, fun hmem => ?_⟩
    · rw [hrest, hsplit]
    · simpa using List.all_eq_true.mp List.all_takeWhile ':' hmem
  · cases h

/-- The flags are those of the loop that keeps flags alone. -/
theorem parseTokens_fst (ts : List Text) :
    (parseTokens definitions ts).1 = parseFlags definitions ts := by
  fun_induction parseTokens definitions ts with
  | case1 => rfl
  | case2 token rest hflag name value hsplit parsed ih =>
      cases rest with
      | nil => simp [parseFlags, hflag, hsplit, parsed, parseTokens]
      | cons next rest =>
          rw [parseFlags, if_pos hflag]
          simp [hsplit, parsed, ih]
  | case3 token hflag hsplit => simp [parseFlags, hflag, hsplit]
  | case4 token hflag hsplit next rest hdash parsed ih =>
      rw [parseFlags, if_pos hflag]
      simp [hsplit, hdash, parsed, ih]
  | case5 token hflag hsplit next rest hdash parsed ih =>
      rw [parseFlags, if_pos hflag]
      simp [hsplit, hdash, parsed, ih]
  | case6 token rest hflag parsed ih =>
      cases rest with
      | nil => simp [parseFlags, hflag, parsed, parseTokens]
      | cons next rest =>
          rw [parseFlags, if_neg hflag]
          simp [parsed, ih]

/-- What the loop makes of the tokens is a reading of them. -/
theorem reads_parseTokens (definitions : List CommandFlag) (ts : List Text) :
    ∃ kinds, Reads kinds ts (parseTokens definitions ts).1
      (parseTokens definitions ts).2 := by
  fun_induction parseTokens definitions ts with
  | case1 => exact ⟨[], .nil⟩
  | case2 token rest hflag name value hsplit parsed ih =>
      obtain ⟨kinds, hrest⟩ := ih
      obtain ⟨htail, hname⟩ := splitColon_eq_some hsplit
      have hread : Reads _ _ (parsedFlag definitions name value :: _) _ :=
        hrest.inline (by simpa using hname)
      rw [(eq_cons_of_isFlagToken hflag).1, htail]
      exact ⟨_, by simpa using hread⟩
  | case3 token hflag hsplit =>
      obtain ⟨htoken, hne⟩ := eq_cons_of_isFlagToken hflag
      have hread : Reads _ _ [parsedFlag definitions token.tail "true".toList] [] :=
        Reads.nil.bare (by simpa using hne) (by simpa using notMem_of_splitColon hsplit)
          (by simp) (by simp)
      rw [htoken]
      exact ⟨_, by simpa using hread⟩
  | case4 token hflag hsplit next rest hdash parsed ih =>
      obtain ⟨kinds, hrest⟩ := ih
      obtain ⟨htoken, hne⟩ := eq_cons_of_isFlagToken hflag
      have hread : Reads _ _ (parsedFlag definitions token.tail "true".toList :: _) _ :=
        hrest.bare (by simpa using hne) (by simpa using notMem_of_splitColon hsplit)
          (by simp) (by simpa using hdash)
      rw [htoken]
      exact ⟨_, by simpa using hread⟩
  | case5 token hflag hsplit next rest hdash parsed ih =>
      obtain ⟨kinds, hrest⟩ := ih
      obtain ⟨htoken, hne⟩ := eq_cons_of_isFlagToken hflag
      have hread : Reads _ _ (parsedFlag definitions token.tail next :: _) _ :=
        hrest.separate (by simpa using hne) (by simpa using notMem_of_splitColon hsplit)
          (by simpa using hdash)
      rw [htoken]
      exact ⟨_, by simpa using hread⟩
  | case6 token rest hflag parsed ih =>
      obtain ⟨kinds, hrest⟩ := ih
      exact ⟨_, hrest.positional (by simpa using hflag)⟩

variable {ts : List Text}

/-- The tokens are rebuilt from their reading. -/
theorem Reads.rebuild_eq
    (h : Reads kinds ts flags args) :
    rebuild kinds flags args = some ts := by
  induction h with
  | nil => rfl
  | positional _ _ ih => simp [rebuild, ih]
  | inline _ _ ih => simp [rebuild, ih]
  | separate _ _ _ _ ih => simp [rebuild, ih]
  | bare _ _ _ _ _ ih => simp [rebuild, ih]

/-- The arguments are tokens. -/
theorem Reads.args_subset
    (h : Reads kinds ts flags args) :
    args ⊆ ts := by
  induction h with
  | nil => exact List.Subset.refl _
  | positional _ _ ih => exact List.cons_subset_cons _ ih
  | inline _ _ ih => exact List.subset_cons_of_subset _ ih
  | separate _ _ _ _ ih =>
      exact List.subset_cons_of_subset _ (List.subset_cons_of_subset _ ih)
  | bare _ _ _ _ _ ih => exact List.subset_cons_of_subset _ ih

end Tokens

section Flags

variable {registry r' : CommandRegistry} {raw : Text} {f g : String}

/-- The longest flag stays the longest when a command with no longer one is added. -/
theorem LongestFlag.concat
    {index : List ((String × String) × String)}
    {modules : List (String × ModuleCommandReg)}
    {b : (String × String) × String}
    (h : LongestFlag ⟨index, modules⟩ raw f)
    (hb : b.1.1.toList <+: raw → b.1.1.length ≤ f.length) :
    LongestFlag ⟨index ++ [b], modules⟩ raw f where
  registered := by simpa using Or.inl h.registered
  starts := h.starts
  longest := by
    intro other hother hpre
    rw [List.map_append, List.mem_append, List.map_singleton,
      List.mem_singleton] at hother
    rcases hother with hother | rfl
    · exact h.longest other hother hpre
    · exact hb hpre

/-- A flag that is added is the longest when none before it is longer. -/
theorem LongestFlag.last
    {index : List ((String × String) × String)}
    {modules : List (String × ModuleCommandReg)}
    {b : (String × String) × String}
    (hstarts : b.1.1.toList <+: raw)
    (hlongest : ∀ other ∈ index.map (·.1.1), other.toList <+: raw →
      other.length ≤ b.1.1.length) :
    LongestFlag ⟨index ++ [b], modules⟩ raw b.1.1 where
  registered := by simp
  starts := hstarts
  longest := by
    intro other hother hpre
    rw [List.map_append, List.mem_append, List.map_singleton,
      List.mem_singleton] at hother
    rcases hother with hother | rfl
    · exact hlongest other hother hpre
    · exact le_rfl

/-- The choice of the flag: the longest so far, if there is one. -/
theorem matchedFlag_spec :
    (∀ f, matchedFlag raw registry = some f → LongestFlag registry raw f) ∧
      (matchedFlag raw registry = none →
        ∀ f ∈ registry.index.map (·.1.1), ¬ f.toList <+: raw) := by
  obtain ⟨index, modules⟩ := registry
  induction index using List.reverseRecOn with
  | nil => exact ⟨by simp [matchedFlag], by simp⟩
  | append_singleton index b ih =>
      obtain ⟨hsome, hnone⟩ := ih
      rw [matchedFlag_concat]
      by_cases hb : b.1.1.toList.isPrefixOf raw = true
      · have hstarts := List.isPrefixOf_iff_prefix.mp hb
        rw [if_pos hb]
        cases hmatched : matchedFlag raw ⟨index, modules⟩ with
        | none =>
            refine ⟨fun f hf => ?_, by simp⟩
            obtain rfl := Option.some.inj hf
            exact .last hstarts fun other hother hpre =>
              absurd hpre (hnone hmatched other hother)
        | some cur =>
            have hcur := hsome cur hmatched
            refine ⟨fun f hf => ?_, by simp only; split <;> simp⟩
            simp only at hf
            split at hf
            · rename_i hlt
              obtain rfl := Option.some.inj hf
              exact .last hstarts fun other hother hpre =>
                (hcur.longest other hother hpre).trans hlt.le
            · rename_i hge
              obtain rfl := Option.some.inj hf
              exact hcur.concat fun _ => not_lt.mp hge
      · have hnot (hpre : b.1.1.toList <+: raw) : False :=
          hb (List.isPrefixOf_iff_prefix.mpr hpre)
        rw [if_neg hb]
        refine ⟨fun f hf => (hsome f hf).concat fun hpre => (hnot hpre).elim, ?_⟩
        intro hmatched f hf
        rw [List.map_append, List.mem_append, List.map_singleton,
          List.mem_singleton] at hf
        rcases hf with hf | rfl
        · exact hnone hmatched f hf
        · exact hnot

theorem LongestFlag.unique
    (hf : LongestFlag registry raw f)
    (hg : LongestFlag registry raw g) :
    f = g := by
  have hlength : f.length = g.length :=
    le_antisymm (hg.longest f hf.registered hf.starts)
      (hf.longest g hg.registered hg.starts)
  have hstarts := List.prefix_of_prefix_length_le hf.starts hg.starts
    (by simpa only [String.length_toList] using hlength.le)
  exact String.toList_injective
    (hstarts.eq_of_length (by simpa only [String.length_toList] using hlength))

theorem matchedFlag_eq_some_iff :
    matchedFlag raw registry = some f ↔ LongestFlag registry raw f := by
  refine ⟨matchedFlag_spec.1 f, fun h => ?_⟩
  cases hmatched : matchedFlag raw registry with
  | none => exact absurd h.starts (matchedFlag_spec.2 hmatched f h.registered)
  | some g => rw [(matchedFlag_spec.1 g hmatched).unique h]

theorem matchedFlag_eq_none_iff :
    matchedFlag raw registry = none ↔
      ∀ f ∈ registry.index.map (·.1.1), ¬ f.toList <+: raw := by
  refine ⟨matchedFlag_spec.2, fun h => ?_⟩
  rw [Option.eq_none_iff_forall_ne_some]
  intro f hf
  have hlongest := matchedFlag_spec.1 f hf
  exact h f hlongest.registered hlongest.starts

/-- The choice of the flag does not depend on the order of the bindings. -/
theorem matchedFlag_perm
    (h : registry.SameMaps r') :
    matchedFlag raw r' = matchedFlag raw registry := by
  have hflags := h.index.map (fun b : (String × String) × String => b.1.1)
  ext f
  rw [matchedFlag_eq_some_iff, matchedFlag_eq_some_iff]
  constructor
  · rintro ⟨hreg, hstarts, hlongest⟩
    exact ⟨hflags.mem_iff.mp hreg, hstarts, fun other hother =>
      hlongest other (hflags.mem_iff.mpr hother)⟩
  · rintro ⟨hreg, hstarts, hlongest⟩
    exact ⟨hflags.mem_iff.mpr hreg, hstarts, fun other hother =>
      hlongest other (hflags.mem_iff.mp hother)⟩

theorem registeredCommand_perm
    {r : KeyedRegistry} {flag name : String}
    (h : r.SameMaps r') :
    r'.registeredCommand flag name = r.registeredCommand flag name := by
  have howner : r'.owner flag name = r.owner flag name :=
    Bindings.lookup_perm r.indexKeys h.index
  have hregistration (m : String) : r'.registration m = r.registration m :=
    Bindings.lookup_perm r.moduleKeys h.modules
  simp only [CommandRegistry.registeredCommand, howner, hregistration]

end Flags

section Parse

variable {registry r' : CommandRegistry} {raw : Text} {p : ParsedCommand}

/-- Nothing is read without a flag, or when there is nothing behind it. -/
theorem parseCommandWithArgs_eq :
    parseCommandWithArgs raw registry =
      (matchedFlag raw.trim registry).bind fun flag =>
        if Text.trimStart (raw.trim.drop flag.length) = [] then none
        else
          some (parseBehind registry flag
            (Text.trimStart (raw.trim.drop flag.length))) := by
  unfold parseCommandWithArgs
  by_cases hempty : raw.trim = []
  · simp [hempty, Text.trimStart]
  · simp only [hempty, List.isEmpty_iff, if_false]
    cases matchedFlag raw.trim registry <;> rfl

/-- Its command is the one that `parseCommand` reads. -/
theorem command_parseCommandWithArgs :
    (parseCommandWithArgs raw registry).map (·.command) =
      parseCommand raw registry := by
  rw [parseCommandWithArgs_eq]
  unfold parseCommand
  by_cases hempty : raw.trim = []
  · cases hmatched : matchedFlag [] registry <;>
      simp [hempty, hmatched, Text.trimStart]
  · cases hmatched : matchedFlag raw.trim registry with
    | none => simp [hmatched]
    | some flag =>
        by_cases hrest : Text.trimStart (raw.trim.drop flag.length) = []
        · simp [hmatched, hrest]
        · simp [hmatched, hempty, hrest, parseBehind, parseTokens_fst]

/-- Everything `parse_command` can return. -/
theorem parseCommandWithArgs_eq_some_iff :
    parseCommandWithArgs raw registry = some p ↔
      ∃ flag, LongestFlag registry raw.trim flag ∧
        Text.trimStart (raw.trim.drop flag.length) ≠ [] ∧
        p = parseBehind registry flag (Text.trimStart (raw.trim.drop flag.length)) := by
  simp only [parseCommandWithArgs_eq, Option.bind_eq_some_iff, matchedFlag_eq_some_iff]
  refine exists_congr fun flag => and_congr_right fun _ => ?_
  split
  · rename_i hrest
    simp [hrest]
  · rename_i hrest
    simp only [Option.some.injEq, ne_eq, hrest, not_false_eq_true, true_and]
    exact eq_comm

theorem parseCommandWithArgs_eq_none_iff :
    parseCommandWithArgs raw registry = none ↔
      (∀ f ∈ registry.index.map (·.1.1), ¬ f.toList <+: raw.trim) ∨
        ∃ f, LongestFlag registry raw.trim f ∧
          ∀ c ∈ raw.trim.drop f.length, Text.isWhitespace c = true := by
  simp only [← matchedFlag_eq_none_iff, ← matchedFlag_eq_some_iff,
    ← List.dropWhile_eq_nil_iff, parseCommandWithArgs_eq]
  cases matchedFlag raw.trim registry with
  | none => simp
  | some flag =>
      simp only [Option.bind_some, Option.some.injEq, exists_eq_left', reduceCtorEq,
        false_or]
      change _ ↔ Text.trimStart (raw.trim.drop flag.length) = []
      split <;> simp_all

theorem splitWhitespace_trim (t : Text) :
    Text.splitWhitespace (Text.trim t) = Text.splitWhitespace t := by
  have hends := tokens_dropWhile_reverse (p := Text.isWhitespace)
    (l := Text.trimStart t)
  exact hends.trans tokens_dropWhile

/-- What is read behind a flag is read from all tokens behind it. -/
theorem tokens_parseBehind
    {flag : String} {t : Text}
    (hne : Text.trimStart t ≠ []) :
    ∃ kinds rest,
      Text.splitWhitespace t =
          (parseBehind registry flag (Text.trimStart t)).command.commandName.toList ::
            rest ∧
        Reads kinds rest
          (parseBehind registry flag (Text.trimStart t)).command.commandFlags
          (Text.splitWhitespace
            (parseBehind registry flag (Text.trimStart t)).args.toList) := by
  have hfirst : (Text.trimStart t).takeWhile (!Text.isWhitespace ·) ≠ [] := by
    have hhead : Text.isWhitespace ((Text.trimStart t).head hne) = false :=
      List.head_dropWhile_not Text.isWhitespace hne
    obtain ⟨c, rest, hc⟩ := List.exists_cons_of_ne_nil hne
    have hblank : Text.isWhitespace c = false := by
      simpa [hc] using hhead
    simp [hc, hblank]
  obtain ⟨kinds, hreads⟩ := reads_parseTokens
    (registry.commandFlags flag
      (.ofList ((Text.trimStart t).takeWhile (!Text.isWhitespace ·))))
    (Text.splitWhitespace
      (Text.trim ((Text.trimStart t).dropWhile (!Text.isWhitespace ·))))
  have hargs : ∀ arg ∈ (parseTokens (registry.commandFlags flag
      (.ofList ((Text.trimStart t).takeWhile (!Text.isWhitespace ·))))
      (Text.splitWhitespace
        (Text.trim ((Text.trimStart t).dropWhile (!Text.isWhitespace ·))))).2,
      arg ≠ [] ∧ ∀ c ∈ arg, Text.isWhitespace c = false := by
    intro arg harg
    have hmem := hreads.args_subset harg
    exact ⟨ne_nil_of_mem_tokens hmem, fun c => false_of_mem_tokens hmem⟩
  refine ⟨kinds, Text.splitWhitespace
    (Text.trim ((Text.trimStart t).dropWhile (!Text.isWhitespace ·))), ?_, ?_⟩
  · have hsplit := tokens_eq_cons hfirst
    rw [Text.trimStart, tokens_dropWhile] at hsplit
    rw [splitWhitespace_trim, parseBehind, String.toList_ofList]
    exact hsplit
  · rw [parseBehind, String.toList_ofList]
    have hjoined := tokens_intercalate (p := Text.isWhitespace) (x := ' ') (by decide)
      hargs
    rw [← hjoined] at hreads
    exact hreads

/-- **Main theorem.**  What `parse_command` reads, and when it reads nothing. -/
theorem parseCommandWithArgs_spec
    (r : KeyedRegistry) (raw : Text) :
    (∀ r', r.SameMaps r' →
      parseCommandWithArgs raw r' = parseCommandWithArgs raw r.toCommandRegistry) ∧
    (parseCommandWithArgs raw r.toCommandRegistry = none ↔
      (∀ f ∈ r.index.map (·.1.1), ¬ f.toList <+: raw.trim) ∨
        ∃ f, LongestFlag r.toCommandRegistry raw.trim f ∧
          ∀ c ∈ raw.trim.drop f.length, Text.isWhitespace c = true) ∧
    ∀ p, parseCommandWithArgs raw r.toCommandRegistry = some p →
      ReadFrom r.toCommandRegistry raw.trim p := by
  refine ⟨fun r' h => ?_, parseCommandWithArgs_eq_none_iff, fun p hp => ?_⟩
  · simp only [parseCommandWithArgs, parseBehind, matchedFlag_perm h,
      CommandRegistry.commandFlags, CommandRegistry.commandDescription,
      registeredCommand_perm h]
  · obtain ⟨flag, hflag, hne, rfl⟩ := parseCommandWithArgs_eq_some_iff.mp hp
    obtain ⟨kinds, rest, htokens, hreads⟩ := tokens_parseBehind hne
    exact ⟨hflag, kinds, rest, htokens, hreads, hreads.rebuild_eq⟩

end Parse

end CockatielEngine
