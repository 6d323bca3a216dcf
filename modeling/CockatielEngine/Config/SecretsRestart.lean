import CockatielEngine.Config.Secrets

/-!
# Config: secrets over a restart

What a start writes is what the next one reads where the line that counts for a key
is the one that was written.
-/

namespace CockatielEngine

section Values

variable {key : Text} {value : Text} {entry : Text × Text} {lines : List Text}
variable {entries : List (Text × Text)} {env env' : Environment} {file : Option Text}

/-- The first value of a key. -/
def firstOf (entries : List (Text × Text)) (key : Text) : Option Text :=
  (entries.find? fun e => e.1 = key).map (·.2)

theorem firstOf_cons :
    firstOf (entry :: entries) key =
      if entry.1 = key then some entry.2 else firstOf entries key := by
  by_cases h : entry.1 = key <;> simp [firstOf, h]

theorem loadEntry_eq_some
    (h : loadEntry env entry = some env') :
    (env.var entry.1 = none → nulChar ∉ entry.1 ∧ nulChar ∉ entry.2) ∧
      ∀ key, env'.var key =
        (env.var key).or (if entry.1 = key then some entry.2 else none) := by
  unfold loadEntry at h
  split at h
  · rename_i hset
    obtain rfl := Option.some.inj h
    obtain ⟨value, hvalue⟩ := Option.isSome_iff_exists.mp hset
    refine ⟨fun hnone => ?_, fun key => ?_⟩
    · rw [hnone] at hvalue
      cases hvalue
    · split
      · rename_i hkey
        rw [← hkey, hvalue, Option.some_or]
      · rw [Option.or_none]
  · rename_i hset
    split at h
    · rename_i hnul
      obtain rfl := Option.some.inj h
      refine ⟨fun _ => hnul, fun key => ?_⟩
      have hnone : env.var entry.1 = none := by simpa using hset
      by_cases hkey : entry.1 = key
      · subst hkey
        rw [if_pos rfl, hnone, Option.none_or]
        exact Function.update_self _ _ _
      · rw [if_neg hkey, Option.or_none]
        exact Function.update_of_ne (Ne.symm hkey) _ _
    · cases h

theorem exists_loadEntry
    (env : Environment)
    (h : env.var entry.1 = none → nulChar ∉ entry.1 ∧ nulChar ∉ entry.2) :
    ∃ env', loadEntry env entry = some env' := by
  unfold loadEntry
  split
  · exact ⟨env, rfl⟩
  · rename_i hset
    exact ⟨_, dif_pos (h (by simpa using hset))⟩

/-- What entries that are loaded leave set: the variables, and the first value of
each key that was none. -/
theorem var_of_load
    (h : entries.foldlM loadEntry env = some env') :
    (∀ key value, firstOf entries key = some value → env.var key = none →
      nulChar ∉ key ∧ nulChar ∉ value) ∧
    ∀ key, env'.var key = (env.var key).or (firstOf entries key) := by
  induction entries generalizing env with
  | nil =>
      obtain rfl := Option.some.inj h
      exact ⟨fun _ _ hvalue => (nomatch hvalue), fun key => Option.or_none.symm⟩
  | cons entry entries ih =>
      rw [List.foldlM_cons] at h
      obtain ⟨env₁, hentry, hrest⟩ := Option.bind_eq_some_iff.mp h
      obtain ⟨hnul, hvar⟩ := loadEntry_eq_some hentry
      obtain ⟨hnul', hvar'⟩ := ih hrest
      refine ⟨fun key value hvalue hnone => ?_, fun key => ?_⟩
      · rw [firstOf_cons] at hvalue
        split at hvalue
        · rename_i hkey
          subst hkey
          rw [← Option.some.inj hvalue]
          exact hnul hnone
        · rename_i hkey
          refine hnul' key value hvalue ?_
          rw [hvar, hnone, if_neg hkey, Option.or_none]
      · rw [hvar', hvar, firstOf_cons, Option.or_assoc]
        split
        · rw [Option.some_or]
        · rw [Option.none_or]

theorem exists_load
    (env : Environment)
    (h : ∀ key value, firstOf entries key = some value → env.var key = none →
      nulChar ∉ key ∧ nulChar ∉ value) :
    ∃ env', entries.foldlM loadEntry env = some env' := by
  induction entries generalizing env with
  | nil => exact ⟨env, rfl⟩
  | cons entry entries ih =>
      obtain ⟨env₁, hentry⟩ := exists_loadEntry env (h entry.1 entry.2 (by
        rw [firstOf_cons, if_pos rfl]))
      obtain ⟨-, hvar⟩ := loadEntry_eq_some hentry
      obtain ⟨env', hrest⟩ := ih env₁ fun key value hvalue hnone => by
        rw [hvar, Option.or_eq_none_iff] at hnone
        refine h key value ?_ hnone.1
        have hkey : ¬ entry.1 = key := fun heq => by simp [heq] at hnone
        rw [firstOf_cons, if_neg hkey, hvalue]
      exact ⟨env', by rw [List.foldlM_cons, hentry]; exact hrest⟩

/-- The value of a key is that of the first of its lines. -/
theorem firstOf_filterMap :
    firstOf (lines.filterMap envEntry) key =
      ((entryLines key lines).head?.bind envEntry).map (·.2) := by
  induction lines with
  | nil => rfl
  | cons line lines ih =>
      cases hread : envEntry line with
      | none =>
          rw [List.filterMap_cons_none hread, ih, entryLines_cons_of_ne]
          rw [hread]
          simp
      | some e =>
          rw [List.filterMap_cons_some hread, firstOf_cons]
          split
          · rename_i hkey
            have hread' : envEntry line = some (key, e.2) := by rw [hread, ← hkey]
            rw [entryLines_cons_of_key hread', List.head?_cons, Option.bind_some, hread']
            rfl
          · rename_i hkey
            rw [ih, entryLines_cons_of_ne]
            rw [hread]
            simpa using hkey

theorem envValue_eq :
    envValue file key =
      ((entryLines key (fileLines file)).head?.bind envEntry).map (·.2) :=
  firstOf_filterMap

theorem envValue_mergeEnv
    (h : OneLine entries) :
    envValue (some (mergeEnv file entries)) key =
      ((entryLines key (writeEntries entries (fileLines file))).head?.bind
        envEntry).map (·.2) :=
  (congrArg (firstOf · key) (envEntries_mergeEnv h)).trans firstOf_filterMap

theorem SpacedFirst.envValue_ne_none
    (h : SpacedFirst key (fileLines file)) :
    envValue file key ≠ none := by
  obtain ⟨line, hfirst, -⟩ := h
  have hkey := of_decide_eq_true (List.mem_filter.mp (List.mem_of_mem_head? hfirst)).2
  obtain ⟨e, hread, -⟩ := Option.map_eq_some_iff.mp hkey
  rw [envValue_eq, hfirst, Option.bind_some, hread]
  exact fun hnone => nomatch hnone

/-- Where a key is not written, its value stays. -/
theorem envValue_mergeEnv_of_notMem
    (h : OneLine entries)
    (hkey : key ∉ entries.map (·.1)) :
    envValue (some (mergeEnv file entries)) key = envValue file key := by
  rw [envValue_mergeEnv h, entryLines_writeEntries_of_notMem h.toReadableEntries hkey,
    envValue_eq]

/-- Where a write does not find the line that counts, the value stays. -/
theorem envValue_mergeEnv_of_spacedFirst
    (h : OneLine entries)
    (hmem : entry ∈ entries)
    (hspaced : SpacedFirst entry.1 (fileLines file)) :
    envValue (some (mergeEnv file entries)) entry.1 = envValue file entry.1 := by
  obtain ⟨line, hfirst, hline⟩ := hspaced
  obtain ⟨rest, hlines⟩ := List.head?_eq_some_iff.mp hfirst
  rw [envValue_mergeEnv h, entryLines_writeEntries h.toReadableEntries hmem, envValue_eq,
    hlines, writeEntry, if_neg (by rw [hline]; simp)]
  rfl

/-- Elsewhere the value is the one that was written. -/
theorem envValue_mergeEnv_of_written
    (h : OneLine entries)
    (hmem : entry ∈ entries)
    (hspaced : ¬ SpacedFirst entry.1 (fileLines file)) :
    envValue (some (mergeEnv file entries)) entry.1 = some (unquote entry.2.trim) := by
  have hfirst : (writeEntry entry (entryLines entry.1 (fileLines file))).head? =
      some (envLine entry) := by
    cases hlines : entryLines entry.1 (fileLines file) with
    | nil => rfl
    | cons line rest =>
        have hline : isLineOf entry.1 line = true := by
          by_contra hnot
          exact hspaced ⟨line, by rw [hlines]; rfl, Bool.eq_false_iff.mpr hnot⟩
        rw [writeEntry, if_pos hline, List.head?_cons]
  rw [envValue_mergeEnv h, entryLines_writeEntries h.toReadableEntries hmem, hfirst,
    Option.bind_some, envEntry_envLine (h.readable entry hmem), Option.map_some]

end Values

section Digits

variable {t : Text} {n : Nat}

theorem trim_eq_self
    (h : ∀ c ∈ t, Text.isWhitespace c = false) :
    t.trim = t := by
  have hstart : t.dropWhile Text.isWhitespace = t :=
    List.dropWhile_eq_self_iff.mpr fun hpos => by
      simp [h _ (List.getElem_mem hpos)]
  rw [trim_eq_rdropWhile, hstart, List.rdropWhile_eq_self_iff]
  exact fun hne => by simp [h _ (List.getLast_mem hne)]

theorem unquote_eq_self
    (h : '"' ∉ t) :
    unquote t = t := by
  have hne : ∀ c ∈ t, ¬ c = '"' := by
    rintro c hc rfl
    exact h hc
  have hstart : t.dropWhile (· = '"') = t :=
    List.dropWhile_eq_self_iff.mpr fun hpos => by
      simpa using hne _ (List.getElem_mem hpos)
  rw [unquote, hstart, List.rdropWhile_eq_self_iff]
  exact fun hlast => by simpa using hne _ (List.getLast_mem hlast)

/-- A digit is none of the characters that are read in another way. -/
theorem isDigit_spec
    {c : Char}
    (h : c.isDigit = true) :
    Text.isWhitespace c = false ∧ c ≠ '"' ∧ c ≠ '+' ∧ c ≠ '\n' ∧ c ≠ nulChar := by
  refine ⟨?_, ?_, ?_, ?_, ?_⟩
  · have hrange : 48 ≤ c.toNat ∧ c.toNat ≤ 57 := by
      simpa [Char.isDigit, UInt32.le_iff_toNat_le] using h
    simp [Text.isWhitespace]
    omega
  all_goals
    rintro rfl
    revert h
    decide

theorem isDigit_of_mem
    {c : Char}
    (hc : c ∈ Nat.toDigits 10 n) :
    c.isDigit = true :=
  Nat.isDigit_of_mem_toDigits (by decide) (by decide) hc

theorem readsBack_toDigits :
    unquote (Text.trim (Nat.toDigits 10 n)) = Nat.toDigits 10 n := by
  rw [trim_eq_self fun c hc => (isDigit_spec (isDigit_of_mem hc)).1]
  exact unquote_eq_self fun hc => (isDigit_spec (isDigit_of_mem hc)).2.1 rfl

theorem parseU32_toDigits
    (pin : BitVec 32) :
    parseU32 (Nat.toDigits 10 pin.toNat) = some pin := by
  have hplus : (Nat.toDigits 10 pin.toNat).head? ≠ some '+' := fun hhead =>
    (isDigit_spec (isDigit_of_mem (List.mem_of_mem_head? hhead))).2.2.1 rfl
  have hvalue : Nat.ofDigitChars 10 (Nat.toDigits 10 pin.toNat) 0 = pin.toNat :=
    Nat.ofDigitChars_ten_toDigits
  have hdigits : (Nat.toDigits 10 pin.toNat).all Char.isDigit = true :=
    List.all_eq_true.mpr fun c hc => isDigit_of_mem hc
  simp only [parseU32, if_neg hplus, hvalue]
  rw [if_pos ⟨Nat.toDigits_ne_nil, hdigits, pin.isLt⟩, BitVec.ofNat_toNat,
    BitVec.setWidth_eq]

end Digits

section Keys

theorem readable_pinKey : ReadableKey pinKey :=
  ⟨by decide, by decide, by decide, by decide, by decide⟩

theorem readable_secretKey : ReadableKey secretKey :=
  ⟨by decide, by decide, by decide, by decide, by decide⟩

theorem readable_settingDefaults : ∀ d ∈ settingDefaults, ReadableKey d.1 := by
  intro d hd
  simp only [settingDefaults, List.mem_cons, List.not_mem_nil, or_false] at hd
  rcases hd with rfl | rfl | rfl
  all_goals exact ⟨by decide, by decide, by decide, by decide, by decide⟩

theorem secretKeys_nodup : secretKeys.Nodup := by
  decide

theorem settingDefaults_spec :
    ∀ d ∈ settingDefaults, unquote d.2.trim = d.2 ∧ '\n' ∉ d.2 ∧ nulChar ∉ d.2 := by
  decide

theorem oneLine_secretEntries
    {secrets : Secrets}
    (h : '\n' ∉ secrets.secret) :
    OneLine (secretEntries secrets) where
  readable entry hmem := by
    simp only [secretEntries, List.mem_cons] at hmem
    rcases hmem with rfl | rfl | hmem
    · exact readable_pinKey
    · exact readable_secretKey
    · exact readable_settingDefaults entry hmem
  nodup := secretKeys_nodup
  ne_nil := List.cons_ne_nil _ _
  no_feed entry hmem := by
    simp only [secretEntries, List.mem_cons] at hmem
    rcases hmem with rfl | rfl | hmem
    · exact fun hc => (isDigit_spec (isDigit_of_mem hc)).2.2.2.1 rfl
    · exact h
    · exact (settingDefaults_spec entry hmem).2.1

end Keys

section Legacy

variable {config : Option FileText} {key key' : String} {root : JsonValue}

theorem JsonValue.get_remove :
    (root.remove key).get key' = if key' = key then none else root.get key' := by
  cases root with
  | obj fields =>
      change (JsonValue.obj (fields.filter fun f => f.1 ≠ key)).get key' = _
      induction fields with
      | nil => split <;> rfl
      | cons f fields ih =>
          rw [List.filter_cons]
          split
          · rename_i hf
            have hne : f.1 ≠ key := by simpa using hf
            rw [JsonValue.get_obj_cons, JsonValue.get_obj_cons, ih]
            by_cases hkey : f.1 = key'
            · rw [if_pos hkey, if_pos hkey, if_neg (hkey ▸ hne)]
            · rw [if_neg hkey, if_neg hkey]
          · rename_i hf
            have heq : f.1 = key := by simpa using hf
            rw [ih, JsonValue.get_obj_cons]
            by_cases hkey : key' = key
            · rw [if_pos hkey, if_pos hkey]
            · rw [if_neg hkey, if_neg hkey, if_neg fun h => hkey (h.symm.trans heq)]
  | _ => split <;> rfl

/-- Afterwards neither secret is there. -/
theorem configValue_stripSecrets
    (config : Option FileText)
    (hkey : key = "paring_pin" ∨ key = "jwt_secret") :
    configValue (stripSecrets config) key = none := by
  cases hvalue : config.bind FileText.value? with
  | none => simp [stripSecrets, configValue, hvalue]
  | some root =>
      by_cases hkeys : (root.get "paring_pin").isSome ∨ (root.get "jwt_secret").isSome
      · have hstripped : configValue (stripSecrets config) key =
            ((root.remove "paring_pin").remove "jwt_secret").get key := by
          simp only [stripSecrets, hvalue, if_pos hkeys]
          rfl
        rw [hstripped, JsonValue.get_remove, JsonValue.get_remove]
        rcases hkey with rfl | rfl <;> simp
      · have hstripped : configValue (stripSecrets config) key = root.get key := by
          simp only [stripSecrets, hvalue, if_neg hkeys, configValue]
          rfl
        rw [not_or, Option.not_isSome_iff_eq_none, Option.not_isSome_iff_eq_none] at hkeys
        rw [hstripped]
        rcases hkey with rfl | rfl
        · exact hkeys.1
        · exact hkeys.2

/-- A configuration without the secrets stays as it is. -/
theorem stripSecrets_stripSecrets :
    stripSecrets (stripSecrets config) = stripSecrets config := by
  have hpin := configValue_stripSecrets config (Or.inl rfl)
  have hsecret := configValue_stripSecrets config (Or.inr rfl)
  generalize stripSecrets config = config' at hpin hsecret
  unfold stripSecrets
  cases hvalue : config'.bind FileText.value? with
  | none => rfl
  | some root =>
      rw [configValue, hvalue, Option.bind_some] at hpin hsecret
      simp [hpin, hsecret]

theorem legacyPin_stripSecrets : legacyPin (stripSecrets config) = none := by
  rw [legacyPin, configValue_stripSecrets config (Or.inl rfl)]

theorem legacySecret_stripSecrets : legacySecret (stripSecrets config) = none := by
  rw [legacySecret, configValue_stripSecrets config (Or.inr rfl)]
  rfl

end Legacy

section Starts

variable {env env' : Environment} {files files' : SecretFiles}
variable {fresh fresh' : FreshSecrets} {secrets : Secrets} {file : Option Text}

/-- No variable that a file sets has a null character. -/
def NulFree (env : Environment) (file : Option Text) : Prop :=
  ∀ key value, envValue file key = some value → env.var key = none →
    nulChar ∉ key ∧ nulChar ∉ value

theorem loadEnvFile_eq_some
    (h : loadEnvFile env file = some env') :
    NulFree env file ∧ env'.var = fun key => (env.var key).or (envValue file key) :=
  ⟨(var_of_load h).1, funext (var_of_load h).2⟩

/-- When a start ends, and what it gives. -/
theorem ensureSecrets_eq_some_iff :
    ensureSecrets env files fresh = some (secrets, files') ↔
      NulFree env files.env ∧ secrets = givenSecrets env files fresh ∧
        files' = ⟨some (mergeEnv files.env (secretEntries secrets)),
          stripSecrets files.config⟩ := by
  constructor
  · intro h
    obtain ⟨loaded, hload, heq⟩ := Option.map_eq_some_iff.mp h
    obtain ⟨hnul, hvar⟩ := loadEnvFile_eq_some hload
    obtain ⟨rfl, rfl⟩ := Prod.mk.inj heq
    rw [hvar]
    exact ⟨hnul, rfl, rfl⟩
  · rintro ⟨hnul, rfl, rfl⟩
    obtain ⟨loaded, hload⟩ := exists_load env hnul
    refine Option.map_eq_some_iff.mpr ⟨loaded, hload, ?_⟩
    rw [(loadEnvFile_eq_some hload).2]
    rfl

/-- The secrets of a later start, without them in its environment. -/
theorem givenSecrets_of_stripped
    {config : Option FileText}
    (hpin : env.var pinKey = none)
    (hsecret : env.var secretKey = none) :
    givenSecrets env ⟨file, stripSecrets config⟩ fresh =
      ⟨((envValue file pinKey).bind parseU32).getD fresh.pin,
        ((envValue file secretKey).filter fun s => s.trim ≠ []).getD fresh.secret⟩ := by
  simp only [givenSecrets, resolveSecrets, hpin, hsecret, Option.none_or,
    legacyPin_stripSecrets, legacySecret_stripSecrets, Option.or_none]

/-- A start that is the same whatever is made makes nothing. -/
theorem eq_some_of_getD
    {α β : Type*} {o : Option α} {x : α} (f : β → α) (a b : β)
    (hab : f a ≠ f b)
    (h : ∀ y, o.getD (f y) = x) :
    o = some x := by
  cases o with
  | none => exact absurd ((h a).trans (h b).symm) hab
  | some y => exact congrArg some (h a)

def oneUuid (last : UInt8) : Uuid :=
  ⟨List.replicate 15 0 ++ [last], rfl⟩

/-- Values that are read have no line feed. -/
theorem notMem_of_envValue
    {key value : Text}
    (h : envValue file key = some value) :
    '\n' ∉ value := by
  obtain ⟨e, hfind, rfl⟩ := Option.map_eq_some_iff.mp h
  obtain ⟨line, hline, hread⟩ :=
    List.mem_filterMap.mp (List.mem_of_find?_eq_some hfind)
  exact fun hmem => notMem_of_mem_fileLines line hline (subset_of_envEntry hread hmem)

/-- A start whose secret is on one line writes what it reads. -/
theorem envValue_written
    (file : Option Text)
    (hfeed : '\n' ∉ secrets.secret) :
    (∀ key, key ∉ secretKeys →
      envValue (some (mergeEnv file (secretEntries secrets))) key = envValue file key) ∧
    ∀ e ∈ secretEntries secrets, (SpacedFirst e.1 (fileLines file) →
        envValue (some (mergeEnv file (secretEntries secrets))) e.1 =
          envValue file e.1) ∧
      (¬ SpacedFirst e.1 (fileLines file) →
        envValue (some (mergeEnv file (secretEntries secrets))) e.1 =
          some (unquote e.2.trim)) :=
  have hlines := oneLine_secretEntries hfeed
  ⟨fun _ hkey => envValue_mergeEnv_of_notMem hlines hkey, fun _ he =>
    ⟨envValue_mergeEnv_of_spacedFirst hlines he, envValue_mergeEnv_of_written hlines he⟩⟩

theorem settingDefaults_ne
    {d : Text × Text}
    (hd : d ∈ settingDefaults) :
    d.1 ≠ pinKey ∧ d.1 ≠ secretKey := by
  revert d
  decide

theorem mem_secretKeys
    {key : Text} :
    key ∈ secretKeys ↔
      key = pinKey ∨ key = secretKey ∨ ∃ d ∈ settingDefaults, d.1 = key := by
  rw [secretKeys, List.mem_cons, List.mem_cons, List.mem_map]

theorem nulChar_notMem_secretKeys :
    ∀ key ∈ secretKeys, nulChar ∉ key := by
  decide

@[simp] theorem map_secretEntries : (secretEntries secrets).map (·.1) = secretKeys := rfl

/-- When a second start writes the same file. -/
theorem mergeEnv_secretEntries_eq_self_iff
    (file : Option Text)
    (hfeed : '\n' ∉ secrets.secret) :
    mergeEnv (some (mergeEnv file (secretEntries secrets))) (secretEntries secrets) =
        mergeEnv file (secretEntries secrets) ↔
      (∀ line ∈ keptLines secretKeys (fileLines file), line.getLast? ≠ some '\r') ∧
        ¬ (HasLines secretKeys (fileLines file) ∧ [[], []] <:+ fileLines file) := by
  have hiff := mergeEnv_eq_self_iff file (oneLine_secretEntries hfeed)
  rwa [map_secretEntries] at hiff

/-- A number has no null character. -/
theorem nulChar_notMem_of_parseU32
    {t : Text} {pin : BitVec 32}
    (h : parseU32 t = some pin) :
    nulChar ∉ t := by
  intro hmem
  have hdigit := List.all_eq_true.mp (Option.ite_none_right_eq_some.mp h).1.2.1
  split at hdigit
  · rename_i hplus
    obtain ⟨rest, rfl⟩ := List.head?_eq_some_iff.mp hplus
    rcases List.mem_cons.mp hmem with hchar | hmem
    · revert hchar
      decide
    · exact (isDigit_spec (hdigit nulChar hmem)).2.2.2.2 rfl
  · exact (isDigit_spec (hdigit nulChar hmem)).2.2.2.2 rfl

theorem pin_mem : (pinKey, Nat.toDigits 10 secrets.pin.toNat) ∈ secretEntries secrets :=
  List.mem_cons_self

theorem secret_mem : (secretKey, secrets.secret) ∈ secretEntries secrets :=
  List.mem_cons_of_mem _ List.mem_cons_self

theorem default_mem
    {d : Text × Text}
    (hd : d ∈ settingDefaults) :
    d ∈ secretEntries secrets :=
  List.mem_cons_of_mem _ (List.mem_cons_of_mem _ hd)

/-- The settings file after a start. -/
def writtenEnv (env : Environment) (files : SecretFiles) (fresh : FreshSecrets) :
    Option Text :=
  some (mergeEnv files.env (secretEntries (givenSecrets env files fresh)))

namespace Restartable

/-- The PIN that is read again is the one that was given. -/
theorem pin_writtenEnv
    (h : Restartable env files fresh) :
    (envValue (writtenEnv env files fresh) pinKey).bind parseU32 =
      some (givenSecrets env files fresh).pin := by
  obtain ⟨hkept, hwritten⟩ := (envValue_written files.env h.secret_no_feed).2 _ pin_mem
  by_cases hspaced : SpacedFirst pinKey (fileLines files.env)
  · exact (congrArg (Option.bind · parseU32) (hkept hspaced)).trans (h.pin hspaced)
  · rw [writtenEnv, hwritten hspaced, readsBack_toDigits]
    exact parseU32_toDigits _

/-- So is the secret. -/
theorem secret_writtenEnv
    (h : Restartable env files fresh) :
    envValue (writtenEnv env files fresh) secretKey =
      some (givenSecrets env files fresh).secret := by
  obtain ⟨hkept, hwritten⟩ := (envValue_written files.env h.secret_no_feed).2 _ secret_mem
  by_cases hspaced : SpacedFirst secretKey (fileLines files.env)
  · exact (hkept hspaced).trans (h.secret_spaced hspaced)
  · exact (hwritten hspaced).trans (congrArg some (h.secret_written hspaced))

/-- A setting that has a default keeps its value, or gets the default if it had
none. -/
theorem setting_writtenEnv
    {d : Text × Text}
    (h : Restartable env files fresh)
    (hd : d ∈ settingDefaults) :
    (envValue files.env d.1 = none →
      envValue (writtenEnv env files fresh) d.1 = some d.2) ∧
    ∀ value, envValue files.env d.1 = some value →
      envValue (writtenEnv env files fresh) d.1 = some value := by
  obtain ⟨hkept, hwritten⟩ :=
    (envValue_written files.env h.secret_no_feed).2 _ (default_mem hd)
  rw [(settingDefaults_spec d hd).1] at hwritten
  constructor
  · intro hnone
    exact hwritten fun hspaced => hspaced.envValue_ne_none hnone
  · intro value hvalue
    by_cases hspaced : SpacedFirst d.1 (fileLines files.env)
    · exact (hkept hspaced).trans hvalue
    · rw [(h.settings d hd value hvalue).resolve_right hspaced]
      exact hwritten hspaced

/-- What a start leaves can be loaded by any later one. -/
theorem nulFree_writtenEnv
    (h : Restartable env files fresh)
    (env' : Environment) :
    NulFree env' (writtenEnv env files fresh) := by
  intro key value hvalue _
  by_cases hmem : key ∈ secretKeys
  · refine ⟨nulChar_notMem_secretKeys key hmem, ?_⟩
    obtain rfl | rfl | ⟨d, hd, rfl⟩ := mem_secretKeys.mp hmem
    · have hpin := h.pin_writtenEnv
      rw [hvalue] at hpin
      exact nulChar_notMem_of_parseU32 hpin
    · rw [← Option.some.inj (h.secret_writtenEnv.symm.trans hvalue)]
      exact h.secret_no_nul
    · obtain ⟨hdefault, hkept⟩ := h.setting_writtenEnv hd
      cases hbefore : envValue files.env d.1 with
      | none =>
          rw [← Option.some.inj ((hdefault hbefore).symm.trans hvalue)]
          exact (settingDefaults_spec d hd).2.2
      | some value' =>
          obtain rfl := Option.some.inj ((hkept value' hbefore).symm.trans hvalue)
          refine (h.no_nul d.1 value' hbefore ?_).2
          rintro (heq | heq)
          · exact absurd heq (settingDefaults_ne hd).1
          · exact absurd heq (settingDefaults_ne hd).2
  · have hkept := (envValue_written files.env h.secret_no_feed).1 key hmem
    refine h.no_nul key value (hkept.symm.trans hvalue) ?_
    rintro (rfl | rfl)
    · exact absurd (mem_secretKeys.mpr (Or.inl rfl)) hmem
    · exact absurd (mem_secretKeys.mpr (Or.inr (Or.inl rfl))) hmem

/-- A start is survived under the condition. -/
theorem survives
    (h : Restartable env files fresh) :
    SurvivesRestart env files fresh := by
  refine ⟨givenSecrets env files fresh,
    ⟨writtenEnv env files fresh, stripSecrets files.config⟩, ?_, ?_, ?_⟩
  · exact ensureSecrets_eq_some_iff.mpr
      ⟨fun key value hvalue hnone => h.no_nul key value hvalue fun _ => hnone, rfl, rfl⟩
  · intro key hkey hkey' value hvalue
    by_cases hmem : key ∈ secretKeys
    · obtain rfl | rfl | ⟨d, hd, rfl⟩ := mem_secretKeys.mp hmem
      · exact absurd rfl hkey
      · exact absurd rfl hkey'
      · exact (h.setting_writtenEnv hd).2 value hvalue
    · exact ((envValue_written files.env h.secret_no_feed).1 key hmem).trans hvalue
  · intro env' fresh' hnoPin hnoSecret
    refine ensureSecrets_eq_some_iff.mpr ⟨h.nulFree_writtenEnv env', ?_, ?_⟩
    · rw [givenSecrets_of_stripped hnoPin hnoSecret, h.pin_writtenEnv,
        h.secret_writtenEnv, Option.filter_some_pos (by simpa using h.secret_not_blank)]
      rfl
    · have hsame := (mergeEnv_secretEntries_eq_self_iff files.env h.secret_no_feed).mpr
        ⟨h.no_return, h.no_blank⟩
      rw [stripSecrets_stripSecrets, writtenEnv, hsame]

end Restartable

/-- A start with the same secrets whatever is made reads the PIN and the secret. -/
theorem reads_of_givenSecrets
    (h : ∀ fresh' : FreshSecrets, secrets =
      ⟨((envValue file pinKey).bind parseU32).getD fresh'.pin,
        ((envValue file secretKey).filter fun s => s.trim ≠ []).getD fresh'.secret⟩) :
    (envValue file pinKey).bind parseU32 = some secrets.pin ∧
      envValue file secretKey = some secrets.secret ∧ secrets.secret.trim ≠ [] := by
  have hpin : (envValue file pinKey).bind parseU32 = some secrets.pin :=
    eq_some_of_getD FreshSecrets.pin ⟨oneUuid 0, oneUuid 0⟩ ⟨oneUuid 1, oneUuid 0⟩
      (by decide) fun fresh' => (congrArg Secrets.pin (h fresh')).symm
  have hsecret : (envValue file secretKey).filter (fun s => s.trim ≠ []) =
      some secrets.secret :=
    eq_some_of_getD FreshSecrets.secret ⟨oneUuid 0, oneUuid 0⟩ ⟨oneUuid 0, oneUuid 1⟩
      (by decide) fun fresh' => (congrArg Secrets.secret (h fresh')).symm
  obtain ⟨hvalue, hblank⟩ := Option.filter_eq_some_iff.mp hsecret
  exact ⟨hpin, hvalue, by simpa using hblank⟩

/-- What a start that is survived leaves: no null character, the secrets as they are
read, and a file that a second start would write again. -/
theorem SurvivesRestart.later
    (h : SurvivesRestart env files fresh) :
    NulFree env files.env ∧
      NulFree Environment.empty (writtenEnv env files fresh) ∧
      (∀ key, key ≠ pinKey → key ≠ secretKey → ∀ value,
        envValue files.env key = some value →
          envValue (writtenEnv env files fresh) key = some value) ∧
      ((envValue (writtenEnv env files fresh) pinKey).bind parseU32 =
          some (givenSecrets env files fresh).pin ∧
        envValue (writtenEnv env files fresh) secretKey =
          some (givenSecrets env files fresh).secret ∧
        (givenSecrets env files fresh).secret.trim ≠ []) ∧
      mergeEnv (writtenEnv env files fresh)
          (secretEntries (givenSecrets env files fresh)) =
        mergeEnv files.env (secretEntries (givenSecrets env files fresh)) := by
  obtain ⟨secrets, files', hstart, hkeeps, hlater⟩ := h
  obtain ⟨hnul, rfl, rfl⟩ := ensureSecrets_eq_some_iff.mp hstart
  have hlater' := fun fresh' =>
    ensureSecrets_eq_some_iff.mp (hlater Environment.empty fresh' rfl rfl)
  obtain ⟨hnul', -, hfiles'⟩ := hlater' fresh
  refine ⟨hnul, hnul', hkeeps, reads_of_givenSecrets fun fresh' => ?_,
    (Option.some.inj (SecretFiles.mk.inj hfiles').1).symm⟩
  exact (hlater' fresh').2.1.trans (givenSecrets_of_stripped rfl rfl)

/-- A start that is survived has met the condition. -/
theorem restartable_of_survives
    (h : SurvivesRestart env files fresh) :
    Restartable env files fresh := by
  obtain ⟨hnul, hnul', hkeeps, ⟨hpin, hsecret, hblank⟩, hsame⟩ := h.later
  have hfeed := notMem_of_envValue hsecret
  have hwritten := (envValue_written files.env hfeed).2
  obtain ⟨hreturn, hends⟩ := (mergeEnv_secretEntries_eq_self_iff files.env hfeed).mp hsame
  refine ⟨?_, ?_, ?_, ?_, hfeed, hblank, ?_, ?_, hreturn, hends⟩
  · intro key value hvalue hcond
    by_cases hset : env.var key = none
    · exact hnul key value hvalue hset
    · have hkey : key ≠ pinKey := fun heq => hset (hcond (Or.inl heq))
      have hkey' : key ≠ secretKey := fun heq => hset (hcond (Or.inr heq))
      exact hnul' key value (hkeeps key hkey hkey' value hvalue) rfl
  · intro d hd value hvalue
    refine or_iff_not_imp_right.mpr fun hspaced => ?_
    have hdefault := (hwritten d (default_mem hd)).2 hspaced
    rw [(settingDefaults_spec d hd).1] at hdefault
    obtain ⟨hkey, hkey'⟩ := settingDefaults_ne hd
    exact Option.some.inj ((hkeeps d.1 hkey hkey' value hvalue).symm.trans hdefault)
  · intro hspaced
    rw [← (hwritten _ pin_mem).1 hspaced]
    exact hpin
  · exact (hnul' secretKey _ hsecret rfl).2
  · intro hspaced
    exact ((hwritten _ secret_mem).1 hspaced).symm.trans hsecret
  · intro hspaced
    exact Option.some.inj (((hwritten _ secret_mem).2 hspaced).symm.trans hsecret)

/-- Settings and secrets survive a restart exactly where the file is one that is
written as it is read. -/
theorem survivesRestart_iff_restartable
    (env : Environment)
    (files : SecretFiles)
    (fresh : FreshSecrets) :
    SurvivesRestart env files fresh ↔ Restartable env files fresh :=
  ⟨restartable_of_survives, Restartable.survives⟩

end Starts

/-! ## An address that the operator has set -/

def bindIpKey : Text := "COCKATIEL_BIND_IP".toList

/-- The operator lets the engine listen on all addresses. -/
def openFiles : SecretFiles where
  env := some "COCKATIEL_BIND_IP=0.0.0.0\n".toList
  config := none

/-- After a start it is the default again. -/
theorem not_survivesRestart_open :
    ¬ SurvivesRestart Environment.empty openFiles ⟨oneUuid 0, oneUuid 0⟩ := by
  rintro ⟨secrets, files', hstart, hkeeps, -⟩
  obtain ⟨-, hgiven, rfl⟩ := ensureSecrets_eq_some_iff.mp hstart
  have hfeed : '\n' ∉ secrets.secret := by
    rw [hgiven]
    decide
  have hread : envValue openFiles.env bindIpKey = some "0.0.0.0".toList := by decide
  have hlines : entryLines bindIpKey (fileLines openFiles.env) =
      ["COCKATIEL_BIND_IP=0.0.0.0".toList] := by decide
  have hfound : ¬ SpacedFirst bindIpKey (fileLines openFiles.env) := by
    rintro ⟨line, hfirst, hline⟩
    rw [hlines, List.head?_cons] at hfirst
    rw [← Option.some.inj hfirst] at hline
    revert hline
    decide
  have hkept := hkeeps bindIpKey (by decide) (by decide) _ hread
  have hmem : (bindIpKey, "127.0.0.1".toList) ∈ secretEntries secrets :=
    List.mem_cons_of_mem _ (List.mem_cons_of_mem _ List.mem_cons_self)
  have hwritten := ((envValue_written openFiles.env hfeed).2 _ hmem).2 hfound
  have hsame := Option.some.inj (hkept.symm.trans hwritten)
  revert hsame
  decide

end CockatielEngine
