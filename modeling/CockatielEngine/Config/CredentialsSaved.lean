import CockatielEngine.Config.JsonStrings
import CockatielEngine.Config.SecretsRestart

/-!
# Config: credentials that are saved and shown

Of the lines of a key the last one is read, and a save writes over the first one that
it finds.  A sensitive value is shown where these are the same line, the value reads
back, and the configuration has no value of the key.
-/

namespace CockatielEngine

section LastLine

variable {key : Text} {entry : Text × Text} {lines : List Text}
variable {entries : List (Text × Text)} {file : Option Text}

/-- A write finds a line of the key before the last one. -/
def EarlierLine (key : Text) (lines : List Text) : Prop :=
  ∃ line ∈ (entryLines key lines).dropLast, isLineOf key line = true

theorem lastOf_filterMap :
    ((lines.filterMap envEntry).reverse.find? fun e => e.1 = key).map (·.2) =
      ((entryLines key lines).getLast?.bind envEntry).map (·.2) := by
  have hreverse : firstOf (lines.reverse.filterMap envEntry) key = _ := firstOf_filterMap
  rw [List.filterMap_reverse, entryLines, List.filter_reverse, List.head?_reverse]
    at hreverse
  exact hreverse

theorem readEnvMap_eq :
    readEnvMap file key =
      ((entryLines key (fileLines file)).getLast?.bind envEntry).map (·.2) :=
  lastOf_filterMap

theorem readEnvMap_mergeEnv
    (h : OneLine entries) :
    readEnvMap (some (mergeEnv file entries)) key =
      ((entryLines key (writeEntries entries (fileLines file))).getLast?.bind
        envEntry).map (·.2) := by
  have hread : fileEntries (some (mergeEnv file entries)) = _ := envEntries_mergeEnv h
  rw [readEnvMap, hread]
  exact lastOf_filterMap

theorem readEnvMap_mergeEnv_of_notMem
    (h : OneLine entries)
    (hkey : key ∉ entries.map (·.1)) :
    readEnvMap (some (mergeEnv file entries)) key = readEnvMap file key := by
  rw [readEnvMap_mergeEnv h, entryLines_writeEntries_of_notMem h.toReadableEntries hkey,
    readEnvMap_eq]

/-- The last line after a write is the one that was written, unless the write has found
an earlier one. -/
theorem getLast?_writeEntry :
    ((∃ line ∈ lines.dropLast, isLineOf entry.1 line = true) →
      (writeEntry entry lines).getLast? = lines.getLast?) ∧
    ((¬ ∃ line ∈ lines.dropLast, isLineOf entry.1 line = true) →
      (writeEntry entry lines).getLast? = some (envLine entry)) := by
  induction lines with
  | nil => exact ⟨fun h => absurd h (by simp), fun _ => rfl⟩
  | cons line lines ih =>
      cases hof : isLineOf entry.1 line with
      | true =>
          rw [writeEntry, if_pos hof]
          cases lines with
          | nil => exact ⟨fun h => absurd h (by simp), fun _ => rfl⟩
          | cons next rest =>
              refine ⟨fun _ => rfl, fun hnone => absurd ?_ hnone⟩
              exact ⟨line, List.mem_cons_self, hof⟩
      | false =>
          rw [writeEntry, if_neg (by rw [hof]; simp)]
          cases lines with
          | nil => exact ⟨fun h => absurd h (by simp), fun _ => rfl⟩
          | cons next rest =>
              have hearlier : (∃ l ∈ (line :: next :: rest).dropLast,
                    isLineOf entry.1 l = true) ↔
                  ∃ l ∈ (next :: rest).dropLast, isLineOf entry.1 l = true := by
                rw [List.dropLast_cons_cons, List.exists_mem_cons_iff]
                simp [hof]
              have hlast : (line :: writeEntry entry (next :: rest)).getLast? =
                  (writeEntry entry (next :: rest)).getLast? := by
                rw [List.getLast?_cons]
                rcases hwritten : writeEntry entry (next :: rest) with _ | ⟨first, others⟩
                · exact absurd hwritten writeEntry_ne_nil
                · rw [List.getLast?_cons, Option.getD_some]
              rw [hearlier, hlast]
              exact ih

theorem readEnvMap_mergeEnv_of_earlierLine
    (h : OneLine entries)
    (hmem : entry ∈ entries)
    (hearlier : EarlierLine entry.1 (fileLines file)) :
    readEnvMap (some (mergeEnv file entries)) entry.1 = readEnvMap file entry.1 := by
  rw [readEnvMap_mergeEnv h, entryLines_writeEntries h.toReadableEntries hmem,
    getLast?_writeEntry.1 hearlier, readEnvMap_eq]

theorem readEnvMap_mergeEnv_of_not_earlierLine
    (h : OneLine entries)
    (hmem : entry ∈ entries)
    (hearlier : ¬ EarlierLine entry.1 (fileLines file)) :
    readEnvMap (some (mergeEnv file entries)) entry.1 = some (unquote entry.2.trim) := by
  rw [readEnvMap_mergeEnv h, entryLines_writeEntries h.toReadableEntries hmem,
    getLast?_writeEntry.2 hearlier, Option.bind_some,
    envEntry_envLine (h.readable entry hmem), Option.map_some]

theorem EarlierLine.exists_readEnvMap
    (h : EarlierLine key (fileLines file)) :
    ∃ value, readEnvMap file key = some value := by
  obtain ⟨line, hline, -⟩ := h
  have hne : entryLines key (fileLines file) ≠ [] :=
    List.ne_nil_of_mem (List.dropLast_subset _ hline)
  have hlast := List.getLast?_eq_some_getLast hne
  have hkey := of_decide_eq_true (List.mem_filter.mp (List.getLast_mem hne)).2
  obtain ⟨e, hread, -⟩ := Option.map_eq_some_iff.mp hkey
  exact ⟨e.2, by rw [readEnvMap_eq, hlast, Option.bind_some, hread, Option.map_some]⟩

/-- A key that is read was in the file or is one of the entries. -/
theorem isSome_readEnvMap_mergeEnv
    (h : OneLine entries)
    (hsome : (readEnvMap (some (mergeEnv file entries)) key).isSome) :
    (readEnvMap file key).isSome ∨ key ∈ entries.map (·.1) := by
  refine or_iff_not_imp_right.mpr fun hkey => ?_
  rwa [← readEnvMap_mergeEnv_of_notMem h hkey]

end LastLine

section Spec

variable {config : Option FileText} {key : String} {v : JsonValue} {merged : JsonValue}
variable {spec : List (String × JsonValue)}

theorem isObject_foldl_set :
    (spec.foldl (fun merged e => merged.set e.1 e.2) merged).isObject =
      merged.isObject := by
  induction spec generalizing merged with
  | nil => rfl
  | cons e spec ih => rw [List.foldl_cons, ih, JsonValue.isObject_set]

theorem get_foldl_set_of_notMem
    (hobject : merged.isObject = true)
    (hkey : key ∉ spec.map (·.1)) :
    (spec.foldl (fun merged e => merged.set e.1 e.2) merged).get key =
      merged.get key := by
  induction spec generalizing merged with
  | nil => rfl
  | cons e spec ih =>
      rw [List.map_cons, List.mem_cons, not_or] at hkey
      rw [List.foldl_cons, ih (JsonValue.isObject_set.trans hobject) hkey.2,
        JsonValue.get_set hobject, if_neg hkey.1]

theorem get_foldl_set
    (hobject : merged.isObject = true)
    (hnodup : (spec.map (·.1)).Nodup)
    (hmem : (key, v) ∈ spec) :
    (spec.foldl (fun merged e => merged.set e.1 e.2) merged).get key = some v := by
  induction spec generalizing merged with
  | nil => cases hmem
  | cons e spec ih =>
      obtain ⟨hfirst, hnodup⟩ := List.nodup_cons.mp hnodup
      have hobject' : (merged.set e.1 e.2).isObject = true :=
        JsonValue.isObject_set.trans hobject
      rw [List.foldl_cons]
      rcases List.mem_cons.mp hmem with rfl | hmem
      · rw [get_foldl_set_of_notMem hobject' hfirst, JsonValue.get_set hobject,
          if_pos rfl]
      · exact ih hobject' hnodup hmem

/-- The configuration that a merge starts from, and its values. -/
theorem exists_mergeSpec
    (config : Option FileText)
    (spec : List (String × JsonValue)) :
    ∃ merged : JsonValue, merged.isObject = true ∧
      (∀ key, merged.get key = moduleSpecific config key) ∧
      ∀ key, moduleSpecific (some (mergeSpec config spec)) key =
        (spec.foldl (fun merged e => merged.set e.1 e.2) merged).get key := by
  set root := ((config.bind FileText.value?).filter JsonValue.isObject).getD (.obj [])
    with hroot
  set merged := ((root.get "module_specific").filter JsonValue.isObject).getD (.obj [])
    with hmerged
  have hrootObject : root.isObject = true := by
    rw [hroot]
    cases hvalue : (config.bind FileText.value?).filter JsonValue.isObject with
    | none => rfl
    | some value => exact (Option.filter_eq_some_iff.mp hvalue).2
  have hobject : merged.isObject = true := by
    rw [hmerged]
    cases hvalue : (root.get "module_specific").filter JsonValue.isObject with
    | none => rfl
    | some value => exact (Option.filter_eq_some_iff.mp hvalue).2
  refine ⟨merged, hobject, fun key => ?_, fun key => ?_⟩
  · have hconfig : root.get "module_specific" = configValue config "module_specific" := by
      rw [hroot, configValue]
      cases config.bind FileText.value? with
      | none => rfl
      | some value =>
          cases value with
          | obj fields => rfl
          | _ => rfl
    rw [hmerged, hconfig, moduleSpecific]
    cases (configValue config "module_specific").filter JsonValue.isObject with
    | none => rfl
    | some value => rfl
  · have hwritten : configValue (some (mergeSpec config spec)) "module_specific" =
        some (spec.foldl (fun merged e => merged.set e.1 e.2) merged) := by
      change (root.set "module_specific" _).get "module_specific" = _
      rw [JsonValue.get_set hrootObject, if_pos rfl]
    rw [moduleSpecific, hwritten,
      Option.filter_some_pos (isObject_foldl_set.trans hobject), Option.bind_some]

theorem moduleSpecific_mergeSpec_of_notMem
    (hkey : key ∉ spec.map (·.1)) :
    moduleSpecific (some (mergeSpec config spec)) key = moduleSpecific config key := by
  obtain ⟨merged, hobject, hbefore, hafter⟩ := exists_mergeSpec config spec
  rw [hafter, get_foldl_set_of_notMem hobject hkey, hbefore]

theorem moduleSpecific_mergeSpec
    (hnodup : (spec.map (·.1)).Nodup)
    (hmem : (key, v) ∈ spec) :
    moduleSpecific (some (mergeSpec config spec)) key = some v := by
  obtain ⟨merged, hobject, -, hafter⟩ := exists_mergeSpec config spec
  rw [hafter, get_foldl_set hobject hnodup hmem]

end Spec

section Schema

variable {arrays : StringArrays} {text : JsonValue → Text} {f : CredentialField}
variable {fields : List CredentialField} {values : String → Option Text}
variable {files : CredentialFiles} {value : Text}

/-- The keys of the fields differ, and so do the names of their variables. -/
structure DistinctFields (fields : List CredentialField) : Prop where
  keys : (fields.map (·.key)).Nodup
  names : (fields.map (·.envName)).Nodup

theorem eq_of_key
    {g : CredentialField}
    (h : (fields.map (·.key)).Nodup)
    (hf : f ∈ fields)
    (hg : g ∈ fields)
    (hkey : f.key = g.key) :
    f = g :=
  List.inj_on_of_nodup_map h hf hg hkey

/-- What some of the fields give is in their order. -/
theorem map_filterMap_sublist
    {α β γ : Type*} {l : List α} {g : α → Option β} {p : β → γ} {q : α → γ}
    (h : ∀ a b, g a = some b → p b = q a) :
    ((l.filterMap g).map p).Sublist (l.map q) := by
  induction l with
  | nil => exact List.Sublist.slnil
  | cons a l ih =>
      cases hg : g a with
      | none =>
          rw [List.filterMap_cons_none hg]
          exact ih.cons _
      | some b =>
          rw [List.filterMap_cons_some hg, List.map_cons, List.map_cons, h a b hg]
          exact ih.cons_cons _

theorem mem_credentialEntries
    {e : Text × Text} :
    e ∈ credentialEntries arrays fields values ↔
      ∃ f v, Submitted fields values true f v ∧
        e = (f.envName, encodeCredential arrays f v) := by
  rw [credentialEntries, List.mem_filterMap]
  constructor
  · rintro ⟨f, hf, he⟩
    obtain ⟨hsensitive, he⟩ := Option.ite_none_right_eq_some.mp he
    obtain ⟨v, hv, rfl⟩ := Option.map_eq_some_iff.mp he
    exact ⟨f, v, ⟨hf, hsensitive, hv⟩, rfl⟩
  · rintro ⟨f, v, ⟨hf, hsensitive, hv⟩, rfl⟩
    exact ⟨f, hf, by rw [if_pos hsensitive, hv]; rfl⟩

theorem mem_specEntries
    {e : String × JsonValue} :
    e ∈ specEntries fields values ↔
      ∃ f v, Submitted fields values false f v ∧ e = (f.key, specValue f v) := by
  rw [specEntries, List.mem_filterMap]
  constructor
  · rintro ⟨f, hf, he⟩
    obtain ⟨hsensitive, he⟩ := Option.ite_none_left_eq_some.mp he
    obtain ⟨v, hv, rfl⟩ := Option.map_eq_some_iff.mp he
    exact ⟨f, v, ⟨hf, Bool.eq_false_iff.mpr hsensitive, hv⟩, rfl⟩
  · rintro ⟨f, v, ⟨hf, hsensitive, hv⟩, rfl⟩
    exact ⟨f, hf, by rw [if_neg (by rw [hsensitive]; simp), hv]; rfl⟩

theorem credentialEntries_nodup
    (h : DistinctFields fields) :
    ((credentialEntries arrays fields values).map (·.1)).Nodup := by
  refine h.names.sublist (map_filterMap_sublist fun f e he => ?_)
  obtain ⟨-, he⟩ := Option.ite_none_right_eq_some.mp he
  obtain ⟨v, -, rfl⟩ := Option.map_eq_some_iff.mp he
  rfl

theorem specEntries_nodup
    (h : DistinctFields fields) :
    ((specEntries fields values).map (·.1)).Nodup := by
  refine h.keys.sublist (map_filterMap_sublist fun f e he => ?_)
  obtain ⟨-, he⟩ := Option.ite_none_left_eq_some.mp he
  obtain ⟨v, -, rfl⟩ := Option.map_eq_some_iff.mp he
  rfl

/-- What is found under a key that one element has is what that element gives. -/
theorem findSome?_ite
    {α β : Type*} {l : List α} {p : α → Prop} [DecidablePred p] {g : α → Option β} {x : α}
    (hx : x ∈ l)
    (hp : p x)
    (hone : ∀ y ∈ l, p y → y = x) :
    (l.findSome? fun y => if p y then g y else none) = g x := by
  cases hg : g x with
  | none =>
      refine List.findSome?_eq_none_iff.mpr fun y hy => ?_
      split
      · rename_i hpy
        rw [hone y hy hpy, hg]
      · rfl
  | some b =>
      induction l with
      | nil => cases hx
      | cons y l ih =>
          rw [List.findSome?_cons]
          by_cases hpy : p y
          · rw [if_pos hpy, hone y List.mem_cons_self hpy, hg]
          · rw [if_neg hpy]
            rcases List.mem_cons.mp hx with rfl | hx
            · exact absurd hp hpy
            · exact ih hx fun z hz => hone z (List.mem_cons_of_mem _ hz)

/-- What is shown of a field is its value, unless there is nothing to show. -/
theorem credentialValuesMap_eq
    (h : (fields.map (·.key)).Nodup)
    (hf : f ∈ fields)
    (hfound : files.env = none → credentialValue arrays text files f ≠ none) :
    credentialValuesMap arrays text fields files f.key =
      credentialValue arrays text files f := by
  rw [credentialValuesMap, if_neg fun hnone => hfound hnone.2 (hnone.1 f hf)]
  exact findSome?_ite (List.mem_reverse.mpr hf) rfl fun g hg hkey =>
    eq_of_key h (List.mem_reverse.mp hg) hf hkey

/-- The names of the variables are read as they are written. -/
def ReadableNames (fields : List CredentialField) (values : String → Option Text) :
    Prop :=
  ∀ f v, Submitted fields values true f v → ReadableKey f.envName

/-- A secret that is no list is on one line. -/
def OneLineSecrets (fields : List CredentialField) (values : String → Option Text) :
    Prop :=
  ∀ f v, Submitted fields values true f v → f.list = false → '\n' ∉ v.trim

/-- Writes go where they are meant to: the names of the variables are read as they are
written, a secret that the configuration hides is on one line, and the configuration
can be written if it is to be. -/
structure CredentialsWritable (writes : Writes) (fields : List CredentialField)
    (values : String → Option Text) (files : CredentialFiles) : Prop where
  readable : ReadableNames fields values
  hidden : ∀ f v, Submitted fields values true f v → f.list = false →
    moduleSpecific files.config f.key ≠ none → '\n' ∉ v.trim
  config : (∃ f v, Submitted fields values false f v) → writes.config = true

/-- The secret is shown: from the configuration, which hides the settings file, or, if
it is on one line, from the line of the variable that is read. -/
def SecretShown (arrays : StringArrays) (text : JsonValue → Text)
    (files : CredentialFiles) (f : CredentialField) (value : Text) : Prop :=
  match moduleSpecific files.config f.key with
  | some v => specValueToString text v = savedValue f value
  | none =>
      (f.list = false → '\n' ∉ value.trim) ∧
      (EarlierLine f.envName (fileLines files.env) →
        (readEnvMap files.env f.envName).map (decodeCredential arrays f) =
          some (savedValue f value)) ∧
      (¬ EarlierLine f.envName (fileLines files.env) →
        f.list = true ∨ unquote value.trim = value.trim)

theorem no_feed_encodeCredential
    (h : OneLineSecrets fields values)
    (hf : Submitted fields values true f value) :
    '\n' ∉ encodeCredential arrays f value := by
  unfold encodeCredential
  split
  · exact arrays.no_feed _
  · rename_i hlist
    exact h f value hf (Bool.eq_false_iff.mpr hlist)

theorem oneLine_credentialEntries
    (hfields : DistinctFields fields)
    (hreadable : ReadableNames fields values)
    (h : OneLineSecrets fields values)
    (hne : credentialEntries arrays fields values ≠ []) :
    OneLine (credentialEntries arrays fields values) where
  readable e he := by
    obtain ⟨f, v, hf, rfl⟩ := mem_credentialEntries.mp he
    exact hreadable f v hf
  nodup := credentialEntries_nodup hfields
  ne_nil := hne
  no_feed e he := by
    obtain ⟨f, v, hf, rfl⟩ := mem_credentialEntries.mp he
    exact no_feed_encodeCredential h hf

/-- What is written for a list is read as it is. -/
theorem readsBack_write
    (arrays : StringArrays)
    (items : List Text) :
    unquote (Text.trim (arrays.write items)) = arrays.write items := by
  obtain ⟨inner, hwrite⟩ := arrays.brackets items
  have hends : ∀ p : Char → Bool, p '[' = false → p ']' = false →
      ((arrays.write items).dropWhile p).rdropWhile p = arrays.write items := by
    intro p hopen hclose
    rw [hwrite, List.dropWhile_cons_of_neg (by rw [hopen]; simp), ← List.cons_append,
      List.rdropWhile_concat_neg _ _ _ (by rw [hclose]; simp)]
  rw [trim_eq_rdropWhile, hends _ (by decide) (by decide), unquote,
    hends _ (by decide) (by decide)]

/-- What is read of an entry that was written is the value that is to be shown. -/
theorem decodeCredential_written_iff :
    decodeCredential arrays f (unquote (encodeCredential arrays f value).trim) =
        savedValue f value ↔
      f.list = true ∨ unquote value.trim = value.trim := by
  unfold decodeCredential encodeCredential savedValue
  cases hlist : f.list with
  | true =>
      rw [if_pos rfl, if_pos rfl, if_pos rfl, readsBack_write, arrays.read_write]
      exact iff_of_true rfl (Or.inl rfl)
  | false => simp [trim_trim]

end Schema

section Saved

variable {arrays : StringArrays} {text : JsonValue → Text} {f : CredentialField}
variable {fields : List CredentialField} {values : String → Option Text}
variable {files files' : CredentialFiles} {value : Text} {writes : Writes}

theorem saveModuleCredentials_eq_some
    (h : saveModuleCredentials arrays writes fields values files = some files') :
    files'.env = (if credentialEntries arrays fields values = [] then files.env
      else some (mergeEnv files.env (credentialEntries arrays fields values))) ∧
    files'.config = if specEntries fields values = [] ∨ writes.config = false then
      files.config else some (mergeSpec files.config (specEntries fields values)) := by
  unfold saveModuleCredentials at h
  dsimp only at h
  split at h
  · cases h
  · obtain rfl := Option.some.inj h
    exact ⟨rfl, rfl⟩

/-- The settings file after the save of a secret. -/
theorem env_of_submitted
    (h : saveModuleCredentials arrays writes fields values files = some files')
    (hf : Submitted fields values true f value) :
    credentialEntries arrays fields values ≠ [] ∧
      files'.env =
        some (mergeEnv files.env (credentialEntries arrays fields values)) := by
  have hne : credentialEntries arrays fields values ≠ [] :=
    List.ne_nil_of_mem (mem_credentialEntries.mpr ⟨f, value, hf, rfl⟩)
  exact ⟨hne, (saveModuleCredentials_eq_some h).1.trans (if_neg hne)⟩

/-- A value of the configuration that is not submitted stays as it is. -/
theorem moduleSpecific_of_not_submitted
    {key : String}
    (h : saveModuleCredentials arrays writes fields values files = some files')
    (hkey : ∀ f v, Submitted fields values false f v → key ≠ f.key) :
    moduleSpecific files'.config key = moduleSpecific files.config key := by
  rw [(saveModuleCredentials_eq_some h).2]
  split
  · rfl
  · refine moduleSpecific_mergeSpec_of_notMem fun hmem => ?_
    obtain ⟨e, he, rfl⟩ := List.mem_map.mp hmem
    obtain ⟨f, v, hf, rfl⟩ := mem_specEntries.mp he
    exact hkey f v hf rfl

/-- A submitted value that is no secret is in the configuration. -/
theorem moduleSpecific_of_submitted
    (hfields : DistinctFields fields)
    (hconfig : (∃ f v, Submitted fields values false f v) → writes.config = true)
    (h : saveModuleCredentials arrays writes fields values files = some files')
    (hf : Submitted fields values false f value) :
    moduleSpecific files'.config f.key = some (specValue f value) := by
  have hmem : (f.key, specValue f value) ∈ specEntries fields values :=
    mem_specEntries.mpr ⟨f, value, hf, rfl⟩
  rw [(saveModuleCredentials_eq_some h).2, if_neg]
  · exact moduleSpecific_mergeSpec (specEntries_nodup hfields) hmem
  · rintro (hnil | hfails)
    · rw [hnil] at hmem
      cases hmem
    · rw [hconfig ⟨f, value, hf⟩] at hfails
      cases hfails

theorem specValueToString_specValue :
    specValueToString text (specValue f value) = savedValue f value := by
  unfold specValue savedValue
  split
  · have hitems : ((valueItems value).map fun item =>
        JsonValue.str (String.ofList item)).filterMap JsonValue.asStr =
          (valueItems value).map String.ofList := by
      rw [List.filterMap_map]
      exact List.filterMap_eq_map ▸ rfl
    rw [specValueToString, hitems, List.map_map]
    simp
  · exact String.toList_ofList

/-- A submitted value that is no secret is shown. -/
theorem shown_of_submitted
    (hfields : DistinctFields fields)
    (hconfig : (∃ f v, Submitted fields values false f v) → writes.config = true)
    (h : saveModuleCredentials arrays writes fields values files = some files')
    (hf : Submitted fields values false f value) :
    credentialValuesMap arrays text fields files' f.key = some (savedValue f value) := by
  have hspec := moduleSpecific_of_submitted hfields hconfig h hf
  have hvalue : credentialValue arrays text files' f = some (savedValue f value) := by
    rw [credentialValue, hspec]
    exact congrArg some specValueToString_specValue
  rw [credentialValuesMap_eq hfields.keys hf.1 fun _ => by rw [hvalue]; simp, hvalue]

/-- The configuration hides a secret after a save as it did before. -/
theorem moduleSpecific_of_secret
    (hfields : DistinctFields fields)
    (h : saveModuleCredentials arrays writes fields values files = some files')
    (hf : Submitted fields values true f value) :
    moduleSpecific files'.config f.key = moduleSpecific files.config f.key := by
  refine moduleSpecific_of_not_submitted h fun g v hg hkey => ?_
  have hsensitive := hg.2.1
  rw [← eq_of_key hfields.keys hf.1 hg.1 hkey, hf.2.1] at hsensitive
  cases hsensitive

theorem credentialValuesMap_of_secret
    (hfields : DistinctFields fields)
    (h : saveModuleCredentials arrays writes fields values files = some files')
    (hf : Submitted fields values true f value) :
    credentialValuesMap arrays text fields files' f.key =
      credentialValue arrays text files' f :=
  credentialValuesMap_eq hfields.keys hf.1 fun hnone => by
    rw [(env_of_submitted h hf).2] at hnone
    cases hnone

/-- What is read has no line feed. -/
theorem notMem_of_readEnvMap
    {file : Option Text} {key : Text}
    (h : readEnvMap file key = some value) :
    '\n' ∉ value := by
  obtain ⟨e, hfind, rfl⟩ := Option.map_eq_some_iff.mp h
  obtain ⟨line, hline, hread⟩ := List.mem_filterMap.mp
    (List.mem_reverse.mp (List.mem_of_find?_eq_some hfind))
  exact fun hmem => notMem_of_mem_fileLines line hline (subset_of_envEntry hread hmem)

/-- A secret that is read from the settings file is on one line, unless it is a list. -/
theorem no_feed_of_shown
    (hfields : DistinctFields fields)
    (h : saveModuleCredentials arrays writes fields values files = some files')
    (hf : Submitted fields values true f value)
    (hlist : f.list = false)
    (hspec : moduleSpecific files.config f.key = none)
    (hshown : credentialValuesMap arrays text fields files' f.key =
      some (savedValue f value)) :
    '\n' ∉ value.trim := by
  rw [credentialValuesMap_of_secret hfields h hf, credentialValue,
    moduleSpecific_of_secret hfields h hf, hspec] at hshown
  obtain ⟨raw, hraw, hdecoded⟩ := Option.map_eq_some_iff.mp hshown
  have hvalue : raw = value.trim := by
    simpa [decodeCredential, savedValue, hlist] using hdecoded
  rw [← hvalue]
  rcases Option.or_eq_some_iff.mp hraw with hname | ⟨-, hkey⟩
  · exact notMem_of_readEnvMap hname
  · exact notMem_of_readEnvMap hkey

/-- When a submitted secret is shown. -/
theorem secretShown_iff
    (hfields : DistinctFields fields)
    (hreadable : ReadableNames fields values)
    (hfeed : OneLineSecrets fields values)
    (h : saveModuleCredentials arrays writes fields values files = some files')
    (hf : Submitted fields values true f value) :
    credentialValuesMap arrays text fields files' f.key = some (savedValue f value) ↔
      SecretShown arrays text files f value := by
  obtain ⟨hne, henv⟩ := env_of_submitted h hf
  have hlines := oneLine_credentialEntries hfields hreadable hfeed hne
  have hmem : (f.envName, encodeCredential arrays f value) ∈
      credentialEntries arrays fields values :=
    mem_credentialEntries.mpr ⟨f, value, hf, rfl⟩
  rw [credentialValuesMap_of_secret hfields h hf, credentialValue,
    moduleSpecific_of_secret hfields h hf, SecretShown]
  cases moduleSpecific files.config f.key with
  | some v => exact Option.some_inj
  | none =>
      dsimp only
      rw [and_iff_right fun hlist => hfeed f value hf hlist]
      by_cases hearlier : EarlierLine f.envName (fileLines files.env)
      · have hread := readEnvMap_mergeEnv_of_earlierLine hlines hmem hearlier
        obtain ⟨raw, hraw⟩ := hearlier.exists_readEnvMap
        rw [henv, hread, hraw, Option.some_or,
          and_iff_left fun hnot => absurd hearlier hnot]
        exact ⟨fun hshown _ => hshown, fun hshown => hshown hearlier⟩
      · have hread := readEnvMap_mergeEnv_of_not_earlierLine hlines hmem hearlier
        rw [henv, hread, Option.some_or, Option.map_some, Option.some_inj,
          decodeCredential_written_iff, and_iff_right fun hline => absurd hline hearlier]
        exact ⟨fun hshown _ => hshown, fun hshown => hshown hearlier⟩

/-- What was not submitted stays in the settings file, and no other key is new. -/
theorem readEnvMap_saved
    (hfields : DistinctFields fields)
    (hreadable : ReadableNames fields values)
    (hfeed : OneLineSecrets fields values)
    (h : saveModuleCredentials arrays writes fields values files = some files') :
    (∀ key, (∀ f v, Submitted fields values true f v → key ≠ f.envName) →
      readEnvMap files'.env key = readEnvMap files.env key) ∧
    ∀ key value, readEnvMap files'.env key = some value →
      (readEnvMap files.env key).isSome ∨ ∃ f ∈ fields, key = f.envName := by
  rw [(saveModuleCredentials_eq_some h).1]
  split
  · exact ⟨fun _ _ => rfl, fun key value hvalue => Or.inl (by rw [hvalue]; rfl)⟩
  · rename_i hne
    have hlines := oneLine_credentialEntries hfields hreadable hfeed hne
    refine ⟨fun key hkey => ?_, fun key value hvalue => ?_⟩
    · refine readEnvMap_mergeEnv_of_notMem hlines fun hmem => ?_
      obtain ⟨e, he, rfl⟩ := List.mem_map.mp hmem
      obtain ⟨f, v, hf, rfl⟩ := mem_credentialEntries.mp he
      exact hkey f v hf rfl
    · refine (isSome_readEnvMap_mergeEnv hlines (by rw [hvalue]; rfl)).imp_right ?_
      intro hmem
      obtain ⟨e, he, rfl⟩ := List.mem_map.mp hmem
      obtain ⟨f, v, hf, rfl⟩ := mem_credentialEntries.mp he
      exact ⟨f, hf.1, rfl⟩

/-- A save fails exactly if a secret is submitted and the settings file cannot be
written. -/
theorem saveModuleCredentials_eq_none_iff
    (arrays : StringArrays)
    (files : CredentialFiles) :
    saveModuleCredentials arrays writes fields values files = none ↔
      (∃ f v, Submitted fields values true f v) ∧ writes.env = false := by
  have hentries : credentialEntries arrays fields values ≠ [] ↔
      ∃ f v, Submitted fields values true f v := by
    constructor
    · intro hne
      obtain ⟨e, he⟩ := List.exists_mem_of_ne_nil _ hne
      obtain ⟨f, v, hf, -⟩ := mem_credentialEntries.mp he
      exact ⟨f, v, hf⟩
    · rintro ⟨f, v, hf⟩
      exact List.ne_nil_of_mem (mem_credentialEntries.mpr ⟨f, v, hf, rfl⟩)
  rw [← hentries, saveModuleCredentials]
  constructor
  · intro h
    by_contra hnot
    rw [if_neg hnot] at h
    cases h
  · exact fun h => if_pos h

/-- Secrets that are all shown are on one line, where the configuration hides none
that is not. -/
theorem CredentialsWritable.oneLineSecrets
    (h : CredentialsWritable writes fields values files)
    (hread : ∀ f v, Submitted fields values true f v → f.list = false →
      moduleSpecific files.config f.key = none → '\n' ∉ v.trim) :
    OneLineSecrets fields values := by
  intro f v hf hlist
  by_cases hspec : moduleSpecific files.config f.key = none
  · exact hread f v hf hlist hspec
  · exact h.hidden f v hf hlist hspec

/-- A save whose secrets are all shown does what it is for. -/
theorem showsSaved_of_secretShown
    (hfields : DistinctFields fields)
    (hwritable : CredentialsWritable writes fields values files)
    (hshown : ∀ f value, Submitted fields values true f value →
      SecretShown arrays text files f value)
    (hsave : saveModuleCredentials arrays writes fields values files = some files') :
    ShowsSaved arrays text fields values files files' := by
  have hfeed := hwritable.oneLineSecrets fun f v hf hlist hspec => by
    have hsecret := hshown f v hf
    rw [SecretShown, hspec] at hsecret
    exact hsecret.1 hlist
  obtain ⟨hkept, hnew⟩ := readEnvMap_saved hfields hwritable.readable hfeed hsave
  refine ⟨fun f hf value hvalue => ?_, fun key value hkey hvalue => ?_,
    fun key v hkey hv => ?_, hnew⟩
  · cases hsensitive : f.sensitive with
    | true =>
        have hsubmitted : Submitted fields values true f value :=
          ⟨hf, hsensitive, hvalue⟩
        exact (secretShown_iff hfields hwritable.readable hfeed hsave hsubmitted).mpr
          (hshown f value hsubmitted)
    | false =>
        exact shown_of_submitted hfields hwritable.config hsave ⟨hf, hsensitive, hvalue⟩
  · rw [hkept key hkey, hvalue]
  · rw [moduleSpecific_of_not_submitted hsave hkey, hv]

/-- Where the writes of a save that goes through go where they are meant to, a save does
what it is for exactly if it fails or every secret is shown. -/
theorem savesCredentials_iff
    (hfields : DistinctFields fields)
    (hwritable : ¬ ((∃ f v, Submitted fields values true f v) ∧ writes.env = false) →
      CredentialsWritable writes fields values files) :
    SavesCredentials arrays text writes fields values files ↔
      ((∃ f v, Submitted fields values true f v) ∧ writes.env = false) ∨
        ∀ f value, Submitted fields values true f value →
          SecretShown arrays text files f value := by
  rw [← saveModuleCredentials_eq_none_iff arrays files] at hwritable ⊢
  by_cases hfails : saveModuleCredentials arrays writes fields values files = none
  · refine iff_of_true (fun files' hsave => ?_) (Or.inl hfails)
    rw [hfails] at hsave
    cases hsave
  · have hwritable := hwritable hfails
    obtain ⟨files', hsave⟩ := Option.ne_none_iff_exists'.mp hfails
    rw [or_iff_right hfails]
    constructor
    · intro h f value hf
      have hshown : ∀ f v, Submitted fields values true f v →
          credentialValuesMap arrays text fields files' f.key = some (savedValue f v) :=
        fun f v hf => (h files' hsave).shown f hf.1 v hf.2.2
      have hfeed := hwritable.oneLineSecrets fun f v hf hlist hspec =>
        no_feed_of_shown hfields hsave hf hlist hspec (hshown f v hf)
      exact (secretShown_iff hfields hwritable.readable hfeed hsave hf).mp
        (hshown f value hf)
    · intro hshown files'' hsave''
      obtain rfl := Option.some.inj (hsave.symm.trans hsave'')
      exact showsSaved_of_secretShown hfields hwritable hshown hsave

end Saved

/-! ## A token in two lines -/

def botToken : CredentialField where
  key := "bot_token"
  env := "BOT_TOKEN"
  sensitive := true
  list := false

def apiKeys : CredentialField where
  key := "api_keys"
  env := ""
  sensitive := true
  list := true

def channel : CredentialField where
  key := "channel"
  env := ""
  sensitive := false
  list := false

theorem botFields_distinct : DistinctFields [botToken, apiKeys, channel] :=
  ⟨by decide, by decide⟩

/-- The values of a bot that the operator submits. -/
def botValues : String → Option Text
  | "bot_token" => some " abc ".toList
  | "api_keys" => some "k1\nk2".toList
  | "channel" => some "lobby".toList
  | _ => none

/-- The files of the bot before. -/
def botFiles : CredentialFiles where
  env := some "# bot\nBOT_TOKEN=old\nREGION=eu\n".toList
  config := some (.pretty (.obj [("name", .str "bot"),
    ("module_specific", .obj [("channel", .str "den"), ("muted", .bool true)])]))

theorem submitted_botFields
    {f : CredentialField} {v : Text}
    (h : Submitted [botToken, apiKeys, channel] botValues true f v) :
    f = botToken ∧ v = " abc ".toList ∨ f = apiKeys ∧ v = "k1\nk2".toList := by
  obtain ⟨hf, hsensitive, hv⟩ := h
  rcases List.mem_cons.mp hf with rfl | hf
  · exact Or.inl ⟨rfl, (Option.some.inj hv).symm⟩
  · rcases List.mem_cons.mp hf with rfl | hf
    · exact Or.inr ⟨rfl, (Option.some.inj hv).symm⟩
    · rw [List.mem_singleton.mp hf] at hsensitive
      cases hsensitive

/-- A token, a list and a public field are saved over the files of a bot. -/
theorem savesCredentials_botFields :
    SavesCredentials compactJson (fun _ => []) ⟨true, true⟩ [botToken, apiKeys, channel]
      botValues botFiles := by
  refine (savesCredentials_iff botFields_distinct fun _ => ⟨?_, ?_, fun _ => rfl⟩).mpr
    (Or.inr ?_)
  · intro f v hf
    rcases submitted_botFields hf with ⟨rfl, rfl⟩ | ⟨rfl, rfl⟩
    · exact ⟨by decide, by decide, by decide, by decide, by decide⟩
    · exact ⟨by decide, by decide, by decide, by decide, by decide⟩
  · intro f v hf hlist _
    rcases submitted_botFields hf with ⟨rfl, rfl⟩ | ⟨rfl, rfl⟩
    · decide
    · cases hlist
  · intro f v hf
    rcases submitted_botFields hf with ⟨rfl, rfl⟩ | ⟨rfl, rfl⟩
    · refine ⟨fun _ => by decide, ?_, fun _ => Or.inr (by decide)⟩
      rintro ⟨line, hline, -⟩
      cases hline
    · refine ⟨fun hlist => absurd hlist (by decide), ?_, fun _ => Or.inl rfl⟩
      rintro ⟨line, hline, -⟩
      cases hline

def noCredentials : CredentialFiles := ⟨none, none⟩

/-- The second line of a token is an entry of its own. -/
theorem not_savesCredentials_twoLines :
    ¬ SavesCredentials compactJson (fun _ => []) ⟨true, true⟩ [botToken]
      (fun _ => some "abc\nADMIN=1".toList) noCredentials := by
  intro h
  have hsaved := h
    ⟨some (mergeEnv none [(botToken.envName, "abc\nADMIN=1".toList)]), none⟩ rfl
  have hread : readEnvMap (some (mergeEnv none
      [(botToken.envName, "abc\nADMIN=1".toList)])) "ADMIN".toList =
        some "1".toList := by
    decide
  rcases hsaved.none_new _ _ hread with hbefore | ⟨f, hf, hname⟩
  · cases hbefore
  · rw [List.mem_singleton.mp hf] at hname
    revert hname
    decide

end CockatielEngine
