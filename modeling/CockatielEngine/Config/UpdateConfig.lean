import CockatielEngine.Config.EngineConfig

/-!
# Config: updating the settings file

An update reads the file into the settings, keeping the copy in memory when the
file cannot be read, changes them and writes them back.  What the settings do not
represent is not written back, and a file that cannot be read is replaced by the
copy.
-/

namespace CockatielEngine

/-- `update_config`: the settings in memory and the file afterwards; the write
succeeds or leaves the file alone. -/
def updateConfig (readF32 : ReadFloat32) (config : Config) (file : Option FileText)
    (update : Config → Config) (written : Bool) : Config × Option FileText :=
  let config := update ((file.bind (Config.ofText readF32)).getD config)
  (config, if written then some (.pretty config.encode) else file)

/-- An entry of a list that keeps all its fields. -/
def KeepsEntry (e e' : JsonValue) : Prop :=
  e = e' ∨
    e.isObject = true ∧ ∀ key v, e.get key = some v → e'.get key = some v

/-- The same value, or a list whose entries keep all their fields. -/
def KeepsValue (v v' : JsonValue) : Prop :=
  v.SameValue v' ∨
    ∃ es es', v = .arr es ∧ v' = .arr es' ∧ List.Forall₂ KeepsEntry es es'

/-- Between two roots of the file nothing changes but what the update changes in
these settings: not the other keys, nor the other fields of the modules that stay
in a list. -/
structure KeepsOthers (update : Config → Config) (c : Config)
    (root root' : JsonValue) : Prop where
  value : root.isObject = false → root' = root
  keys : ∀ key v, root.get key = some v →
    (∀ k : ConfigKey, k.label = key → update c k = c k) →
      ∃ v', root'.get key = some v' ∧ KeepsValue v v'
  entries : ∀ (s : ModuleStage) es, root.get s.key.label = some (.arr es) →
    ∀ e ∈ es, ∀ name, e.get "name" = some (.str name) →
      name ∈ ((update c).modules s).map (·.name) →
        ∀ field v, field ≠ "name" → field ≠ "priority" → e.get field = some v →
          ∃ es', root'.get s.key.label = some (.arr es') ∧
            ∃ e' ∈ es', e'.get "name" = some (.str name) ∧ e'.get field = some v

/-- The update changes only what it is meant to change, and nothing in a file that
is not the settings of an engine. -/
def ChangesOnly (readF32 : ReadFloat32) (update : Config → Config)
    (text text' : FileText) : Prop :=
  match Config.ofText readF32 text, text.value? with
  | some c, some root =>
      ∃ root', text'.value? = some root' ∧ KeepsOthers update c root root'
  | _, _ => text' = text

/-- The file has nothing that the settings do not represent: it is an object with
known keys only, its severity is one that a float is written as, unless it is
updated, and the modules that stay have a name and a priority and nothing else, as
objects where their list is not updated. -/
structure OnlySettings (readF32 : ReadFloat32) (update : Config → Config) (c : Config)
    (root : JsonValue) : Prop where
  object : root.isObject = true
  known : ∀ key v, root.get key = some v → ∃ k : ConfigKey, k.label = key
  severity : update c .logMinSeverity = c .logMinSeverity →
    ∀ n, root.get "log_min_severity" = some (.num n) →
      readF32 n.value = some n.value
  fields : ∀ (s : ModuleStage) es, root.get s.key.label = some (.arr es) →
    ∀ e ∈ es, ∀ name, e.get "name" = some (.str name) →
      name ∈ ((update c).modules s).map (·.name) →
        ∀ field v, e.get field = some v → field = "name" ∨ field = "priority"
  objects : ∀ (s : ModuleStage) es, update c s.key = c s.key →
    root.get s.key.label = some (.arr es) → ∀ e ∈ es, e.isObject = true

section Entries

variable {readF32 : ReadFloat32} {e : ModuleEntry} {j v : JsonValue} {field name : String}

theorem get_encode_entry :
    e.encode.get field =
      if field = "name" then some (.str e.name)
      else if field = "priority" then some (.num (.int e.priority)) else none := by
  rw [ModuleEntry.encode, JsonValue.get_obj_cons, JsonValue.get_obj_cons]
  by_cases hname : field = "name"
  · simp [hname]
  · rw [if_neg (Ne.symm hname), if_neg hname]
    by_cases hpriority : field = "priority"
    · simp [hpriority]
    · rw [if_neg (Ne.symm hpriority), if_neg hpriority, JsonValue.get_obj_nil]

/-- An entry that is an object is read from its two fields. -/
theorem decode_entry_fields
    (h : ModuleEntry.decode j = some e)
    (hobject : j.isObject = true) :
    j.get "name" = some (.str e.name) ∧
      j.get "priority" = some (.num (.int e.priority)) := by
  obtain ⟨fields, rfl⟩ : ∃ fields, j = .obj fields := by
    cases j with
    | obj fields => exact ⟨fields, rfl⟩
    | _ => cases hobject
  simp only [ModuleEntry.decode] at h
  split at h
  · rename_i name n hname hpriority
    split at h
    · obtain rfl := Option.some.inj h
      exact ⟨hname, hpriority⟩
    · cases h
  · cases h

/-- An entry without further fields is written as it was read. -/
theorem keepsEntry_encode
    (h : ModuleEntry.decode j = some e)
    (hobject : j.isObject = true)
    (hfields : ∀ field v, j.get field = some v → field = "name" ∨ field = "priority") :
    KeepsEntry j e.encode := by
  obtain ⟨hname, hpriority⟩ := decode_entry_fields h hobject
  refine Or.inr ⟨hobject, fun key v hget => ?_⟩
  rw [get_encode_entry]
  rcases hfields key v hget with rfl | rfl
  · rw [if_pos rfl, ← hname, hget]
  · rw [if_neg (by decide), if_pos rfl, ← hpriority, hget]

/-- What is kept of a written entry has been an object. -/
theorem isObject_of_keepsEntry
    (h : KeepsEntry j e.encode) :
    j.isObject = true := by
  rcases h with rfl | ⟨hobject, -⟩
  · rfl
  · exact hobject

end Entries

section Values

variable {readF32 : ReadFloat32} {c c' : Config} {root v : JsonValue}
variable {kind : ConfigKind} {x : kind.Value} {s : ModuleStage} {es : List JsonValue}
variable {entries : List ModuleEntry} {update : Config → Config}

theorem get_encode_modules :
    c.encode.get s.key.label = some (.arr ((c.modules s).map ModuleEntry.encode)) := by
  rw [Config.get_encode_label]
  cases s <;> rfl

theorem decode_modules
    (h : Config.decode readF32 root = some c)
    (hget : root.get s.key.label = some (.arr es)) :
    es.mapM ModuleEntry.decode = some (c.modules s) := by
  have hread := Config.decode_eq_some h hget
  cases s <;> exact hread

/-- Only the lists of the stages are read from an array. -/
theorem stage_of_decode
    {k : ConfigKey} {y : k.kind.Value}
    (h : k.kind.decode readF32 (.arr es) = some y) :
    ∃ s : ModuleStage, s.key = k := by
  cases k with
  | inputs => exact ⟨.input, rfl⟩
  | preprocessModules => exact ⟨.preprocess, rfl⟩
  | inprocessModules => exact ⟨.inprocess, rfl⟩
  | postprocessModules => exact ⟨.postprocess, rfl⟩
  | _ => cases h

theorem modules_of_same
    (h : c' s.key = c s.key) :
    c'.modules s = c.modules s := by
  cases s <;> exact h

/-- A list is read entry by entry. -/
theorem forall₂_of_mapM
    (h : es.mapM ModuleEntry.decode = some entries) :
    List.Forall₂ (fun j e => ModuleEntry.decode j = some e) es entries := by
  induction es generalizing entries with
  | nil =>
      obtain rfl : entries = [] := by simpa using h.symm
      exact .nil
  | cons j es ih =>
      rw [List.mapM_cons] at h
      cases hj : ModuleEntry.decode j with
      | none => simp [hj] at h
      | some e =>
          cases hes : es.mapM ModuleEntry.decode with
          | none => simp [hj, hes] at h
          | some rest =>
              obtain rfl : entries = e :: rest := by simpa [hj, hes] using h.symm
              exact .cons hj (ih hes)

theorem mem_of_mapM
    {j : JsonValue}
    (h : es.mapM ModuleEntry.decode = some entries)
    (hj : j ∈ es) :
    ∃ e ∈ entries, ModuleEntry.decode j = some e := by
  have hread := forall₂_of_mapM h
  clear h
  induction hread with
  | nil => exact absurd hj List.not_mem_nil
  | cons hfirst _ ih =>
      rcases List.mem_cons.mp hj with rfl | hj
      · exact ⟨_, List.mem_cons_self, hfirst⟩
      · obtain ⟨e, he, hdecode⟩ := ih hj
        exact ⟨e, List.mem_cons_of_mem _ he, hdecode⟩

theorem keepsEntries_encode
    (h : es.mapM ModuleEntry.decode = some entries)
    (hobjects : ∀ e ∈ es, e.isObject = true)
    (hfields : ∀ e ∈ es, ∀ field v, e.get field = some v →
      field = "name" ∨ field = "priority") :
    List.Forall₂ KeepsEntry es (entries.map ModuleEntry.encode) := by
  rw [List.forall₂_map_right_iff]
  have hread := forall₂_of_mapM h
  clear h
  induction hread with
  | nil => exact .nil
  | cons hj _ ih =>
      refine .cons (keepsEntry_encode hj (hobjects _ List.mem_cons_self)
        (hfields _ List.mem_cons_self)) (ih ?_ ?_)
      · exact fun e he => hobjects e (List.mem_cons_of_mem _ he)
      · exact fun e he => hfields e (List.mem_cons_of_mem _ he)

/-- A value that the settings represent is written as it was read. -/
theorem keepsValue_encode
    (h : kind.decode readF32 v = some x)
    (hfloat : ∀ n, kind = .float → v = .num n → readF32 n.value = some n.value)
    (hentries : ∀ es, v = .arr es → ∀ e ∈ es, e.isObject = true ∧
      ∀ field w, e.get field = some w → field = "name" ∨ field = "priority") :
    KeepsValue v (kind.encode x) := by
  unfold ConfigKind.decode at h
  split at h
  · obtain rfl := Option.some.inj h
    exact Or.inl (.refl _)
  · rename_i bits n
    split at h
    · rename_i hn
      obtain rfl := Option.some.inj h
      have hvalue : ((BitVec.ofInt bits n).toNat : Int) = n := by
        rw [BitVec.toNat_ofInt, Int.toNat_of_nonneg (Int.emod_nonneg _ (by positivity))]
        exact_mod_cast Int.emod_eq_of_lt hn.1 (by exact_mod_cast hn.2)
      rw [ConfigKind.encode, hvalue]
      exact Or.inl (.refl _)
    · cases h
  · obtain rfl := Option.some.inj h
    exact Or.inl (.refl _)
  · rename_i n
    obtain rfl := Option.some.inj h
    rw [hfloat n rfl rfl]
    exact Or.inl (Or.inr ⟨n, .float n.value, rfl, rfl, rfl⟩)
  · rename_i es
    exact Or.inr ⟨es, _, rfl, rfl, keepsEntries_encode h
      (fun e he => (hentries es rfl e he).1) fun e he => (hentries es rfl e he).2⟩
  · cases h

/-- A float that is kept is one that is written as it was read. -/
theorem readF32_of_keepsValue
    {n : JsonNumber}
    (h : KeepsValue (.num n) (ConfigKind.encode .float (readF32 n.value))) :
    readF32 n.value = some n.value := by
  cases hread : readF32 n.value with
  | none =>
      rw [hread] at h
      rcases h with (h | ⟨m, m', -, h, -⟩) | ⟨es, es', h, -, -⟩ <;> cases h
  | some q =>
      rw [hread] at h
      rcases h with (h | ⟨m, m', h, h', hvalue⟩) | ⟨es, es', h, -, -⟩
      · obtain rfl := JsonValue.num.inj h
        rfl
      · obtain rfl := JsonValue.num.inj h
        obtain rfl := JsonValue.num.inj h'
        rw [hvalue]
        rfl
      · cases h

/-- The entries of a list that is kept have been objects. -/
theorem isObject_of_keepsValue
    (h : KeepsValue (.arr es) (.arr (entries.map ModuleEntry.encode))) :
    ∀ e ∈ es, e.isObject = true := by
  have hforall : List.Forall₂ KeepsEntry es (entries.map ModuleEntry.encode) := by
    rcases h with (h | ⟨n, n', h, -, -⟩) | ⟨es₁, es₂, h, h', hforall⟩
    · obtain rfl := JsonValue.arr.inj h
      exact List.forall₂_same.mpr fun e _ => Or.inl rfl
    · cases h
    · obtain rfl := JsonValue.arr.inj h
      obtain rfl := JsonValue.arr.inj h'
      exact hforall
  rw [List.forall₂_map_right_iff] at hforall
  clear h
  induction hforall with
  | nil => exact fun e he => absurd he List.not_mem_nil
  | cons hkept _ ih =>
      intro e he
      rcases List.mem_cons.mp he with rfl | he
      · exact isObject_of_keepsEntry hkept
      · exact ih e he

/-- Settings that were read from a file that has nothing else are written back
with everything that the file has. -/
theorem OnlySettings.keepsOthers
    (hread : Config.decode readF32 root = some c)
    (h : OnlySettings readF32 update c root) :
    KeepsOthers update c root (update c).encode where
  value hvalue := by
    rw [h.object] at hvalue
    cases hvalue
  keys key v hget hsame := by
    obtain ⟨k, rfl⟩ := h.known key v hget
    refine ⟨_, Config.get_encode_label, ?_⟩
    rw [hsame k rfl]
    refine keepsValue_encode (Config.decode_eq_some hread hget) ?_ ?_
    · rintro n hkind rfl
      obtain rfl : k = .logMinSeverity := by
        cases k <;> first | rfl | cases hkind
      exact h.severity (hsame _ rfl) n hget
    · rintro es rfl e he
      obtain ⟨s, rfl⟩ := stage_of_decode (Config.decode_eq_some hread hget)
      have hobject := h.objects s es (hsame _ rfl) hget e he
      obtain ⟨entry, hmem, hentry⟩ := mem_of_mapM (decode_modules hread hget) he
      refine ⟨hobject, h.fields s es hget e he entry.name
        (decode_entry_fields hentry hobject).1 ?_⟩
      rw [modules_of_same (hsame _ rfl)]
      exact List.mem_map_of_mem hmem
  entries s es hget e he name hname hstays field v hne hne' hfield := by
    rcases h.fields s es hget e he name hname hstays field v hfield with h | h
    · exact absurd h hne
    · exact absurd h hne'

/-- What is written back with everything else that the file has has had nothing
that the settings do not represent. -/
theorem KeepsOthers.onlySettings
    (hread : Config.decode readF32 root = some c)
    (h : KeepsOthers update c root (update c).encode) :
    OnlySettings readF32 update c root where
  object := by
    by_contra hobject
    have hroot := h.value (Bool.eq_false_iff.mpr hobject)
    rw [← hroot] at hobject
    exact hobject rfl
  known key v hget := by
    by_contra hunknown
    push Not at hunknown
    obtain ⟨v', hget', -⟩ := h.keys key v hget fun k hk => absurd hk (hunknown k)
    rw [Config.get_encode_unknown hunknown] at hget'
    cases hget'
  severity hsame n hget := by
    obtain ⟨v', hget', hkept⟩ := h.keys _ _ hget fun k hk => by
      obtain rfl : k = .logMinSeverity := ConfigKey.label_injective hk
      exact hsame
    have hlabel := Config.get_encode_label (c := update c) (k := .logMinSeverity)
    have hvalue := Config.decode_eq_some (k := .logMinSeverity) hread hget
    rw [hsame] at hlabel
    obtain rfl := Option.some.inj (hget'.symm.trans hlabel)
    rw [← Option.some.inj hvalue] at hkept
    exact readF32_of_keepsValue hkept
  fields s es hget e he name hname hstays field v hfield := by
    by_contra hother
    push Not at hother
    obtain ⟨es', hget', e', he', -, hfield'⟩ :=
      h.entries s es hget e he name hname hstays field v hother.1 hother.2 hfield
    rw [get_encode_modules] at hget'
    obtain rfl := JsonValue.arr.inj (Option.some.inj hget')
    obtain ⟨entry, -, rfl⟩ := List.mem_map.mp he'
    rw [get_encode_entry, if_neg hother.1, if_neg hother.2] at hfield'
    cases hfield'
  objects s es hsame hget := by
    obtain ⟨v', hget', hkept⟩ := h.keys _ _ hget fun k hk => by
      obtain rfl : k = s.key := ConfigKey.label_injective hk
      exact hsame
    rw [get_encode_modules] at hget'
    obtain rfl := Option.some.inj hget'
    exact isObject_of_keepsValue hkept

end Values

/-- An update of a file that can be read is one of its settings. -/
theorem updateConfig_of_read
    {readF32 : ReadFloat32} {c config : Config} {update : Config → Config}
    {text : FileText}
    (h : Config.ofText readF32 text = some c) :
    updateConfig readF32 config (some text) update true =
      (update c, some (.pretty (update c).encode)) := by
  have hread : (some text).bind (Config.ofText readF32) = some c := h
  rw [updateConfig, hread]
  rfl

theorem KeepsOthers.refl
    (update : Config → Config)
    (c : Config)
    (root : JsonValue) :
    KeepsOthers update c root root where
  value _ := rfl
  keys _ v hget _ := ⟨v, hget, Or.inl (.refl v)⟩
  entries _ es hget e he _ hname _ _ _ _ _ hfield := ⟨es, hget, e, he, hname, hfield⟩

/-- A file that is left alone is not changed by more than the update. -/
theorem ChangesOnly.refl
    (readF32 : ReadFloat32)
    (update : Config → Config)
    (text : FileText) :
    ChangesOnly readF32 update text text := by
  unfold ChangesOnly
  split
  · rename_i c root hread hvalue
    exact ⟨root, hvalue, .refl update c root⟩
  · rfl

/-- An update changes only what it is meant to change exactly if the write fails,
the file can be read and has nothing that the settings do not represent, or the
file cannot be read and already is what the copy is written as. -/
theorem updateConfig_changesOnly_iff
    (readF32 : ReadFloat32)
    (config : Config)
    (text : FileText)
    (update : Config → Config)
    (written : Bool) :
    (∃ text', (updateConfig readF32 config (some text) update written).2 = some text' ∧
      ChangesOnly readF32 update text text') ↔
      written = false ∨
        (∃ c root, Config.ofText readF32 text = some c ∧ text.value? = some root ∧
          OnlySettings readF32 update c root) ∨
        Config.ofText readF32 text = none ∧ text = .pretty (update config).encode := by
  cases written with
  | false => exact iff_of_true ⟨text, rfl, .refl readF32 update text⟩ (Or.inl rfl)
  | true =>
      simp only [updateConfig, if_true, Option.some.injEq, exists_eq_left',
        Option.bind_some, Bool.true_eq_false, false_or]
      cases hread : Config.ofText readF32 text with
      | none =>
          simp only [ChangesOnly, hread, Option.getD_none, reduceCtorEq, false_and,
            exists_false, true_and, false_or]
          exact eq_comm
      | some c =>
          obtain ⟨layout, root, rfl, hdecode⟩ : ∃ layout root,
              text = .json layout root ∧ Config.decode readF32 root = some c := by
            cases text with
            | malformed text => cases hread
            | json layout root =>
                simp only [Config.ofText] at hread
                split at hread
                · cases hread
                · exact ⟨layout, root, rfl, hread⟩
          simp only [ChangesOnly, hread, FileText.value?, FileText.pretty,
            Option.getD_some, Option.some.injEq, exists_eq_left', reduceCtorEq,
            false_and, or_false]
          constructor
          · exact fun h => ⟨c, root, rfl, rfl, h.onlySettings hdecode⟩
          · rintro ⟨_, _, rfl, rfl, h⟩
            exact h.keepsOthers hdecode

section Losses

/-- A decimal is its own float. -/
def exactFloat32 : ReadFloat32 := some

def ConfigKind.blank : (kind : ConfigKind) → kind.Value
  | .text => ""
  | .unsigned _ => 0
  | .flag => false
  | .float => some 0
  | .modules => []

/-- The settings that an engine starts with. -/
def factoryConfig : Config :=
  fun k => k.default?.getD k.kind.blank

/-- The settings of an engine, and a note of its operator. -/
def notedConfig : JsonValue :=
  .obj [("timeline_database_location", .str "./cockatiel_data.db"),
    ("timeline_database_backup_location", .str "./backup.db"),
    ("port", .num (.int 9734)), ("operator_note", .str "do not touch")]

/-- An update that changes nothing removes the note, and replaces a file with a
missing bracket by the copy. -/
theorem not_changesOnly_notedConfig :
    (¬ ∃ text', (updateConfig exactFloat32 factoryConfig
        (some (.json ⟨"by hand", false⟩ notedConfig)) id true).2 = some text' ∧
          ChangesOnly exactFloat32 id (.json ⟨"by hand", false⟩ notedConfig) text') ∧
      ¬ ∃ text', (updateConfig exactFloat32 factoryConfig
        (some (.malformed "\x7b\"port\": 9734")) id true).2 = some text' ∧
          ChangesOnly exactFloat32 id (.malformed "\x7b\"port\": 9734") text' := by
  constructor
  · rintro ⟨text', htext, hchanges⟩
    obtain ⟨c, hread⟩ : ∃ c, Config.decode exactFloat32 notedConfig = some c :=
      Option.isSome_iff_exists.mp (by decide)
    simp only [updateConfig, ChangesOnly, Config.ofText, hread, Option.bind_some,
      Bool.false_eq_true, if_false, if_true, Option.getD_some, Option.some.injEq,
      FileText.value?] at htext hchanges
    obtain ⟨root', hvalue, hkeeps⟩ := hchanges
    rw [← htext] at hvalue
    obtain rfl := Option.some.inj hvalue
    obtain ⟨v', hget, -⟩ := hkeeps.keys "operator_note" (.str "do not touch") rfl
      fun k _ => rfl
    rw [id, Config.get_encode_unknown fun k => by cases k <;> decide] at hget
    cases hget
  · rintro ⟨text', htext, hchanges⟩
    obtain rfl := Option.some.inj htext
    cases hchanges

end Losses

end CockatielEngine
