import CockatielEngine.Config.OrderingStep

/-!
# Config: a second pass of the auto-configuration

A module is settled when its three steps change no file.  After a pass that ends
every module of the registry is settled, so a second pass changes nothing.
-/

namespace CockatielEngine

section Connection

variable {env : AutoEnv} {m n : DiscoveredModule} {file file' : Option FileText}
variable {root v : JsonValue} {key : String} {defaults : List (String × JsonValue)}

def connectionKeys : List String :=
  ["ip", "port", "pin", "module_name", "position", "priority"]

@[simp] theorem connectionDefaults_keys :
    (connectionDefaults env m).map (·.1) = connectionKeys := rfl

/-- The module's own file has all keys that it needs to connect, or cannot have
them. -/
def SettledOwn (file : Option FileText) : Prop :=
  (settingsOf file).isObject = true →
    ∀ key ∈ connectionKeys, ((settingsOf file).get key).isSome = true

theorem isObject_fillMissing :
    (fillMissing root defaults).isObject = root.isObject := by
  induction defaults generalizing root with
  | nil => rfl
  | cons d defaults ih =>
      rw [fillMissing, List.foldl_cons]
      split
      · exact ih
      · exact ih.trans JsonValue.isObject_set

/-- What is there is kept. -/
theorem get_fillMissing
    (h : root.get key = some v) :
    (fillMissing root defaults).get key = some v := by
  induction defaults generalizing root with
  | nil => exact h
  | cons d defaults ih =>
      rw [fillMissing, List.foldl_cons]
      split
      · exact ih h
      · rename_i hnone
        refine ih ?_
        rw [JsonValue.get_set (JsonValue.isObject_of_get h), if_neg, h]
        rintro rfl
        rw [h] at hnone
        exact hnone rfl

theorem isSome_fillMissing
    (hobject : root.isObject = true)
    (hkey : key ∈ defaults.map (·.1)) :
    ((fillMissing root defaults).get key).isSome = true := by
  induction defaults generalizing root with
  | nil => cases hkey
  | cons d defaults ih =>
      have hstays : ∀ root : JsonValue, (root.get d.1).isSome = true →
          ((fillMissing root defaults).get d.1).isSome = true := by
        intro root hsome
        obtain ⟨v, hv⟩ := Option.isSome_iff_exists.mp hsome
        rw [get_fillMissing hv]
        rfl
      rw [List.map_cons, List.mem_cons] at hkey
      rw [fillMissing, List.foldl_cons]
      split
      · rename_i hsome
        rcases hkey with rfl | hkey
        · exact hstays root hsome
        · exact ih hobject hkey
      · rcases hkey with rfl | hkey
        · refine hstays _ ?_
          rw [JsonValue.get_set hobject, if_pos rfl]
          rfl
        · exact ih (JsonValue.isObject_set.trans hobject) hkey

/-- The step leaves the file settled, and what is settled as it is. -/
theorem writeConnectionConfig_settles :
    SettledOwn (writeConnectionConfig env m file).2 := by
  unfold writeConnectionConfig
  dsimp only
  split
  · rename_i h
    exact fun _ key hkey => isSome_fillMissing h.1 hkey
  · rename_i h
    intro hobject key hkey
    by_contra hnone
    refine h ⟨hobject, List.any_eq_true.mpr ?_⟩
    obtain ⟨d, hd, rfl⟩ := List.mem_map.mp
      (show key ∈ (connectionDefaults env m).map (·.1) from hkey)
    exact ⟨d, hd, by simpa using hnone⟩

theorem writeConnectionConfig_of_settled
    (h : SettledOwn file) :
    writeConnectionConfig env m file = (none, file) := by
  refine if_neg fun ⟨hobject, hany⟩ => ?_
  obtain ⟨d, hd, hnone⟩ := List.any_eq_true.mp hany
  have hsome := h hobject d.1
    (show d.1 ∈ (connectionDefaults env m).map (·.1) from List.mem_map_of_mem hd)
  rw [← Option.not_isSome, hsome] at hnone
  cases hnone

end Connection

section Steps

variable {env env' : AutoEnv} {m n : DiscoveredModule} {l : List DiscoveredModule}
variable {files files' : AutoFiles} {log : List String} {file : Option FileText}

theorem isNamed_registryEntry : isNamed m.name (registryEntry env m) = true := by
  simp [isNamed, registryEntry, JsonValue.get, JsonValue.asStr]

/-- The step leaves the module in the registry. -/
theorem registerModule_settles :
    (registryOf (registerModule env m file).2).any (isNamed m.name) = true := by
  unfold registerModule
  split
  · assumption
  · change ((registryOf file ++ [registryEntry env m]).any _) = true
    rw [List.any_append, List.any_cons, isNamed_registryEntry, Bool.true_or,
      Bool.or_true]

/-- What is in the registry stays there. -/
theorem registerModule_any
    {name : String}
    (h : (registryOf file).any (isNamed name) = true) :
    (registryOf (registerModule env m file).2).any (isNamed name) = true := by
  unfold registerModule
  split
  · exact h
  · change ((registryOf file ++ [registryEntry env m]).any _) = true
    rw [List.any_append, h, Bool.true_or]

/-- The steps of the module change no file. -/
structure SettledFiles (m : DiscoveredModule) (files : AutoFiles) : Prop where
  config : ∃ root, files.config = some (.pretty root) ∧ SettledRoot m root
  modules : (registryOf files.modules).any (isNamed m.name) = true
  own : SettledOwn (files.own m.directory)

/-- What the steps of a module make of the files. -/
theorem configureModule_eq_some
    (h : configureModule env files m = some (log, files')) :
    ∃ msg root, orderModule m (settingsOf files.config) = some (msg, root) ∧
      files' = ⟨some (.pretty root), (registerModule env m files.modules).2,
        Function.update files.own m.directory
          (writeConnectionConfig env m (files.own m.directory)).2⟩ := by
  obtain ⟨⟨msg, text⟩, hordered, heq⟩ := Option.map_eq_some_iff.mp h
  obtain ⟨⟨msg', root⟩, hstep, hwritten⟩ := Option.map_eq_some_iff.mp hordered
  obtain ⟨rfl, rfl⟩ := Prod.mk.inj hwritten
  exact ⟨msg', root, hstep, (Prod.mk.inj heq).2.symm⟩

/-- The steps of a module settle it. -/
theorem settled_step
    (h : configureModule env files m = some (log, files')) :
    SettledFiles m files' := by
  obtain ⟨msg, root, hstep, rfl⟩ := configureModule_eq_some h
  refine ⟨⟨root, rfl, (orderModule_eq_some hstep).1⟩, registerModule_settles, ?_⟩
  dsimp only
  rw [Function.update_self]
  exact writeConnectionConfig_settles

/-- The steps of another module leave it settled. -/
theorem SettledFiles.step
    (hsettled : SettledFiles n files)
    (h : configureModule env files m = some (log, files')) :
    SettledFiles n files' := by
  obtain ⟨msg, root, hstep, rfl⟩ := configureModule_eq_some h
  obtain ⟨root₀, hconfig, hroot₀⟩ := hsettled.config
  have hread : settingsOf files.config = root₀ := by rw [hconfig]; rfl
  rw [hread] at hstep
  refine ⟨⟨root, rfl, hroot₀.grown ((orderModule_eq_some hstep).2 hroot₀.isObject)⟩,
    registerModule_any hsettled.modules, ?_⟩
  dsimp only
  by_cases hdirectory : n.directory = m.directory
  · rw [hdirectory, Function.update_self]
    exact writeConnectionConfig_settles
  · rw [Function.update_of_ne hdirectory]
    exact hsettled.own

/-- The steps of a settled module change no file. -/
theorem configureModule_of_settled
    (h : SettledFiles m files) :
    ∃ log, configureModule env files m = some (log, files) := by
  obtain ⟨root, hconfig, hroot⟩ := h.config
  obtain ⟨msg, hstep⟩ := orderModule_of_settled hroot
  have hread : settingsOf files.config = root := by rw [hconfig]; rfl
  have hordered : addToOrdering m files.config = some (msg, .pretty root) := by
    rw [addToOrdering, hread, hstep]
    rfl
  have hregistered : registerModule env m files.modules = (none, files.modules) :=
    if_pos h.modules
  refine ⟨autoLog m [none, some msg, none], ?_⟩
  rw [configureModule, hordered, hregistered, writeConnectionConfig_of_settled h.own]
  simp only [Option.map_some, Function.update_eq_self, ← hconfig]

/-- Every module that a pass goes through is settled by it, or stays so. -/
theorem settled_run
    (h : configureModules env l files = some (log, files'))
    (hn : n ∈ l ∨ SettledFiles n files) :
    SettledFiles n files' := by
  induction l generalizing files log with
  | nil =>
      obtain rfl := (Prod.mk.inj (Option.some.inj h)).2
      exact hn.resolve_left List.not_mem_nil
  | cons m l ih =>
      obtain ⟨⟨log₁, files₁⟩, hstep, hrest⟩ := Option.bind_eq_some_iff.mp h
      obtain ⟨⟨log₂, files₂⟩, hrun, heq⟩ := Option.map_eq_some_iff.mp hrest
      obtain rfl := (Prod.mk.inj heq).2
      refine ih hrun ?_
      rcases hn with hn | hn
      · rcases List.mem_cons.mp hn with rfl | hn
        · exact Or.inr (settled_step hstep)
        · exact Or.inl hn
      · exact Or.inr (hn.step hstep)

/-- A pass through settled modules changes no file. -/
theorem configureModules_of_settled
    (h : ∀ n ∈ l, SettledFiles n files) :
    ∃ log, configureModules env l files = some (log, files) := by
  induction l with
  | nil => exact ⟨[], rfl⟩
  | cons m l ih =>
      obtain ⟨log₁, hstep⟩ :=
        configureModule_of_settled (h m List.mem_cons_self)
      obtain ⟨log₂, hrun⟩ := ih fun n hn => h n (List.mem_cons_of_mem _ hn)
      refine ⟨log₁ ++ log₂, ?_⟩
      rw [configureModules, hstep, Option.bind_some, hrun, Option.map_some]

end Steps

end CockatielEngine
