import CockatielEngine.Config.UpdateConfig

/-!
# Config: placing modules in the stage lists

Every connect puts the module that connects into the settings.  One that is in
some list has its priority refreshed where it is; a new one goes to the end of the
list of its position, and the whole list is sorted by priority.

The sort moves the entries that were there, unless they were in order.
-/

namespace CockatielEngine

/-- The list with the priority of the first entry of the name refreshed. -/
def refreshPriority (name : String) (priority : Int) :
    List ModuleEntry → List ModuleEntry
  | [] => []
  | e :: rest =>
      if e.name = name then { e with priority := priority } :: rest
      else e :: refreshPriority name priority rest

/-- `sort_by_key` on the priority, which is stable. -/
def sortByPriority (entries : List ModuleEntry) : List ModuleEntry :=
  entries.mergeSort fun a b => decide (a.priority ≤ b.priority)

def ModuleStage.ofLabel? (position : String) : Option ModuleStage :=
  ModuleStage.all.find? fun s => s.label = position

namespace Config

/-- The module is in some list. -/
def isPlaced (c : Config) (name : String) : Bool :=
  ModuleStage.all.any fun s => (c.modules s).any fun e => e.name = name

/-- What `add_module_to_config` makes of the settings. -/
def addModule (c : Config) (name position : String) (priority : Int) : Config :=
  match ModuleStage.all.find? fun s => (c.modules s).any fun e => e.name = name with
  | some s => c.setModules s (refreshPriority name priority (c.modules s))
  | none =>
      match ModuleStage.ofLabel? position with
      | none => c
      | some s =>
          c.setModules s (sortByPriority (c.modules s ++ [⟨name, priority⟩]))

end Config

/-- `add_module_to_config`. -/
def addModuleToConfig (readF32 : ReadFloat32) (config : Config)
    (file : Option FileText) (name position : String) (priority : Int)
    (written : Bool) : Config × Option FileText :=
  updateConfig readF32 config file (fun c => c.addModule name position priority) written

/-- A module that connects, at a valid position. -/
structure ModuleAddition where
  name : String
  stage : ModuleStage
  priority : Int
deriving DecidableEq, Repr

namespace Config

def add (c : Config) (a : ModuleAddition) : Config :=
  c.addModule a.name a.stage.label a.priority

/-- The settings after additions in this order. -/
def after (c : Config) (adds : List ModuleAddition) : Config :=
  adds.foldl add c

end Config

/-- Along the additions the other entries of every list stay as they are and in
their order; what is placed keeps all its places, and the order of its lists; and
what is new is placed once. -/
structure KeepsArrangement (c : Config) (adds : List ModuleAddition) : Prop where
  others : ∀ before a, before ++ [a] <+: adds → ∀ s,
    ((c.after (before ++ [a])).modules s).filter (fun e => e.name ≠ a.name) =
      ((c.after before).modules s).filter fun e => e.name ≠ a.name
  kept : ∀ earlier later, earlier <+: later → later <+: adds → ∀ s,
    (((c.after later).modules s).map (·.name)).filter (c.after earlier).isPlaced =
      ((c.after earlier).modules s).map (·.name)
  once : ∀ before a later, before ++ [a] <+: later → later <+: adds →
    (c.after before).isPlaced a.name = false → ∀ s,
      (((c.after later).modules s).map (·.name)).count a.name =
        if s = a.stage then 1 else 0

/-- A module that is new goes to a list that is in order of priority. -/
def AddsToSorted (c : Config) (adds : List ModuleAddition) : Prop :=
  ∀ before a, before ++ [a] <+: adds → (c.after before).isPlaced a.name = false →
    ((c.after before).modules a.stage).Pairwise fun e e' => e.priority ≤ e'.priority

section Sorting

variable {entries : List ModuleEntry} {e : ModuleEntry} {name : String} {priority : Int}

theorem pairwise_sortByPriority :
    (sortByPriority entries).Pairwise fun e e' => e.priority ≤ e'.priority := by
  have hsorted := @List.pairwise_mergeSort ModuleEntry
    (fun a b => decide (a.priority ≤ b.priority))
    (fun a b c hab hbc => by
      simpa using le_trans (of_decide_eq_true hab) (of_decide_eq_true hbc))
    (fun a b => by simpa using le_total a.priority b.priority) entries
  simpa only [sortByPriority, decide_eq_true_eq] using hsorted

theorem perm_sortByPriority : (sortByPriority entries).Perm entries :=
  List.mergeSort_perm _ _

/-- A new entry is sorted into a list without moving the others exactly if the list
is in order. -/
theorem filter_sortByPriority_iff
    (hnew : ∀ e' ∈ entries, e'.name ≠ e.name) :
    ((sortByPriority (entries ++ [e])).filter fun e' => e'.name ≠ e.name) = entries ↔
      entries.Pairwise fun e e' => e.priority ≤ e'.priority := by
  constructor
  · intro hsame
    rw [← hsame]
    exact pairwise_sortByPriority.filter _
  · intro hsorted
    have hall : entries.filter (fun e' => e'.name ≠ e.name) = entries :=
      List.filter_eq_self.mpr fun e' he' => by simpa using hnew e' he'
    have hsub : entries.Sublist (sortByPriority (entries ++ [e])) :=
      List.sublist_mergeSort
        (fun a b c hab hbc => by
          simpa using le_trans (of_decide_eq_true hab) (of_decide_eq_true hbc))
        (fun a b => by simpa using le_total a.priority b.priority)
        (by simpa using hsorted) (List.sublist_append_left entries [e])
    have hfiltered := hsub.filter fun e' => e'.name ≠ e.name
    rw [hall] at hfiltered
    refine (hfiltered.eq_of_length ?_).symm
    have hperm := (@perm_sortByPriority (entries ++ [e])).filter
      fun e' => e'.name ≠ e.name
    rw [hperm.length_eq, List.filter_append, hall]
    simp

theorem map_name_refreshPriority :
    (refreshPriority name priority entries).map (·.name) = entries.map (·.name) := by
  induction entries with
  | nil => rfl
  | cons e entries ih =>
      rw [refreshPriority]
      split
      · rfl
      · rw [List.map_cons, List.map_cons, ih]

theorem filter_refreshPriority :
    (refreshPriority name priority entries).filter (fun e => e.name ≠ name) =
      entries.filter fun e => e.name ≠ name := by
  induction entries with
  | nil => rfl
  | cons e entries ih =>
      rw [refreshPriority]
      by_cases hname : e.name = name
      · simp [hname]
      · rw [if_neg hname, List.filter_cons, List.filter_cons, ih]

end Sorting

section Additions

variable {c : Config} {a : ModuleAddition}
variable {adds before earlier later : List ModuleAddition}
variable {s : ModuleStage} {name : String}

namespace Config

@[simp] theorem after_nil : c.after [] = c := rfl

@[simp] theorem after_concat : c.after (adds ++ [a]) = (c.after adds).add a := by
  simp [after]

theorem isPlaced_iff :
    c.isPlaced name = true ↔ ∃ s, name ∈ (c.modules s).map (·.name) := by
  simp [isPlaced, ModuleStage.mem_all]

theorem filter_isPlaced :
    ((c.modules s).map (·.name)).filter c.isPlaced = (c.modules s).map (·.name) :=
  List.filter_eq_self.mpr fun _ hname => isPlaced_iff.mpr ⟨s, hname⟩

theorem ofLabel?_label : ModuleStage.ofLabel? s.label = some s := by
  cases s <;> rfl

/-- A module that is placed keeps every list's names. -/
theorem names_add_of_placed
    (h : c.isPlaced a.name = true) :
    ((c.add a).modules s).map (·.name) = (c.modules s).map (·.name) ∧
      ((c.add a).modules s).filter (fun e => e.name ≠ a.name) =
        (c.modules s).filter fun e => e.name ≠ a.name := by
  unfold add addModule
  cases hfind : ModuleStage.all.find?
      (fun s => (c.modules s).any fun e => e.name = a.name) with
  | none =>
      have hnone := List.find?_eq_none.mp hfind
      obtain ⟨s, hs, hany⟩ := List.any_eq_true.mp h
      exact absurd hany (hnone s hs)
  | some s' =>
      simp only [modules_setModules]
      split
      · rename_i hs
        subst hs
        exact ⟨map_name_refreshPriority, filter_refreshPriority⟩
      · exact ⟨rfl, rfl⟩

/-- A new module is sorted into the list of its stage. -/
theorem modules_add_of_new
    (h : c.isPlaced a.name = false) :
    (c.add a).modules s =
      if s = a.stage then sortByPriority (c.modules a.stage ++ [⟨a.name, a.priority⟩])
      else c.modules s := by
  have hfind : ModuleStage.all.find?
      (fun s => (c.modules s).any fun e => e.name = a.name) = none :=
    List.find?_eq_none.mpr fun s hs hany => by
      have hplaced : c.isPlaced a.name = true := List.any_eq_true.mpr ⟨s, hs, hany⟩
      rw [h] at hplaced
      cases hplaced
  simp only [add, addModule, hfind, ofLabel?_label, modules_setModules]

theorem ne_of_not_placed
    (h : c.isPlaced name = false) :
    ∀ e ∈ c.modules s, e.name ≠ name := by
  rintro e he rfl
  have hplaced := isPlaced_iff.mpr ⟨s, List.mem_map_of_mem he⟩
  rw [h] at hplaced
  cases hplaced

/-- No addition takes a name out of a list. -/
theorem mem_names_add
    (h : name ∈ (c.modules s).map (·.name)) :
    name ∈ ((c.add a).modules s).map (·.name) := by
  cases hplaced : c.isPlaced a.name with
  | true => rwa [(names_add_of_placed hplaced).1]
  | false =>
      rw [modules_add_of_new hplaced]
      split
      · rename_i hs
        subst hs
        rw [(perm_sortByPriority.map _).mem_iff, List.map_append]
        exact List.mem_append_left _ h
      · exact h

theorem isPlaced_add
    (h : c.isPlaced name = true) :
    (c.add a).isPlaced name = true := by
  obtain ⟨s, hs⟩ := isPlaced_iff.mp h
  exact isPlaced_iff.mpr ⟨s, mem_names_add hs⟩

/-- What is placed stays placed. -/
theorem isPlaced_after
    (hearlier : earlier <+: later)
    (h : (c.after earlier).isPlaced name = true) :
    (c.after later).isPlaced name = true := by
  induction later using List.reverseRecOn with
  | nil => rwa [List.prefix_nil.mp hearlier] at h
  | append_singleton later a ih =>
      rcases List.prefix_concat_iff.mp hearlier with rfl | hearlier
      · exact h
      · rw [after_concat]
        exact isPlaced_add (ih hearlier)

/-- An addition leaves the other entries alone exactly if it refreshes a priority
or goes to a list that is in order. -/
theorem filter_add_iff :
    (∀ s, ((c.add a).modules s).filter (fun e => e.name ≠ a.name) =
      (c.modules s).filter fun e => e.name ≠ a.name) ↔
      (c.isPlaced a.name = false →
        (c.modules a.stage).Pairwise fun e e' => e.priority ≤ e'.priority) := by
  cases hplaced : c.isPlaced a.name with
  | true =>
      exact iff_of_true (fun s => (names_add_of_placed hplaced).2) fun h => by cases h
  | false =>
      have hall : ∀ s, (c.modules s).filter (fun e => e.name ≠ a.name) = c.modules s :=
        fun s => List.filter_eq_self.mpr fun e he => by
          simpa using ne_of_not_placed hplaced e he
      have hiff := filter_sortByPriority_iff (e := ⟨a.name, a.priority⟩)
        (ne_of_not_placed hplaced (s := a.stage))
      constructor
      · intro h _
        have hstage := h a.stage
        rw [hall, modules_add_of_new hplaced, if_pos rfl] at hstage
        exact hiff.mp hstage
      · intro h s
        rw [hall, modules_add_of_new hplaced]
        split
        · rename_i hs
          subst hs
          exact hiff.mpr (h rfl)
        · exact hall s

/-- What an addition leaves of the names that were placed. -/
theorem names_add_filter
    {p : String → Bool}
    (hothers : ((c.add a).modules s).filter (fun e => e.name ≠ a.name) =
      (c.modules s).filter fun e => e.name ≠ a.name)
    (hp : c.isPlaced a.name = false → p a.name = false) :
    (((c.add a).modules s).map (·.name)).filter p =
      ((c.modules s).map (·.name)).filter p := by
  cases hplaced : c.isPlaced a.name with
  | true => rw [(names_add_of_placed hplaced).1]
  | false =>
      have hcut : ∀ entries : List ModuleEntry,
          (entries.map (·.name)).filter p =
            (((entries.filter fun e => e.name ≠ a.name)).map (·.name)).filter p := by
        intro entries
        rw [List.filter_map, List.filter_map, List.filter_filter]
        congr 2
        funext e
        by_cases hname : e.name = a.name
        · simp [hname, hp hplaced]
        · simp [hname]
      rw [hcut, hcut (c.modules s), hothers]

/-- As long as the other entries stay, the names that are placed keep their places
and their order. -/
theorem names_after
    (hothers : ∀ before a, before ++ [a] <+: adds → ∀ s,
      ((c.after (before ++ [a])).modules s).filter (fun e => e.name ≠ a.name) =
        ((c.after before).modules s).filter fun e => e.name ≠ a.name)
    (hearlier : earlier <+: later)
    (hlater : later <+: adds) :
    (((c.after later).modules s).map (·.name)).filter (c.after earlier).isPlaced =
      ((c.after earlier).modules s).map (·.name) := by
  induction later using List.reverseRecOn with
  | nil =>
      rw [List.prefix_nil.mp hearlier]
      exact filter_isPlaced
  | append_singleton later a ih =>
      rcases List.prefix_concat_iff.mp hearlier with rfl | hearlier
      · exact filter_isPlaced
      · have hstep := hothers later a hlater s
        rw [after_concat] at hstep ⊢
        rw [names_add_filter hstep, ih hearlier ((List.prefix_append _ _).trans hlater)]
        intro hnew
        by_contra hplaced
        rw [isPlaced_after hearlier (Bool.not_eq_false _ ▸ hplaced)] at hnew
        cases hnew

/-- Right after its addition a new module is placed once, in the list of its
stage. -/
theorem count_add_of_new
    (h : c.isPlaced a.name = false) :
    (((c.add a).modules s).map (·.name)).count a.name = if s = a.stage then 1 else 0 := by
  have hzero : ∀ s, ((c.modules s).map (·.name)).count a.name = 0 := by
    intro s
    rw [List.count_eq_zero]
    intro hmem
    obtain ⟨e, he, hname⟩ := List.mem_map.mp hmem
    exact ne_of_not_placed h e he hname
  rw [modules_add_of_new h]
  split
  · rw [(perm_sortByPriority.map _).count_eq, List.map_append, List.count_append, hzero]
    simp
  · exact hzero s

end Config

end Additions

/-- Along additions at valid positions every arrangement is kept exactly if each
module that is new goes to a list that is in order of priority. -/
theorem keepsArrangement_iff_addsToSorted
    (c : Config)
    (adds : List ModuleAddition) :
    KeepsArrangement c adds ↔ AddsToSorted c adds := by
  constructor
  · intro h before a hadd
    refine Config.filter_add_iff.mp fun s => ?_
    rw [← Config.after_concat]
    exact h.others before a hadd s
  · intro h
    have hothers : ∀ before a, before ++ [a] <+: adds → ∀ s,
        ((c.after (before ++ [a])).modules s).filter (fun e => e.name ≠ a.name) =
          ((c.after before).modules s).filter fun e => e.name ≠ a.name := by
      intro before a hadd
      rw [Config.after_concat]
      exact Config.filter_add_iff.mpr (h before a hadd)
    refine ⟨hothers, fun earlier later hearlier hlater s =>
      Config.names_after hothers hearlier hlater, ?_⟩
    intro before a later hadd hlater hnew s
    have hcount := Config.count_add_of_new (s := s) hnew
    rw [← Config.after_concat] at hcount
    rw [← hcount, ← Config.names_after (s := s) hothers hadd hlater]
    refine (List.count_filter ?_).symm
    refine Config.isPlaced_iff.mpr ⟨a.stage, ?_⟩
    have hself := Config.count_add_of_new (s := a.stage) hnew
    rw [if_pos rfl, ← Config.after_concat] at hself
    exact List.count_pos_iff.mp (by omega)

section Files

variable {readF32 : ReadFloat32} {c config : Config} {a : ModuleAddition}
variable {adds : List ModuleAddition}

theorem mem_refreshPriority
    {entries : List ModuleEntry} {e : ModuleEntry} {name : String} {priority : Int}
    (h : e ∈ refreshPriority name priority entries) :
    e ∈ entries ∨ e.priority = priority := by
  induction entries with
  | nil => exact absurd h List.not_mem_nil
  | cons e' entries ih =>
      rw [refreshPriority] at h
      split at h
      · rcases List.mem_cons.mp h with rfl | h
        · exact Or.inr rfl
        · exact Or.inl (List.mem_cons_of_mem _ h)
      · rcases List.mem_cons.mp h with rfl | h
        · exact Or.inl List.mem_cons_self
        · exact (ih h).imp_left (List.mem_cons_of_mem _)

/-- An addition sets no priority but its own, and no other field. -/
theorem mem_modules_add
    {e : ModuleEntry} {s : ModuleStage}
    (h : e ∈ (c.add a).modules s) :
    e ∈ c.modules s ∨ e.priority = a.priority := by
  unfold Config.add Config.addModule at h
  split at h
  · rename_i s' hs'
    rw [Config.modules_setModules] at h
    split at h
    · rename_i hs
      subst hs
      exact mem_refreshPriority h
    · exact Or.inl h
  · rw [Config.ofLabel?_label] at h
    simp only [Config.modules_setModules] at h
    split at h
    · rename_i hs
      subst hs
      rcases List.mem_append.mp (perm_sortByPriority.mem_iff.mp h) with h | h
      · exact Or.inl h
      · rw [List.mem_singleton.mp h]
        exact Or.inr rfl
    · exact Or.inl h

theorem severity_add : (c.add a) .logMinSeverity = c .logMinSeverity := by
  obtain ⟨s, entries, hset⟩ : ∃ s entries, c.add a = c.setModules s entries := by
    unfold Config.add Config.addModule
    split
    · exact ⟨_, _, rfl⟩
    · rw [Config.ofLabel?_label]
      exact ⟨_, _, rfl⟩
  rw [hset]
  cases s <;> rfl

theorem Config.Writable.add
    (h : c.Writable readF32)
    (ha : -2 ^ 31 ≤ a.priority ∧ a.priority < 2 ^ 31) :
    (c.add a).Writable readF32 where
  severity := by
    rw [severity_add]
    exact h.severity
  priorities s e he := by
    rcases mem_modules_add he with he | hpriority
    · exact h.priorities s e he
    · rwa [hpriority]

/-- A connect with a file that was written moves the file as it moves the
settings. -/
theorem addModuleToConfig_written
    (h : c.Writable readF32) :
    addModuleToConfig readF32 config (some (.pretty c.encode)) a.name a.stage.label
        a.priority true =
      (c.add a, some (.pretty (c.add a).encode)) :=
  updateConfig_of_read ((Config.ofText_pretty c.encode).trans (Config.decode_encode h))

/-- So do connects one after the other. -/
theorem addModulesToConfig_written
    (h : c.Writable readF32)
    (hadds : ∀ a ∈ adds, -2 ^ 31 ≤ a.priority ∧ a.priority < 2 ^ 31) :
    adds.foldl (fun r a => addModuleToConfig readF32 r.1 r.2 a.name a.stage.label
        a.priority true) (c, some (.pretty c.encode)) =
      (c.after adds, some (.pretty (c.after adds).encode)) := by
  induction adds generalizing c with
  | nil => rfl
  | cons a adds ih =>
      rw [List.foldl_cons, addModuleToConfig_written h]
      exact ih (h.add (hadds a List.mem_cons_self))
        fun a ha => hadds a (List.mem_cons_of_mem _ ha)

end Files

section Reordering

/-- The operator has put an urgent module behind one that can wait. -/
def arranged : Config :=
  factoryConfig.setModules .input [⟨"twitch", 200⟩, ⟨"kick", 100⟩]

/-- A module that connects for the first time moves them. -/
theorem not_keepsArrangement_arranged :
    ¬ KeepsArrangement arranged [⟨"youtube", .input, 150⟩] := by
  intro h
  have hothers := h.others [] ⟨"youtube", .input, 150⟩ List.prefix_rfl
  simp only [List.nil_append] at hothers
  have hsorted := (Config.filter_add_iff (c := arranged)
    (a := ⟨"youtube", .input, 150⟩)).mp hothers (by decide)
  exact absurd hsorted (by decide)

end Reordering

end CockatielEngine
