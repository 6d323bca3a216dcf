import CockatielEngine.Blocks.BlockCache
import CockatielEngine.Config.AutoConfig
import CockatielEngine.Maps.Bindings

/-!
# Registry: finding the modules on disk

The walk over the module search paths.  A directory with a manifest is a leaf,
whether its manifest loads or not; a directory without one is searched in turn.
The first manifest of a name wins and the others are reported, as is everything
that cannot be read.

A directory is a list of what the reading of it brings, each entry with what
lies inside it; the order is the file system's own.

**Main results.**
* The registry has exactly the launchable modules that no other manifest lies
  above, one of each name; the walk succeeds exactly when nothing was wrong and no
  two of them share a name.
* The order in which directories are read changes neither the names that are
  found nor whether the walk succeeds, and when it does, not the registry either.
-/

namespace CockatielEngine

structure ModuleManifest where
  name : String
  kind : String := ""
  capabilities : String := ""

/-- What the reading of a manifest that is there brings. -/
inductive ManifestFile where
  | vanished
  | unreadable (error : String)
  | invalid (error : String)
  | parsed (m : ModuleManifest)

/-- One entry of a directory that is being read. -/
inductive DirEntry where
  | failed (error : String)
  | file
  /-- A directory, with its manifest, if it has one, and the error that its own
  reading ends with, if it cannot be read. -/
  | dir (path : String) (manifest : Option ManifestFile) (readError : Option String)

/-- The entries of a directory, each with what lies inside it. -/
inductive Listing where
  | done
  | entry (e : DirEntry) (inside rest : Listing)

/-- A module search path. -/
inductive SearchPath where
  | absent
  | notDirectory (path : String)
  | root (path : String) (readError : Option String) (inside : Listing)

/-- The modules that have been found; no two have one name. -/
structure DiscoveredRegistry where
  modules : List DiscoveredModule := []
  names : (modules.map (·.name)).Nodup := by simp

namespace DiscoveredRegistry

def get (r : DiscoveredRegistry) (name : String) : Option DiscoveredModule :=
  r.modules.find? fun m => m.name = name

theorem get_eq_none_iff
    {r : DiscoveredRegistry} {name : String} :
    r.get name = none ↔ name ∉ r.modules.map (·.name) := by
  simp [get]

/-- Insert a module under a name that is vacant. -/
def insertVacant (r : DiscoveredRegistry) (m : DiscoveredModule)
    (h : r.get m.name = none) : DiscoveredRegistry where
  modules := r.modules ++ [m]
  names := by
    rw [List.map_append, List.nodup_append]
    refine ⟨r.names, List.nodup_singleton _, ?_⟩
    rintro name hname other hother rfl
    obtain rfl := List.mem_singleton.mp hother
    exact get_eq_none_iff.mp h hname

end DiscoveredRegistry

/-- The registry and the errors that a walk collects. -/
structure Discovery where
  registry : DiscoveredRegistry
  errors : List String := []

def manifestPath (directory : String) : String :=
  s!"{directory}/cockatiel_module_info.json"

def loadManifest (directory : String) :
    ManifestFile → Except String (Option DiscoveredModule)
  | .vanished => .ok none
  | .unreadable error => .error s!"Could not read {manifestPath directory}: {error}"
  | .invalid error =>
      .error s!"Invalid module manifest {manifestPath directory}: {error}"
  | .parsed m =>
      if trimmed m.name = "" then
        .error s!"Module manifest {manifestPath directory} has an empty name"
      else if m.kind ≠ "" ∧ m.kind ≠ "module" then .ok none
      else .ok (some ⟨m.name, m.capabilities, directory⟩)

namespace Discovery

def report (d : Discovery) (error : String) : Discovery :=
  { d with errors := d.errors ++ [error] }

/-- The first module of a name is kept. -/
def collect (d : Discovery) (m : DiscoveredModule) : Discovery :=
  if h : d.registry.get m.name = none then
    { d with registry := d.registry.insertVacant m h }
  else d.report s!"Duplicate module manifest for '{m.name}': {m.directory}"

def take (d : Discovery) : Except String (Option DiscoveredModule) → Discovery
  | .ok (some m) => d.collect m
  | .ok none => d
  | .error error => d.report error

end Discovery

def unreadableDirectory (path error : String) : String :=
  s!"Could not read module directory {path}: {error}"

/-- Walk the entries of a directory. -/
def discoverIn : Listing → Discovery → Discovery
  | .done, d => d
  | .entry (.failed error) _ rest, d =>
      discoverIn rest (d.report s!"Could not read module directory entry: {error}")
  | .entry .file _ rest, d => discoverIn rest d
  | .entry (.dir path (some manifest) _) _ rest, d =>
      discoverIn rest (d.take (loadManifest path manifest))
  | .entry (.dir path none (some error)) _ rest, d =>
      discoverIn rest (d.report (unreadableDirectory path error))
  | .entry (.dir _ none none) inside rest, d => discoverIn rest (discoverIn inside d)

def discoverPath (d : Discovery) : SearchPath → Discovery
  | .absent => d
  | .notDirectory path =>
      d.report s!"Module search path is not a directory: {path}"
  | .root path (some error) _ => d.report (unreadableDirectory path error)
  | .root _ none inside => discoverIn inside d

/-- Walk the search paths into the registry. -/
def DiscoveredRegistry.discover (r : DiscoveredRegistry) (roots : List SearchPath) :
    Except (List String) Unit × DiscoveredRegistry :=
  let d := roots.foldl discoverPath { registry := r }
  (if d.errors.isEmpty then .ok () else .error d.errors, d.registry)

section Meaning

/-- What an entry brings by itself. -/
def DirEntry.load : DirEntry → Except String (Option DiscoveredModule)
  | .failed error => .error s!"Could not read module directory entry: {error}"
  | .file => .ok none
  | .dir path (some manifest) _ => loadManifest path manifest
  | .dir path none (some error) => .error (unreadableDirectory path error)
  | .dir _ none none => .ok none

/-- The entry is a directory that is searched in turn. -/
def DirEntry.searched : DirEntry → Bool
  | .dir _ none none => true
  | _ => false

/-- The module is launchable, and no manifest lies above its own. -/
inductive Topmost (m : DiscoveredModule) : Listing → Prop
  | here {e : DirEntry} {inside rest : Listing} :
      e.load = .ok (some m) → Topmost m (.entry e inside rest)
  | inside {e : DirEntry} {inside rest : Listing} :
      e.searched = true → Topmost m inside → Topmost m (.entry e inside rest)
  | rest {e : DirEntry} {inside rest : Listing} :
      Topmost m rest → Topmost m (.entry e inside rest)

/-- Something in the listing cannot be read or loaded. -/
inductive Faulty : Listing → Prop
  | here {e : DirEntry} {inside rest : Listing} {error : String} :
      e.load = .error error → Faulty (.entry e inside rest)
  | inside {e : DirEntry} {inside rest : Listing} :
      e.searched = true → Faulty inside → Faulty (.entry e inside rest)
  | rest {e : DirEntry} {inside rest : Listing} :
      Faulty rest → Faulty (.entry e inside rest)

/-- The modules that a walk comes upon, in its order. -/
def Listing.found : Listing → List DiscoveredModule
  | .done => []
  | .entry e inside rest =>
      ((e.load.toOption.join).toList ++ if e.searched then inside.found else []) ++
        rest.found

/-- The module is launchable, and no manifest lies between it and the path. -/
def SearchPath.Topmost (m : DiscoveredModule) : SearchPath → Prop
  | .root _ none inside => CockatielEngine.Topmost m inside
  | _ => False

def SearchPath.found : SearchPath → List DiscoveredModule
  | .root _ none inside => inside.found
  | _ => []

def SearchPath.Faulty : SearchPath → Prop
  | .absent => False
  | .notDirectory _ => True
  | .root _ (some _) _ => True
  | .root _ none inside => CockatielEngine.Faulty inside

/-- The same directories, read in another order. -/
inductive Reordered : Listing → Listing → Prop
  | done : Reordered .done .done
  | entry {e : DirEntry} {inside inside' rest rest' : Listing} :
      Reordered inside inside' → Reordered rest rest' →
      Reordered (.entry e inside rest) (.entry e inside' rest')
  | swap {e e' : DirEntry} {inside inside' rest : Listing} :
      Reordered (.entry e inside (.entry e' inside' rest))
        (.entry e' inside' (.entry e inside rest))
  | trans {l l' l'' : Listing} :
      Reordered l l' → Reordered l' l'' → Reordered l l''

inductive SearchPath.Reordered : SearchPath → SearchPath → Prop
  | same {p : SearchPath} : SearchPath.Reordered p p
  | inside {path : String} {error : Option String} {inside inside' : Listing} :
      CockatielEngine.Reordered inside inside' →
      SearchPath.Reordered (.root path error inside) (.root path error inside')

end Meaning

section Walk

variable {d d' d'' : Discovery} {l l' inside rest : Listing} {e : DirEntry}
variable {found found' : List DiscoveredModule} {faulty faulty' : Prop}
variable {m : DiscoveredModule} {p p' : SearchPath}

theorem DiscoveredRegistry.mem_modules_iff
    {r : DiscoveredRegistry} :
    m ∈ r.modules ↔ r.get m.name = some m := by
  constructor
  · intro hm
    obtain ⟨m', hm'⟩ : ∃ m', r.get m.name = some m' :=
      Option.ne_none_iff_exists'.mp fun hnone =>
        get_eq_none_iff.mp hnone (List.mem_map_of_mem hm)
    have hname : m'.name = m.name := by simpa using List.find?_some hm'
    rw [hm', List.inj_on_of_nodup_map r.names (List.mem_of_find?_eq_some hm') hm hname]
  · exact List.mem_of_find?_eq_some

/-- Part of a walk comes upon these modules, and upon something faulty or not. -/
structure Collects (d d' : Discovery) (found : List DiscoveredModule)
    (faulty : Prop) : Prop where
  get : ∀ name, d'.registry.get name =
    (d.registry.get name).or (found.find? fun m => m.name = name)
  clean : d'.errors = [] ↔
    d.errors = [] ∧ ¬ faulty ∧ ((d.registry.modules ++ found).map (·.name)).Nodup
  modules : d'.errors = [] → d'.registry.modules = d.registry.modules ++ found

namespace Collects

theorem nothing : Collects d d [] False where
  get name := by simp
  clean := by simpa using fun _ => d.registry.names
  modules _ := by simp

theorem trans
    (h : Collects d d' found faulty)
    (h' : Collects d' d'' found' faulty') :
    Collects d d'' (found ++ found') (faulty ∨ faulty') where
  get name := by
    rw [h'.get, h.get, List.find?_append, Option.or_assoc]
  clean := by
    constructor
    · intro hclean
      obtain ⟨hclean', hfaulty', hnames⟩ := h'.clean.mp hclean
      obtain ⟨herrors, hfaulty, -⟩ := h.clean.mp hclean'
      rw [h.modules hclean', List.append_assoc] at hnames
      exact ⟨herrors, not_or.mpr ⟨hfaulty, hfaulty'⟩, hnames⟩
    · rintro ⟨herrors, hfaulty, hnames⟩
      rw [← List.append_assoc] at hnames
      have hbefore : ((d.registry.modules ++ found).map (·.name)).Nodup :=
        hnames.sublist ((List.sublist_append_left _ _).map _)
      have hclean' : d'.errors = [] :=
        h.clean.mpr ⟨herrors, (not_or.mp hfaulty).1, hbefore⟩
      rw [← h.modules hclean'] at hnames
      exact h'.clean.mpr ⟨hclean', (not_or.mp hfaulty).2, hnames⟩
  modules hclean := by
    rw [h'.modules hclean, h.modules (h'.clean.mp hclean).1, List.append_assoc]

theorem congr
    (h : Collects d d' found faulty)
    (hfaulty : faulty ↔ faulty') :
    Collects d d' found faulty' :=
  ⟨h.get, by rw [← hfaulty]; exact h.clean, h.modules⟩

theorem report {error : String} :
    Collects d (d.report error) [] True where
  get name := by simp [Discovery.report]
  clean := by simp [Discovery.report]
  modules herrors := by simp [Discovery.report] at herrors

theorem collect : Collects d (d.collect m) [m] False := by
  unfold Discovery.collect
  split
  · rename_i hvacant
    refine ⟨fun name => ?_, ?_, fun _ => rfl⟩
    · exact List.find?_append ..
    · have hnames := (d.registry.insertVacant m hvacant).names
      exact ⟨fun herrors => ⟨herrors, id, hnames⟩, fun h => h.1⟩
  · rename_i htaken
    refine ⟨fun name => ?_, ?_, fun herrors => ?_⟩
    · by_cases hname : m.name = name
      · obtain ⟨m', hm'⟩ := Option.ne_none_iff_exists'.mp htaken
        rw [← hname]
        simp [Discovery.report, hm']
      · simp [Discovery.report, hname]
    · have htwice : ¬ ((d.registry.modules ++ [m]).map (·.name)).Nodup := by
        intro hnames
        rw [List.map_append, List.nodup_append] at hnames
        apply htaken
        rw [DiscoveredRegistry.get_eq_none_iff]
        intro hmem
        exact hnames.2.2 _ hmem _ List.mem_cons_self rfl
      simp only [Discovery.report, htwice, and_false, iff_false]
      exact List.append_ne_nil_of_right_ne_nil _ (List.cons_ne_nil _ _)
    · exact absurd herrors (List.append_ne_nil_of_right_ne_nil _ (List.cons_ne_nil _ _))

/-- What one entry brings by itself. -/
theorem take (x : Except String (Option DiscoveredModule)) :
    Collects d (d.take x) x.toOption.join.toList (∃ error, x = .error error) := by
  cases x with
  | error error => exact report.congr (by simp)
  | ok found =>
      cases found with
      | none => exact nothing.congr (by simp)
      | some m => exact collect.congr (by simp)

end Collects

/-- An entry is loaded, then what lies inside it is walked, then the rest. -/
theorem discoverIn_entry :
    discoverIn (.entry e inside rest) d =
      discoverIn rest (if e.searched then discoverIn inside (d.take e.load)
        else d.take e.load) := by
  cases e with
  | failed error => rfl
  | file => rfl
  | dir path manifest readError =>
      cases manifest with
      | some manifest => rfl
      | none => cases readError <;> rfl

theorem faulty_entry_iff :
    Faulty (.entry e inside rest) ↔
      ((∃ error, e.load = .error error) ∨ e.searched = true ∧ Faulty inside) ∨
        Faulty rest := by
  constructor
  · intro h
    cases h with
    | here herror => exact .inl (.inl ⟨_, herror⟩)
    | inside hsearched hinside => exact .inl (.inr ⟨hsearched, hinside⟩)
    | rest hrest => exact .inr hrest
  · rintro ((⟨error, herror⟩ | ⟨hsearched, hinside⟩) | hrest)
    · exact .here herror
    · exact .inside hsearched hinside
    · exact .rest hrest

theorem mem_found_iff : m ∈ l.found ↔ Topmost m l := by
  induction l with
  | done =>
      constructor
      · intro h
        cases h
      · intro h
        cases h
  | entry e inside rest ihInside ihRest =>
      have hload : m ∈ e.load.toOption.join.toList ↔ e.load = .ok (some m) := by
        cases hload : e.load with
        | error error => simp [Except.toOption]
        | ok found => simp [Except.toOption]
      simp only [Listing.found, List.mem_append, hload]
      constructor
      · rintro ((hhere | hinside) | hrest)
        · exact .here hhere
        · split at hinside
          · rename_i hsearched
            exact .inside hsearched (ihInside.mp hinside)
          · cases hinside
        · exact .rest (ihRest.mp hrest)
      · intro h
        cases h with
        | here hhere => exact .inl (.inl hhere)
        | inside hsearched hinside =>
            refine .inl (.inr ?_)
            rw [if_pos hsearched]
            exact ihInside.mpr hinside
        | rest hrest => exact .inr (ihRest.mpr hrest)

/-- The walk collects what its listing has. -/
theorem collects_discoverIn (l : Listing) :
    ∀ d, Collects d (discoverIn l d) l.found (Faulty l) := by
  induction l with
  | done => exact fun d => Collects.nothing.congr ⟨False.elim, fun h => by cases h⟩
  | entry e inside rest ihInside ihRest =>
      intro d
      rw [discoverIn_entry]
      refine (Collects.trans ?_ (ihRest _)).congr faulty_entry_iff.symm
      split
      · rename_i hsearched
        exact ((Collects.take e.load).trans (ihInside _)).congr (by simp [hsearched])
      · rename_i hsearched
        rw [List.append_nil]
        exact (Collects.take e.load).congr (by simp [hsearched])

theorem collects_discoverPath (p : SearchPath) :
    Collects d (discoverPath d p) p.found p.Faulty := by
  cases p with
  | absent => exact Collects.nothing
  | notDirectory path => exact Collects.report
  | root path readError inside =>
      cases readError with
      | some error => exact Collects.report
      | none => exact collects_discoverIn inside d

theorem collects_foldl (roots : List SearchPath) :
    ∀ d, Collects d (roots.foldl discoverPath d) (roots.flatMap SearchPath.found)
      (∃ p ∈ roots, p.Faulty) := by
  induction roots with
  | nil => exact fun d => Collects.nothing.congr (by simp)
  | cons p roots ih =>
      exact fun d => ((collects_discoverPath p).trans (ih _)).congr (by simp)

/-- What the walk of some search paths ends with. -/
structure Finds (roots : List SearchPath) (outcome : Except (List String) Unit)
    (r : DiscoveredRegistry) : Prop where
  sound : ∀ m ∈ r.modules, ∃ p ∈ roots, p.Topmost m
  complete : ∀ p ∈ roots, ∀ m, p.Topmost m → ∃ m' ∈ r.modules, m'.name = m.name
  first : ∀ name, r.get name =
    (roots.flatMap SearchPath.found).find? fun m => m.name = name
  succeeds : outcome = .ok () ↔
    (∀ p ∈ roots, ¬ p.Faulty) ∧
      ((roots.flatMap SearchPath.found).map (·.name)).Nodup

theorem mem_searchPath_found_iff : m ∈ p.found ↔ p.Topmost m := by
  cases p with
  | root path readError inside =>
      cases readError with
      | none => exact mem_found_iff
      | some error => simp [SearchPath.found, SearchPath.Topmost]
  | _ => simp [SearchPath.found, SearchPath.Topmost]

theorem discover_ok_iff (roots : List SearchPath) (r : DiscoveredRegistry) :
    (r.discover roots).1 = .ok () ↔
      (roots.foldl discoverPath { registry := r }).errors = [] := by
  simp only [DiscoveredRegistry.discover]
  cases herrors : (roots.foldl discoverPath { registry := r }).errors with
  | nil => simp
  | cons error errors => simp

/-- A name finds the first topmost module that has it. -/
theorem get_discover (roots : List SearchPath) (name : String) :
    (({} : DiscoveredRegistry).discover roots).2.get name =
      (roots.flatMap SearchPath.found).find? fun m => m.name = name :=
  ((collects_foldl roots { registry := {} }).get name).trans (Option.none_or ..)

theorem discover_succeeds_iff (roots : List SearchPath) :
    (({} : DiscoveredRegistry).discover roots).1 = .ok () ↔
      (∀ p ∈ roots, ¬ p.Faulty) ∧
        ((roots.flatMap SearchPath.found).map (·.name)).Nodup := by
  rw [discover_ok_iff, (collects_foldl roots { registry := {} }).clean]
  simp

/-- The registry has exactly the launchable modules that lie topmost, the first
of each name, and a walk that finds fault with nothing finds no name twice. -/
theorem discover_finds (roots : List SearchPath) :
    Finds roots (({} : DiscoveredRegistry).discover roots).1
      (({} : DiscoveredRegistry).discover roots).2 := by
  refine ⟨?_, ?_, get_discover roots, discover_succeeds_iff roots⟩
  · intro m hm
    have hfound := List.mem_of_find?_eq_some
      ((get_discover roots m.name).symm.trans (DiscoveredRegistry.mem_modules_iff.mp hm))
    obtain ⟨p, hp, hmp⟩ := List.mem_flatMap.mp hfound
    exact ⟨p, hp, mem_searchPath_found_iff.mp hmp⟩
  · intro p hp m hm
    have hmem : m ∈ roots.flatMap SearchPath.found :=
      List.mem_flatMap.mpr ⟨p, hp, mem_searchPath_found_iff.mpr hm⟩
    obtain ⟨m', hm'⟩ := Option.isSome_iff_exists.mp
      (List.find?_isSome.mpr ⟨m, hmem, decide_eq_true rfl⟩ :
        ((roots.flatMap SearchPath.found).find? fun m' => m'.name = m.name).isSome)
    have hname : m'.name = m.name := by simpa using List.find?_some hm'
    have hget := (get_discover roots m.name).trans hm'
    exact ⟨m', List.mem_of_find?_eq_some hget, hname⟩

end Walk

section Order

variable {l l' : Listing} {p p' : SearchPath} {roots roots' : List SearchPath}

theorem Reordered.found_perm (h : Reordered l l') : l.found.Perm l'.found := by
  induction h with
  | done => exact .refl _
  | @entry e inside inside' rest rest' _ _ ihInside ihRest =>
      refine List.Perm.append (List.Perm.append_left _ ?_) ihRest
      split
      · exact ihInside
      · exact .refl _
  | swap => exact List.perm_append_comm_assoc ..
  | trans _ _ ih ih' => exact ih.trans ih'

theorem Reordered.faulty_iff (h : Reordered l l') : Faulty l ↔ Faulty l' := by
  induction h with
  | done => exact .rfl
  | entry _ _ ihInside ihRest => rw [faulty_entry_iff, faulty_entry_iff, ihInside, ihRest]
  | swap =>
      simp only [faulty_entry_iff]
      exact or_left_comm
  | trans _ _ ih ih' => exact ih.trans ih'

theorem SearchPath.Reordered.found_perm (h : p.Reordered p') : p.found.Perm p'.found := by
  cases h with
  | same => exact .refl _
  | @inside path error inside inside' hinside =>
      cases error with
      | none => exact hinside.found_perm
      | some error => exact .refl _

theorem SearchPath.Reordered.faulty_iff (h : p.Reordered p') : p.Faulty ↔ p'.Faulty := by
  cases h with
  | same => exact .rfl
  | @inside path error inside inside' hinside =>
      cases error with
      | none => exact hinside.faulty_iff
      | some error => exact .rfl

theorem found_perm_of_reordered
    (h : List.Forall₂ SearchPath.Reordered roots roots') :
    (roots.flatMap SearchPath.found).Perm (roots'.flatMap SearchPath.found) := by
  induction h with
  | nil => exact .refl _
  | cons hp _ ih => exact hp.found_perm.append ih

theorem faulty_iff_of_reordered
    (h : List.Forall₂ SearchPath.Reordered roots roots') :
    (∀ p ∈ roots, ¬ p.Faulty) ↔ ∀ p ∈ roots', ¬ p.Faulty := by
  induction h with
  | nil => simp
  | cons hp _ ih => simp only [List.forall_mem_cons, hp.faulty_iff, ih]

/-- Without two of one name, the order of a list does not matter to what a name
finds. -/
theorem find?_name_perm
    {found found' : List DiscoveredModule}
    (hnames : (found.map (·.name)).Nodup)
    (hperm : found.Perm found')
    (name : String) :
    (found.find? fun m => m.name = name) = found'.find? fun m => m.name = name := by
  have hkeys (l : List DiscoveredModule) :
      (l.find? fun m => m.name = name) =
        Bindings.lookup (l.map fun m => (m.name, m)) name := by
    simp [Bindings.lookup, List.find?_map, Function.comp_def]
  rw [hkeys, hkeys]
  refine (Bindings.lookup_perm ?_ (hperm.symm.map _)).symm
  simpa [Function.comp_def] using hnames

/-- The order in which directories are read matters only to which of two modules
of one name is kept, and then the walk reports it. -/
theorem discover_reordered
    (h : List.Forall₂ SearchPath.Reordered roots roots') :
    ((({} : DiscoveredRegistry).discover roots).1 = .ok () ↔
      (({} : DiscoveredRegistry).discover roots').1 = .ok ()) ∧
    (∀ name, ((({} : DiscoveredRegistry).discover roots).2.get name).isSome =
      ((({} : DiscoveredRegistry).discover roots').2.get name).isSome) ∧
    ((({} : DiscoveredRegistry).discover roots).1 = .ok () → ∀ name,
      (({} : DiscoveredRegistry).discover roots).2.get name =
        (({} : DiscoveredRegistry).discover roots').2.get name) := by
  have hperm := found_perm_of_reordered h
  refine ⟨?_, fun name => ?_, fun hok name => ?_⟩
  · rw [discover_succeeds_iff, discover_succeeds_iff, faulty_iff_of_reordered h,
      (hperm.map _).nodup_iff]
  · rw [get_discover, get_discover, Bool.eq_iff_iff, List.find?_isSome,
      List.find?_isSome]
    simp only [hperm.mem_iff]
  · rw [get_discover, get_discover]
    exact find?_name_perm ((discover_succeeds_iff roots).mp hok).2 hperm name

/-- Two modules in one directory. -/
def readTwoModules (first second : String) : List SearchPath :=
  [.root "modules" none
    (.entry (.dir first (some (.parsed ⟨first, "module", ""⟩)) none) .done
      (.entry (.dir second (some (.parsed ⟨second, "module", ""⟩)) none) .done .done))]

theorem discover_reordered_readTwoModules :
    (({} : DiscoveredRegistry).discover (readTwoModules "a" "b")).2.get "a" =
      (({} : DiscoveredRegistry).discover (readTwoModules "b" "a")).2.get "a" :=
  have hswapped : List.Forall₂ SearchPath.Reordered (readTwoModules "a" "b")
      (readTwoModules "b" "a") :=
    .cons (.inside .swap) .nil
  (discover_reordered hswapped).2.2 rfl "a"

end Order

end CockatielEngine
