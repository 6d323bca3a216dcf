import CockatielEngine.Concurrency.TaskPool

/-!
# Registry: the file that the engine and the TUI both rewrite

A connection reads the registry file into the list the engine holds, is approved
by its entry there or by a prompt of any length, changes its own entry in that
list and writes the whole list back.  The TUI rewrites the file in between.

Beside them the state keeps, as ghosts, the entry each name was given last and a
count of the edits; every list carries, for each name, how many edits it has
seen.

**Main result.**  In every run in which each save succeeds and writes a list that
has seen the last edit of every other name, the file has, after every register,
the entry that each other name was given last.
-/

namespace CockatielEngine

open TaskPool

structure RegisteredModule where
  name : String
  instanceUuid7 : String := ""
  position : String := ""
  priority : Int := 0
  autoAuth : Bool := false
  authToken : String := ""
deriving DecidableEq, Repr

section Entries

/-- Look up a registered module by name. -/
def findModule (modules : List RegisteredModule) (name : String) :
    Option RegisteredModule :=
  modules.find? fun m => m.name = name

/-- Put an entry in the place of the one with its name, or at the end. -/
def putModule (module : RegisteredModule) :
    List RegisteredModule → List RegisteredModule
  | [] => [module]
  | m :: rest =>
      if m.name = module.name then module :: rest else m :: putModule module rest

theorem findModule_putModule
    (module : RegisteredModule) (modules : List RegisteredModule) (name : String) :
    findModule (putModule module modules) name =
      if name = module.name then some module else findModule modules name := by
  induction modules with
  | nil =>
      by_cases hname : name = module.name
      · simp [putModule, findModule, hname]
      · simp [putModule, findModule, hname, Ne.symm hname]
  | cons m rest ih =>
      by_cases hm : m.name = module.name
      · by_cases hname : name = module.name
        · simp [putModule, findModule, hm, hname]
        · simp [putModule, findModule, hm, hname, Ne.symm hname]
      · by_cases hname : m.name = name
        · subst hname
          simp [putModule, findModule, hm]
        · have hcons (l : List RegisteredModule) :
              findModule (m :: l) name = findModule l name := by
            simp [findModule, hname]
          rw [putModule, if_neg hm, hcons, hcons, ih]

end Entries

/-- The list of a file or of the engine, with the edits it has seen. -/
structure RegistryList where
  modules : List RegisteredModule := []
  seen : String → Nat := fun _ => 0

/-- The file, if it can be read, and the list in memory. -/
structure RegistryState where
  file : Option RegistryList := none
  memory : RegistryList := {}
  edits : Nat := 0
  edited : String → Nat := fun _ => 0
  given : String → Option RegisteredModule := fun _ => none
  /-- The name that the last step has saved. -/
  justRegistered : Option String := none

namespace RegistryState

variable (e : RegistryState)

def inFile (name : String) : Option RegisteredModule :=
  e.file.bind fun f => findModule f.modules name

/-- An atomic rewrite of the file by the TUI. -/
def rewrite (modules : List RegisteredModule) : RegistryState :=
  { e with
    file := some { modules, seen := fun _ => e.edits + 1 }
    edits := e.edits + 1
    edited := fun name =>
      if findModule modules name = e.given name then e.edited name else e.edits + 1
    given := findModule modules
    justRegistered := none }

/-- The entry of a registration, in memory. -/
def register (module : RegisteredModule) : RegistryState :=
  { e with
    memory :=
      { modules := putModule module e.memory.modules
        seen := Function.update e.memory.seen module.name (e.edits + 1) }
    edits := e.edits + 1
    edited := Function.update e.edited module.name (e.edits + 1)
    given := Function.update e.given module.name (some module)
    justRegistered := none }

/-- Write the list in memory to the file; an error is dropped. -/
def save (name : String) (written : Bool) : RegistryState :=
  { e with
    file := if written then some e.memory else e.file
    justRegistered := some name }

end RegistryState

def isAlwaysTrusted (name : String) : Bool :=
  name == "cockatiel-tui" || name == "cockatiel-tui-child" ||
    name == "cockatiel-test-runner"

/-- Whether a connection is approved without a prompt. -/
def autoApprove (entry : Option RegisteredModule) (module : RegisteredModule) : Bool :=
  if isAlwaysTrusted module.name then
    entry.any (fun m => m.instanceUuid7 = module.instanceUuid7) || entry.isNone
  else entry.any (·.autoAuth)

/-- The steps of a connection on the registry. -/
inductive RegistryFrame where
  | refreshRead (module : RegisteredModule)
  | refreshStore (module : RegisteredModule) (read : RegistryList)
  | find (module : RegisteredModule)
  | prompt (module : RegisteredModule)
  | register (module : RegisteredModule)
  | save (name : String)

/-- What the user decides, and whether the file could be written. -/
structure RegistryAnswer where
  accepted : Bool := true
  written : Bool := true
deriving DecidableEq, Repr

inductive RegistryEvent where
  | connect (module : RegisteredModule)
  | tuiRewrite (modules : List RegisteredModule)

abbrev RegistryPool := Pool RegistryState RegistryFrame
abbrev RegistryLabel := Label RegistryAnswer RegistryEvent

/-- A step other than a save. -/
def proceed (e : RegistryState) (fs : List RegistryFrame) :
    Outcome RegistryState RegistryFrame :=
  .thenRun { e with justRegistered := none } fs

def RegistryFrame.step (e : RegistryState) (a : RegistryAnswer) :
    RegistryFrame → Outcome RegistryState RegistryFrame
  | .refreshRead module =>
      match e.file with
      | some read => proceed e [.refreshStore module read]
      | none => proceed e [.find module]
  | .refreshStore module read => proceed { e with memory := read } [.find module]
  | .find module =>
      if autoApprove (findModule e.memory.modules module.name) module then
        proceed e [.register module]
      else proceed e [.prompt module]
  | .prompt module => proceed e (if a.accepted then [.register module] else [])
  | .register module =>
      .thenRun (e.register { module with autoAuth := true }) [.save module.name]
  | .save name => .thenRun (e.save name a.written) []

/-- The registry as a program. -/
def moduleRegistry :
    Program RegistryState RegistryFrame RegistryAnswer RegistryEvent where
  step e f a := some (f.step e a)
  catches _ := false
  event e
    | .connect module =>
        some ({ e with justRegistered := none }, [[.refreshRead module]])
    | .tuiRewrite modules => some (e.rewrite modules, [])

/-- The engine after it has loaded the file. -/
def registryStart (file : Option (List RegisteredModule)) : RegistryPool where
  shared :=
    { file := file.map fun modules => { modules }
      memory := { modules := file.getD [] }
      given := findModule (file.getD []) }
  threads := []

section Defs

/-- After a register the file has the entry that each other name was given
last. -/
def KeepsEntries (e : RegistryState) : Prop :=
  ∀ name ∈ e.justRegistered, ∀ other ≠ name, e.inFile other = e.given other

/-- A save is written, from a list that has seen the last edit of every name
other than the registered one. -/
def SavesSeenEdits (s : RegistryPool) (a : RegistryAnswer) : RegistryFrame → Prop
  | .save name => a.written = true ∧
      ∀ other ≠ name, s.shared.edited other ≤ s.shared.memory.seen other
  | _ => True

/-- A list has the last entry of every name whose last edit it has seen. -/
def SoundList (e : RegistryState) (list : RegistryList) : Prop :=
  ∀ name, list.seen name ≤ e.edits ∧
    (e.edited name ≤ list.seen name → findModule list.modules name = e.given name)

/-- The file and the list in memory are sound. -/
structure SoundRegistry (e : RegistryState) : Prop where
  file : ∀ f ∈ e.file, SoundList e f
  memory : SoundList e e.memory
  keeps : KeepsEntries e

/-- So is a list that a connection has read. -/
def SoundRead (e : RegistryState) : RegistryFrame → Prop
  | .refreshStore _ read => SoundList e read
  | _ => True

end Defs

section Steps

variable {e e' : RegistryState} {list : RegistryList} {module : RegisteredModule}
variable {modules : List RegisteredModule}

theorem SoundList.rewrite
    (h : SoundList e list) :
    SoundList (e.rewrite modules) list := by
  intro name
  obtain ⟨hle, heq⟩ := h name
  refine ⟨Nat.le_succ_of_le hle, fun hseen => ?_⟩
  change findModule list.modules name = findModule modules name
  by_cases hsame : findModule modules name = e.given name
  · rw [hsame]
    exact heq (by simpa [RegistryState.rewrite, hsame] using hseen)
  · have hlate : e.edits + 1 ≤ list.seen name := by
      simpa [RegistryState.rewrite, hsame] using hseen
    omega

/-- A list that was there before a registration misses it. -/
theorem SoundList.register
    (h : SoundList e list) :
    SoundList (e.register module) list := by
  intro name
  obtain ⟨hle, heq⟩ := h name
  refine ⟨Nat.le_succ_of_le hle, fun hseen => ?_⟩
  by_cases hname : name = module.name
  · subst hname
    have hlate : e.edits + 1 ≤ list.seen module.name := by
      simpa [RegistryState.register] using hseen
    omega
  · simp only [RegistryState.register, Function.update_of_ne hname] at hseen ⊢
    exact heq hseen

/-- The list in memory has it. -/
theorem soundList_memory_register
    (h : SoundList e e.memory) :
    SoundList (e.register module) (e.register module).memory := by
  intro name
  obtain ⟨hle, heq⟩ := h name
  by_cases hname : name = module.name
  · subst hname
    simp [RegistryState.register, findModule_putModule]
  · simp only [RegistryState.register, Function.update_of_ne hname,
      findModule_putModule, if_neg hname]
    exact ⟨Nat.le_succ_of_le hle, heq⟩

/-- Only the edits and the entries given matter. -/
theorem SoundList.congr
    (h : SoundList e list)
    (hedits : e'.edits = e.edits)
    (hedited : e'.edited = e.edited)
    (hgiven : e'.given = e.given) :
    SoundList e' list := by
  intro name
  rw [hedits, hedited, hgiven]
  exact h name

theorem soundRegistry_proceed
    (fs : List RegistryFrame)
    (h : SoundRegistry e) :
    SoundRegistry (proceed e fs).shared where
  file f hf := (h.file f hf).congr rfl rfl rfl
  memory := h.memory.congr rfl rfl rfl
  keeps := by
    intro name hname
    cases hname

theorem SoundRegistry.rewrite
    (h : SoundRegistry e) :
    SoundRegistry (e.rewrite modules) where
  file f hf := by
    obtain rfl := Option.some.inj hf
    exact fun name => ⟨le_rfl, fun _ => rfl⟩
  memory := h.memory.rewrite
  keeps := by
    intro name hname
    cases hname

theorem SoundRegistry.register
    (h : SoundRegistry e) :
    SoundRegistry (e.register module) where
  file f hf := (h.file f hf).register
  memory := soundList_memory_register h.memory
  keeps := by
    intro name hname
    cases hname

/-- Saving a list that has seen the edits of the others. -/
theorem SoundRegistry.save
    {name : String}
    (h : SoundRegistry e)
    (hseen : ∀ other ≠ name, e.edited other ≤ e.memory.seen other) :
    SoundRegistry (e.save name true) where
  file f hf := by
    obtain rfl := Option.some.inj hf
    exact h.memory.congr rfl rfl rfl
  memory := h.memory.congr rfl rfl rfl
  keeps := by
    intro saved hsaved other hne
    obtain rfl := Option.some.inj hsaved
    exact (h.memory other).2 (hseen other hne)

/-- Every step keeps the lists sound, those that have been read included. -/
theorem moduleRegistry_outline :
    ProofOutline moduleRegistry (OnRun SavesSeenEdits) SoundRegistry SoundRead where
  run := by
    intro s i a f rest o hs hok hi ho
    obtain ⟨hsound, hreads⟩ := hs
    have hf := hreads f (mem_frames_of_getElem? hi List.mem_cons_self)
    obtain rfl := Option.some.inj ho
    -- what a step other than an edit leaves of the lists that were read
    have hsame {e' : RegistryState} (hedits : e'.edits = s.shared.edits)
        (hedited : e'.edited = s.shared.edited) (hgiven : e'.given = s.shared.given) :
        ∀ g ∈ s.frames, SoundRead s.shared g → SoundRead e' g := by
      intro g _ hg
      cases g with
      | refreshStore module read => exact SoundList.congr hg hedits hedited hgiven
      | _ => trivial
    cases f with
    | refreshRead module =>
        simp only [RegistryFrame.step]
        cases hfile : s.shared.file with
        | none =>
            refine ⟨soundRegistry_proceed _ hsound, ?_, hsame rfl rfl rfl⟩
            simp [proceed, SoundRead]
        | some read =>
            refine ⟨soundRegistry_proceed _ hsound, ?_, hsame rfl rfl rfl⟩
            simp only [proceed, Outcome.new_thenRun, List.mem_singleton, forall_eq]
            exact (hsound.file read hfile).congr rfl rfl rfl
    | refreshStore module read =>
        refine ⟨?_, by simp [RegistryFrame.step, proceed, SoundRead],
          hsame rfl rfl rfl⟩
        refine soundRegistry_proceed _ ⟨?_, ?_, ?_⟩
        · exact fun f hf => (hsound.file f hf).congr rfl rfl rfl
        · exact SoundList.congr hf rfl rfl rfl
        · exact hsound.keeps
    | find module =>
        simp only [RegistryFrame.step]
        split <;>
          exact ⟨soundRegistry_proceed _ hsound, by simp [proceed, SoundRead],
            hsame rfl rfl rfl⟩
    | prompt module =>
        refine ⟨soundRegistry_proceed _ hsound, fun g hg => ?_, hsame rfl rfl rfl⟩
        cases hacc : a.accepted with
        | false => simp [RegistryFrame.step, proceed, hacc] at hg
        | true =>
            obtain rfl : g = .register module := by
              simpa [RegistryFrame.step, proceed, hacc] using hg
            trivial
    | register module =>
        refine ⟨hsound.register, by simp [RegistryFrame.step, SoundRead], ?_⟩
        intro g _ hg
        cases g with
        | refreshStore module read => exact SoundList.register hg
        | _ => trivial
    | save name =>
        obtain ⟨hwritten, hseen⟩ := hok.top hi
        refine ⟨?_, by simp [RegistryFrame.step], hsame rfl rfl rfl⟩
        simp only [RegistryFrame.step, hwritten]
        exact hsound.save hseen
  world := by
    intro s ev r hs hok hr
    obtain ⟨hsound, hreads⟩ := hs
    cases ev with
    | connect module =>
        obtain rfl := Option.some.inj hr
        refine ⟨soundRegistry_proceed [] hsound, by simp [SoundRead], ?_⟩
        intro g _ hg
        cases g with
        | refreshStore module read => exact SoundList.congr hg rfl rfl rfl
        | _ => trivial
    | tuiRewrite modules =>
        obtain rfl := Option.some.inj hr
        refine ⟨hsound.rewrite, by simp, ?_⟩
        intro g _ hg
        cases g with
        | refreshStore module read => exact SoundList.rewrite hg
        | _ => trivial

end Steps

theorem annotated_registryStart
    (file : Option (List RegisteredModule)) :
    Annotated SoundRegistry SoundRead (registryStart file) := by
  refine ⟨⟨?_, fun name => ⟨le_rfl, fun _ => rfl⟩, ?_⟩, ?_⟩
  · intro f hf
    obtain ⟨modules, rfl, rfl⟩ := Option.map_eq_some_iff.mp hf
    exact fun name => ⟨le_rfl, fun _ => rfl⟩
  · intro name hname
    cases hname
  · simp [registryStart, Pool.frames]

/-- **Main theorem.**  In every run whose saves are written from lists that have
seen the other names' last edits, the file has, after every register, the entry
that each other name was given last. -/
theorem keepsEntries_of_savesSeenEdits
    {file : Option (List RegisteredModule)} {s : RegistryPool}
    (h : Reachable moduleRegistry (OnRun SavesSeenEdits) (registryStart file) s) :
    KeepsEntries s.shared :=
  (moduleRegistry_outline.annotated (annotated_registryStart file) h).1.keeps

/-- A module that is approved by the user. -/
def newcomer : RegisteredModule where
  name := "guard"
  instanceUuid7 := "u1"

/-- An entry that the TUI adds. -/
def duplicated : RegisteredModule where
  name := "bot-2"
  autoAuth := true

/-- The TUI adds an entry before the file is read for a newcomer, and the newcomer's
own while the user is asked about it. -/
def editedBeforePrompt : List RegistryLabel :=
  [.world (.connect newcomer), .world (.tuiRewrite [duplicated]),
   .run 0 {}, .run 0 {}, .run 0 {},
   .world (.tuiRewrite [duplicated, newcomer]), .run 0 {}, .run 0 {}, .run 0 {}]

/-- When the newcomer is saved, the list in memory has seen the entry that the TUI has
added. -/
theorem reachable_editedBeforePrompt :
    ∃ s, moduleRegistry.exec (registryStart (some [])) editedBeforePrompt = some s ∧
      Reachable moduleRegistry (OnRun SavesSeenEdits) (registryStart (some [])) s := by
  have hother {s : RegistryPool} {a : RegistryAnswer} {i : Nat} {f : RegistryFrame}
      (htop : s.top i = some f) (hf : SavesSeenEdits s a f) :
      OnRun SavesSeenEdits s (.run i a : RegistryLabel) := by
    intro g hg
    obtain rfl : f = g := Option.some.inj (htop.symm.trans hg)
    exact hf
  refine ⟨_, rfl, .step (l := .run 0 {}) (.step (l := .run 0 {}) (.step (l := .run 0 {})
    (.step (l := .world (.tuiRewrite [duplicated, newcomer])) (.step (l := .run 0 {})
    (.step (l := .run 0 {}) (.step (l := .run 0 {})
    (.step (l := .world (.tuiRewrite [duplicated]))
    (.step (l := .world (.connect newcomer)) .start trivial rfl) trivial rfl)
    (hother rfl trivial) rfl) (hother rfl trivial) rfl) (hother rfl trivial) rfl)
    trivial rfl) (hother rfl trivial) rfl) (hother rfl trivial) rfl)
    (hother rfl ⟨rfl, fun other hguard => ?_⟩) rfl⟩
  have hne : "guard" ≠ other := Ne.symm hguard
  have hsame :
      findModule [duplicated, newcomer] other = findModule [duplicated] other := by
    have hlast : [newcomer].find? (fun m => m.name = other) = none := by
      simp [newcomer, hne]
    change findModule ([duplicated] ++ [newcomer]) other = _
    rw [findModule, List.find?_append, hlast, Option.or_none, findModule]
  change Function.update (fun name =>
      if findModule [duplicated, newcomer] name = findModule [duplicated] name then
        if findModule [duplicated] name = none then 0 else 1
      else 2) newcomer.name 3 other ≤ Function.update (fun _ => 1) newcomer.name 3 other
  rw [Function.update_of_ne hguard, Function.update_of_ne hguard, if_pos hsame]
  split <;> omega

/-- The file has the TUI's entry after the register. -/
theorem keepsEntries_editedBeforePrompt :
    ∃ s, moduleRegistry.exec (registryStart (some [])) editedBeforePrompt = some s ∧
      s.shared.justRegistered = some "guard" ∧
      s.shared.inFile "bot-2" = some duplicated ∧ KeepsEntries s.shared := by
  obtain ⟨s, hrun, hs⟩ := reachable_editedBeforePrompt
  refine ⟨s, hrun, ?_, ?_, keepsEntries_of_savesSeenEdits hs⟩
  · cases hrun
    rfl
  · cases hrun
    decide

/-- The TUI adds an entry while the user is asked about a newcomer. -/
def editedDuringPrompt : List RegistryLabel :=
  [.world (.connect newcomer), .run 0 {}, .run 0 {}, .run 0 {},
   .world (.tuiRewrite [duplicated]), .run 0 {}, .run 0 {}, .run 0 {}]

/-- The register that follows writes the file without it. -/
theorem editedDuringPrompt_lost :
    ¬ ∀ (file : Option (List RegisteredModule)) (ls : List RegistryLabel)
      (s : RegistryPool), moduleRegistry.exec (registryStart file) ls = some s →
      KeepsEntries s.shared := by
  intro h
  have hkeeps := h (some []) editedDuringPrompt _ rfl
  have hentry := hkeeps "guard" rfl "bot-2" (by decide)
  exact absurd hentry (by decide)

end CockatielEngine
