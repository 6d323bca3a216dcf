import CockatielEngine.Commands.ParsedCommand

/-!
# Commands: who owns a command after any registrations

A registration takes its commands over from whoever had them and drops the
module's earlier ones.  A module that loses a command this way does not get it
back when the other module gives it up, though it is still registered for it and
still listed.

**Main result.**  Ownership, the latest registrations and the listed commands agree
exactly when, for every command that some latest registration declares, the last
call that declared it is still the latest of its module.
-/

namespace CockatielEngine

/-- What a module sends to register. -/
structure Commands where
  commands : List Command
  alertOnUnknownCommand : Bool := false
deriving DecidableEq, Repr

/-- A command that a registration took over from another module. -/
structure CommandCollision where
  flag : String
  name : String
  existingOwner : String
  newOwner : String
deriving DecidableEq, Repr

/-- What the index keys a command by. -/
def Command.key (c : Command) : String × String :=
  (c.commandFlag, c.commandName)

/-- The pairs that a registration declares. -/
def Commands.pairs (c : Commands) : List (String × String) :=
  c.commands.map Command.key

/-- What the registry keeps of a registration. -/
def Commands.reg (c : Commands) : ModuleCommandReg where
  commands := c.commands
  catchAll := c.commands.isEmpty
  alertOnUnknown := c.alertOnUnknownCommand

namespace CommandRegistry

/-- Take one command for the module. -/
def claim (module : String)
    (acc : List ((String × String) × String) × List CommandCollision)
    (cmd : Command) :
    List ((String × String) × String) × List CommandCollision :=
  (Bindings.insert acc.1 cmd.key module,
    match Bindings.lookup acc.1 cmd.key with
    | some existingOwner =>
        if existingOwner ≠ module then
          acc.2 ++
            [{ flag := cmd.commandFlag
               name := cmd.commandName
               existingOwner
               newOwner := module }]
        else acc.2
    | none => acc.2)

/-- (Re)register a module's command set. -/
def register (r : CommandRegistry) (module : String) (commands : Commands) :
    CommandRegistry × List CommandCollision :=
  let claimed := commands.reg.commands.foldl (claim module)
    (r.index.filter fun b => b.2 ≠ module, [])
  ({ index := claimed.1
     modules := Bindings.insert r.modules module commands.reg }, claimed.2)

/-- Every registered command, each pair once. -/
def allCommands (r : CommandRegistry) : List Command :=
  (r.modules.flatMap fun m => m.2.commands).foldl
    (fun out c => if c.key ∈ out.map Command.key then out else out ++ [c]) []

/-- The commands under the names of their modules, catch-alls left out. -/
def commandsByModule (r : CommandRegistry) : List (String × List Command) :=
  ((r.modules.map (·.1)).mergeSort (fun a b => decide (a ≤ b))).filterMap fun m =>
    (r.registration m).bind fun reg =>
      if reg.commands.isEmpty then none else some (m, reg.commands)

end CommandRegistry

/-- The registry after register calls. -/
def registerAll (calls : List (String × Commands)) : CommandRegistry :=
  calls.foldl (fun r call => (r.register call.1 call.2).1) {}

/-- The latest registration of a module. -/
def latest (calls : List (String × Commands)) (module : String) : Option Commands :=
  Bindings.lookup calls.reverse module

/-- The registry after register calls, whatever the order of its maps. -/
structure Registered (calls : List (String × Commands)) where
  registry : CommandRegistry
  same : (registerAll calls).SameMaps registry

/-- Some latest registration declares the pair. -/
def Declared (calls : List (String × Commands)) (k : String × String) : Prop :=
  ∃ m c, latest calls m = some c ∧ k ∈ c.pairs

/-- The last call that declares the pair is the module's latest call. -/
def LastDeclared (calls : List (String × Commands)) (k : String × String)
    (module : String) : Prop :=
  ∃ before c after, calls = before ++ (module, c) :: after ∧ k ∈ c.pairs ∧
    ∀ call ∈ after, k ∉ call.2.pairs ∧ call.1 ≠ module

/-- A pair is owned exactly when it is declared, by a module that declares it; and
the commands that help lists are the owned ones. -/
structure ConsistentWith (calls : List (String × Commands)) (r : CommandRegistry) :
    Prop where
  owned : ∀ k : String × String,
    (∃ m, r.owner k.1 k.2 = some m) ↔ Declared calls k
  declares : ∀ (k : String × String) m, r.owner k.1 k.2 = some m →
    ∃ c, latest calls m = some c ∧ k ∈ c.pairs
  all : ∀ k : String × String,
    k ∈ r.allCommands.map Command.key ↔ ∃ m, r.owner k.1 k.2 = some m
  byModule : ∀ k : String × String,
    k ∈ (r.commandsByModule.flatMap (·.2)).map Command.key ↔
      ∃ m, r.owner k.1 k.2 = some m

section Register

variable {r : CommandRegistry} {calls : List (String × Commands)}
variable {k : String × String} {m module : String} {c : Commands}

theorem lookup_claims
    (acc : List ((String × String) × String) × List CommandCollision)
    (cmds : List Command) :
    Bindings.lookup (cmds.foldl (CommandRegistry.claim module) acc).1 k =
      if k ∈ cmds.map Command.key then some module else Bindings.lookup acc.1 k := by
  induction cmds using List.reverseRecOn with
  | nil => simp
  | append_singleton cmds cmd ih =>
      rw [List.foldl_append, List.foldl_cons, List.foldl_nil, CommandRegistry.claim,
        Bindings.lookup_insert, ih]
      by_cases hk : k = cmd.key
      · simp [hk]
      · simp [hk]

theorem nodup_claims
    (acc : List ((String × String) × String) × List CommandCollision)
    (cmds : List Command)
    (hacc : (acc.1.map Prod.fst).Nodup) :
    ((cmds.foldl (CommandRegistry.claim module) acc).1.map Prod.fst).Nodup := by
  induction cmds generalizing acc with
  | nil => exact hacc
  | cons cmd cmds ih => exact ih _ (Bindings.nodup_insert hacc)

/-- The registrations bind no pair and no module twice. -/
theorem keyed_registerAll (calls : List (String × Commands)) :
    ((registerAll calls).index.map Prod.fst).Nodup ∧
      ((registerAll calls).modules.map Prod.fst).Nodup := by
  induction calls using List.reverseRecOn with
  | nil => exact ⟨List.nodup_nil, List.nodup_nil⟩
  | append_singleton calls call ih =>
      rw [registerAll, List.foldl_append]
      exact ⟨nodup_claims _ _ (Bindings.nodup_filter _ ih.1),
        Bindings.nodup_insert ih.2⟩

/-- The owner of a pair after one more call. -/
theorem owner_concat
    (calls : List (String × Commands)) (module : String) (c : Commands) :
    (registerAll (calls ++ [(module, c)])).owner k.1 k.2 =
      if k ∈ c.pairs then some module
      else ((registerAll calls).owner k.1 k.2).filter (· ≠ module) := by
  have hstep : (registerAll (calls ++ [(module, c)])).owner k.1 k.2 =
      Bindings.lookup (c.commands.foldl (CommandRegistry.claim module)
        ((registerAll calls).index.filter fun b => b.2 ≠ module, [])).1 k := by
    rw [registerAll, List.foldl_append]
    rfl
  rw [hstep, lookup_claims,
    Bindings.lookup_filter_value (· ≠ module) (keyed_registerAll calls).1]
  rfl

/-- The registration of a module is its latest. -/
theorem registration_registerAll :
    (registerAll calls).registration m = (latest calls m).map Commands.reg := by
  induction calls using List.reverseRecOn with
  | nil => rfl
  | append_singleton calls call ih =>
      have hstep : (registerAll (calls ++ [call])).registration m =
          Bindings.lookup (Bindings.insert (registerAll calls).modules call.1
            call.2.reg) m := by
        rw [registerAll, List.foldl_append]
        rfl
      have hlatest : latest (calls ++ [call]) m =
          if m = call.1 then some call.2 else latest calls m := by
        by_cases hm : call.1 = m
        · simp [latest, Bindings.lookup, hm]
        · simp [latest, Bindings.lookup, hm, Ne.symm hm]
      rw [hstep, Bindings.lookup_insert, hlatest]
      split
      · rfl
      · exact ih

theorem lastDeclared_concat :
    LastDeclared (calls ++ [(module, c)]) k m ↔
      k ∈ c.pairs ∧ module = m ∨ k ∉ c.pairs ∧ module ≠ m ∧ LastDeclared calls k m := by
  constructor
  · rintro ⟨before, c', after, heq, hk, hafter⟩
    rcases List.eq_nil_or_concat after with rfl | ⟨after, last, rfl⟩
    · obtain ⟨-, hlast⟩ := List.append_inj' heq rfl
      simp only [List.cons.injEq, Prod.mk.injEq, and_true] at hlast
      obtain ⟨rfl, rfl⟩ := hlast
      exact Or.inl ⟨hk, rfl⟩
    · rw [List.concat_eq_append, ← List.cons_append, ← List.append_assoc] at heq
      obtain ⟨hcalls, hlast⟩ := List.append_inj' heq rfl
      obtain rfl := List.singleton_inj.mp hlast
      obtain ⟨hkc, hm⟩ := hafter (module, c) (by simp)
      exact Or.inr ⟨hkc, hm, before, c', after, hcalls, hk, fun call hcall =>
        hafter call (by simp [hcall])⟩
  · rintro (⟨hk, rfl⟩ | ⟨hk, hm, before, c', after, rfl, hkc, hafter⟩)
    · exact ⟨calls, c, [], rfl, hk, by simp⟩
    · refine ⟨before, c', after ++ [(module, c)], by simp, hkc, fun call hcall => ?_⟩
      rcases List.mem_append.mp hcall with hcall | hcall
      · exact hafter call hcall
      · obtain rfl := List.mem_singleton.mp hcall
        exact ⟨hk, hm⟩

/-- A pair is owned by the last module that declared it, unless that has registered
again since. -/
theorem owner_eq_some_iff :
    (registerAll calls).owner k.1 k.2 = some m ↔ LastDeclared calls k m := by
  induction calls using List.reverseRecOn with
  | nil => simp [registerAll, CommandRegistry.owner, LastDeclared]
  | append_singleton calls call ih =>
      rw [owner_concat calls call.1 call.2, lastDeclared_concat, ← ih]
      by_cases hk : k ∈ call.2.pairs
      · simp [hk]
      · simp only [hk, if_false, false_and, not_false_eq_true, true_and, false_or,
          Option.filter_eq_some_iff, decide_eq_true_eq]
        exact and_comm.trans (and_congr_left fun _ => ne_comm)

theorem latest_of_lastDeclared
    (h : LastDeclared calls k m) :
    ∃ c, latest calls m = some c ∧ k ∈ c.pairs := by
  obtain ⟨before, c, after, rfl, hk, hafter⟩ := h
  refine ⟨c, ?_, hk⟩
  have hnone : after.reverse.find? (fun call => call.1 = m) = none := by
    rw [List.find?_eq_none]
    intro call hcall
    simpa using (hafter call (List.mem_reverse.mp hcall)).2
  rw [latest, Bindings.lookup, List.reverse_append, List.reverse_cons,
    List.append_assoc, List.find?_append, hnone]
  simp

theorem owner_registered (r : Registered calls) :
    r.registry.owner k.1 k.2 = (registerAll calls).owner k.1 k.2 :=
  Bindings.lookup_perm (keyed_registerAll calls).1 r.same.index

theorem registration_registered (r : Registered calls) :
    r.registry.registration m = (latest calls m).map Commands.reg :=
  (Bindings.lookup_perm (keyed_registerAll calls).2 r.same.modules).trans
    registration_registerAll

/-- Commands are parsed against such registries. -/
def Registered.keyed (r : Registered calls) : KeyedRegistry :=
  { r.registry with
    indexKeys := (r.same.index.map Prod.fst).nodup_iff.mpr (keyed_registerAll calls).1
    moduleKeys :=
      (r.same.modules.map Prod.fst).nodup_iff.mpr (keyed_registerAll calls).2 }

/-- The modules of the registry, with their latest registrations. -/
theorem mem_modules_iff
    {reg : ModuleCommandReg}
    (r : Registered calls) :
    (m, reg) ∈ r.registry.modules ↔ ∃ c, latest calls m = some c ∧ c.reg = reg := by
  have hkeys : (r.registry.modules.map Prod.fst).Nodup := r.keyed.moduleKeys
  rw [← Bindings.lookup_eq_some_iff hkeys, ← Option.map_eq_some_iff,
    ← registration_registered r]
  rfl

/-- A pair is declared by some registration that the registry keeps. -/
theorem declared_iff (r : Registered calls) :
    Declared calls k ↔
      ∃ b ∈ r.registry.modules, k ∈ b.2.commands.map Command.key := by
  constructor
  · rintro ⟨m, c, hlatest, hk⟩
    exact ⟨(m, c.reg), (mem_modules_iff r).mpr ⟨c, hlatest, rfl⟩, hk⟩
  · rintro ⟨⟨m, reg⟩, hb, hk⟩
    obtain ⟨c, hlatest, rfl⟩ := (mem_modules_iff r).mp hb
    exact ⟨m, c, hlatest, hk⟩

theorem mem_allCommands_iff (r : Registered calls) :
    k ∈ r.registry.allCommands.map Command.key ↔ Declared calls k := by
  have honce (cmds : List Command) :
      k ∈ (cmds.foldl (fun out c =>
          if c.key ∈ out.map Command.key then out else out ++ [c]) []).map
            Command.key ↔
        k ∈ cmds.map Command.key := by
    induction cmds using List.reverseRecOn with
    | nil => rfl
    | append_singleton cmds c ih =>
        rw [List.foldl_append, List.foldl_cons, List.foldl_nil, List.map_append,
          List.mem_append, ← ih]
        split
        · rename_i hseen
          simp only [List.map_cons, List.map_nil, List.mem_singleton]
          exact ⟨Or.inl, fun h => h.elim id fun h => h ▸ hseen⟩
        · simp
  rw [CommandRegistry.allCommands, honce, declared_iff r]
  simp only [List.mem_map, List.mem_flatMap]
  constructor
  · rintro ⟨c, ⟨b, hb, hc⟩, hk⟩
    exact ⟨b, hb, c, hc, hk⟩
  · rintro ⟨b, hb, c, hc, hk⟩
    exact ⟨c, ⟨b, hb, hc⟩, hk⟩

theorem mem_commandsByModule_iff (r : Registered calls) :
    k ∈ (r.registry.commandsByModule.flatMap (·.2)).map Command.key ↔
      Declared calls k := by
  have hmodule (x : String × List Command) :
      x ∈ r.registry.commandsByModule ↔
        ∃ c, latest calls x.1 = some c ∧ c.commands ≠ [] ∧ c.commands = x.2 := by
    obtain ⟨m, cmds⟩ := x
    simp only [CommandRegistry.commandsByModule, List.mem_filterMap,
      List.mem_mergeSort, registration_registered r]
    constructor
    · rintro ⟨name, -, h⟩
      obtain ⟨reg, hreg, h⟩ := Option.bind_eq_some_iff.mp h
      obtain ⟨c, hlatest, rfl⟩ := Option.map_eq_some_iff.mp hreg
      split at h
      · cases h
      · rename_i hne
        simp only [Option.some.injEq, Prod.mk.injEq] at h
        obtain ⟨rfl, hcmds⟩ := h
        exact ⟨c, hlatest, fun hnil => hne (List.isEmpty_iff.mpr hnil), hcmds⟩
    · rintro ⟨c, hlatest, hne, rfl⟩
      have hmem := (mem_modules_iff r).mpr ⟨c, hlatest, rfl⟩
      refine ⟨m, List.mem_map_of_mem hmem, ?_⟩
      simp [hlatest, Commands.reg, hne]
  simp only [List.mem_map, List.mem_flatMap, hmodule]
  constructor
  · rintro ⟨cmd, ⟨x, ⟨c, hlatest, -, hcmds⟩, hcmd⟩, hk⟩
    exact ⟨x.1, c, hlatest, List.mem_map.mpr ⟨cmd, hcmds ▸ hcmd, hk⟩⟩
  · rintro ⟨m, c, hlatest, hk⟩
    obtain ⟨cmd, hcmd, hk⟩ := List.mem_map.mp hk
    exact ⟨cmd, ⟨(m, c.commands), ⟨c, hlatest, List.ne_nil_of_mem hcmd, rfl⟩, hcmd⟩,
      hk⟩

/-- **Main theorem.**  When the registry is consistent with its registrations. -/
theorem consistentWith_iff
    (calls : List (String × Commands)) (r : Registered calls) :
    ConsistentWith calls r.registry ↔
      ∀ k, Declared calls k → ∃ m, LastDeclared calls k m := by
  have howner (k : String × String) (m : String) :
      r.registry.owner k.1 k.2 = some m ↔ LastDeclared calls k m := by
    rw [owner_registered, owner_eq_some_iff]
  have hdeclared {k : String × String} {m : String} (h : LastDeclared calls k m) :
      Declared calls k := ⟨m, latest_of_lastDeclared h⟩
  constructor
  · intro h k hk
    obtain ⟨m, hm⟩ := (h.owned k).mpr hk
    exact ⟨m, (howner k m).mp hm⟩
  · intro h
    have howned (k : String × String) :
        (∃ m, r.registry.owner k.1 k.2 = some m) ↔ Declared calls k := by
      simp only [howner]
      exact ⟨fun ⟨m, hm⟩ => hdeclared hm, h k⟩
    exact ⟨howned, fun k m hm => latest_of_lastDeclared ((howner k m).mp hm),
      fun k => (mem_allCommands_iff r).trans (howned k).symm,
      fun k => (mem_commandsByModule_iff r).trans (howned k).symm⟩

/-- Two modules register a command, and the second gives it up. -/
def takenAndGivenUp : List (String × Commands) :=
  let hug : Commands := { commands := [{ commandFlag := "!", commandName := "hug" }] }
  [("a", hug), ("b", hug), ("b", { commands := [] })]

/-- The first still declares it and nobody owns it. -/
theorem takenAndGivenUp_unowned :
    ¬ ∀ (calls : List (String × Commands)) (r : Registered calls),
      ConsistentWith calls r.registry := by
  intro h
  have howned := (h takenAndGivenUp ⟨_, .refl _, .refl _⟩).owned ("!", "hug")
  obtain ⟨m, hm⟩ := howned.mpr ⟨"a", _, rfl, by decide⟩
  exact absurd hm (by simp [show (registerAll takenAndGivenUp).owner "!" "hug" = none
    from by decide])

end Register

end CockatielEngine
