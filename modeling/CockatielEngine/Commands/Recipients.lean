import CockatielEngine.Commands.Registrations

/-!
# Commands: who receives a message

`command_recipients` consults three tables of the registry: the index for the owner
of a command, the catch-alls, and the registrations for the modules that handle
their own commands only.

**Main result.**  After any register calls a command goes to its owner and to the
catch-alls of the stage, and plain text to the modules of the stage that are not
command-scoped or have asked for it; nobody receives a message twice.
-/

namespace CockatielEngine

section Roles

variable (calls : List (String × Commands)) (module : String)

/-- The module's latest registration has commands. -/
def CommandScoped : Prop :=
  ∃ c, latest calls module = some c ∧ c.commands ≠ []

/-- The module's latest registration has none. -/
def CatchAll : Prop :=
  ∃ c, latest calls module = some c ∧ c.commands = []

/-- The module's latest registration asks for plain messages. -/
def OptedIn : Prop :=
  ∃ c, latest calls module = some c ∧ c.alertOnUnknownCommand = true

end Roles

section Recipients

variable {calls : List (String × Commands)} {m : String} {stage : List String}
variable {cmd : Command}

theorem isCommandScoped_iff (r : Registered calls) :
    r.registry.isCommandScoped m = true ↔ CommandScoped calls m := by
  rw [CommandRegistry.isCommandScoped, registration_registered, CommandScoped]
  cases latest calls m <;> simp [Commands.reg]

theorem wantsPlainMessages_iff (r : Registered calls) :
    r.registry.wantsPlainMessages m = true ↔ OptedIn calls m := by
  rw [CommandRegistry.wantsPlainMessages, registration_registered, OptedIn]
  cases latest calls m <;> simp [Commands.reg]

theorem mem_catchAlls_iff (r : Registered calls) :
    m ∈ r.registry.catchAlls ↔ CatchAll calls m := by
  simp only [CommandRegistry.catchAlls, List.mem_map, List.mem_filter]
  constructor
  · rintro ⟨⟨name, reg⟩, ⟨hb, hcatch⟩, rfl⟩
    obtain ⟨c, hlatest, rfl⟩ := (mem_modules_iff r).mp hb
    exact ⟨c, hlatest, List.isEmpty_iff.mp hcatch⟩
  · rintro ⟨c, hlatest, hnil⟩
    exact ⟨(m, c.reg), ⟨(mem_modules_iff r).mpr ⟨c, hlatest, rfl⟩,
      List.isEmpty_iff.mpr hnil⟩, rfl⟩

theorem not_catchAll_of_commandScoped
    (h : CommandScoped calls m) :
    ¬ CatchAll calls m := by
  rintro ⟨c', hlatest', hnil⟩
  obtain ⟨c, hlatest, hne⟩ := h
  obtain rfl := Option.some.inj (hlatest.symm.trans hlatest')
  exact hne hnil

/-- The owner of a command has registered it, with its latest call. -/
theorem owner_declares
    (r : Registered calls)
    (h : r.registry.owner cmd.commandFlag cmd.commandName = some m) :
    ∃ c, latest calls m = some c ∧ cmd.key ∈ c.pairs := by
  have howner := (owner_registered (k := cmd.key) r).symm.trans h
  exact latest_of_lastDeclared (owner_eq_some_iff.mp howner)

theorem commandScoped_of_owner
    (r : Registered calls)
    (h : r.registry.owner cmd.commandFlag cmd.commandName = some m) :
    CommandScoped calls m := by
  obtain ⟨c, hlatest, hk⟩ := owner_declares r h
  refine ⟨c, hlatest, ?_⟩
  rintro hnil
  simp [Commands.pairs, hnil] at hk

theorem mem_recipients_command_iff (r : Registered calls) :
    m ∈ commandRecipients (some cmd) r.registry stage ↔
      m ∈ stage ∧ (r.registry.owner cmd.commandFlag cmd.commandName = some m ∨
        CatchAll calls m) := by
  simp only [commandRecipients, List.mem_filter, List.mem_append, Option.mem_toList,
    mem_catchAlls_iff r, List.contains_iff_mem]
  exact and_comm

theorem mem_recipients_plain_iff (r : Registered calls) :
    m ∈ commandRecipients none r.registry stage ↔
      m ∈ stage ∧ (¬ CommandScoped calls m ∨ OptedIn calls m) := by
  rw [← isCommandScoped_iff r, ← wantsPlainMessages_iff r]
  simp [commandRecipients]

/-- Nobody is named twice: the owner of a command is no catch-all. -/
theorem nodup_commandRecipients
    (r : Registered calls) (parsedCommand : Option Command)
    (hstage : stage.Nodup) :
    (commandRecipients parsedCommand r.registry stage).Nodup := by
  cases parsedCommand with
  | none => exact hstage.filter _
  | some cmd =>
      refine List.Nodup.filter _ ?_
      have hcatch : r.registry.catchAlls.Nodup :=
        r.keyed.moduleKeys.sublist (List.filter_sublist.map Prod.fst)
      cases howner : r.registry.owner cmd.commandFlag cmd.commandName with
      | none => simpa using hcatch
      | some owner =>
          refine List.nodup_cons.mpr ⟨fun hmem => ?_, hcatch⟩
          exact not_catchAll_of_commandScoped (commandScoped_of_owner r howner)
            ((mem_catchAlls_iff r).mp hmem)

/-- A module with a command of its own, a catch-all, and one that never
registered. -/
def threeRoles : List (String × Commands) :=
  [("tts", { commands := [{ commandFlag := "!", commandName := "tts" }] }),
    ("display", { commands := [] })]

end Recipients

end CockatielEngine
