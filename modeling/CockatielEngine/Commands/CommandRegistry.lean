import Mathlib.Data.List.Basic
import Mathlib.Tactic

/-!
# Commands: the registry that routing consults

The registry knows which module subscribed to which command and which modules
are catch-alls.  Both of its hash maps are lists of bindings whose order stands
for the (arbitrary but fixed) iteration order of the map.
-/

namespace CockatielEngine

/-- A command's flag; its numeric limits play no part in routing. -/
structure CommandFlag where
  flagName : String
  flagDescription : String := ""
  limitingType : Int := 0
  options : List String := []
  value : String := ""
deriving DecidableEq, Repr

structure Command where
  commandFlag : String
  commandName : String
  commandDescription : String := ""
  commandFlags : List CommandFlag := []
deriving DecidableEq, Repr

structure ModuleCommandReg where
  commands : List Command
  catchAll : Bool
  alertOnUnknown : Bool
deriving DecidableEq, Repr

structure CommandRegistry where
  index : List ((String × String) × String) := []
  modules : List (String × ModuleCommandReg) := []
deriving DecidableEq, Repr

namespace CommandRegistry

/-- The registration of a module, if it has one. -/
def registration (r : CommandRegistry) (module : String) :
    Option ModuleCommandReg :=
  (r.modules.find? fun m => m.1 = module).map (·.2)

/-- The module subscribed to a specific command. -/
def owner (r : CommandRegistry) (flag name : String) : Option String :=
  (r.index.find? fun b => b.1 = (flag, name)).map (·.2)

/-- The modules that registered an empty command set. -/
def catchAlls (r : CommandRegistry) : List String :=
  (r.modules.filter fun m => m.2.catchAll).map (·.1)

/-- The module registered a non-empty command set. -/
def isCommandScoped (r : CommandRegistry) (module : String) : Bool :=
  ((r.registration module).map fun m => !m.commands.isEmpty).getD false

/-- The module opted to keep receiving plain messages. -/
def wantsPlainMessages (r : CommandRegistry) (module : String) : Bool :=
  ((r.registration module).map fun m => m.alertOnUnknown).getD false

end CommandRegistry

/-- The modules of a pre-process or in-process stage that receive a message. -/
def commandRecipients (parsedCommand : Option Command)
    (registry : CommandRegistry) (stageModules : List String) : List String :=
  match parsedCommand with
  | none =>
      stageModules.filter fun m =>
        !registry.isCommandScoped m || registry.wantsPlainMessages m
  | some cmd =>
      ((registry.owner cmd.commandFlag cmd.commandName).toList ++
        registry.catchAlls).filter fun name => stageModules.contains name

/-- The modules of the post-process stage that receive a message. -/
def postProcessRecipients (parsedCommand : Option Command)
    (registry : CommandRegistry) (stageModules : List String) : List String :=
  let owner :=
    parsedCommand.bind fun c => registry.owner c.commandFlag c.commandName
  stageModules.filter fun m =>
    !registry.isCommandScoped m || decide (owner = some m) ||
      registry.wantsPlainMessages m

/-- Routing never leaves the stage's configured list. -/
theorem commandRecipients_subset
    (parsedCommand : Option Command)
    (registry : CommandRegistry) (stageModules : List String) :
    commandRecipients parsedCommand registry stageModules ⊆ stageModules := by
  intro m hm
  cases parsedCommand with
  | none =>
      exact List.mem_of_mem_filter hm
  | some cmd =>
      simpa using (List.mem_filter.mp hm).2

end CockatielEngine
