import CockatielEngine.Config.UpdateConfig

/-!
# Config: the auto-configuration at startup

For every module on disk the pass adds an entry to the registry, a place in the
stage lists of the settings, and a connection file of the module's own.  Each step
reads its file as a value, takes a default where it cannot be read, and writes it
back.

Every write is taken to succeed.
-/

namespace CockatielEngine

structure DiscoveredModule where
  name : String
  capabilities : String
  directory : String
deriving DecidableEq, Repr

/-- What a pass takes from the engine: its address, and the ids that it gives. -/
structure AutoEnv where
  port : BitVec 16
  pin : BitVec 32
  uuid : String → String

/-- The settings, the registry, and every module's own file, by its directory. -/
structure AutoFiles where
  config : Option FileText
  modules : Option FileText
  own : String → Option FileText

/-- The stage list of a manifest's capability. -/
def configListKey : String → String
  | "input" | "inputs" | "connection" => "inputs"
  | "preprocess" => "preprocessModules"
  | "inprocess" => "inprocessModules"
  | "postprocess" | "output" | "outputs" | "display" => "postprocessModules"
  | _ => "preprocessModules"

def orderingKeys : List String :=
  ["inputs", "preprocessModules", "inprocessModules", "postprocessModules"]

/-- The priority that every entry is given. -/
def autoPriority : JsonValue := .num (.int 100)

/-- The entry has the name. -/
def isNamed (name : String) (e : JsonValue) : Bool :=
  (e.get "name").bind JsonValue.asStr = some name

section Registry

/-- The entry of a module that is new in the registry. -/
def registryEntry (env : AutoEnv) (m : DiscoveredModule) : JsonValue :=
  .obj [("name", .str m.name), ("instance_uuid7", .str (env.uuid m.name)),
    ("position", .str m.capabilities), ("priority", autoPriority),
    ("auto_auth", .bool false), ("auth_token", .str "")]

/-- The entries that a registry file holds, none where it cannot be read. -/
def registryOf (file : Option FileText) : List JsonValue :=
  ((file.bind FileText.value?).bind JsonValue.asArray).getD []

/-- `register_module`. -/
def registerModule (env : AutoEnv) (m : DiscoveredModule) (file : Option FileText) :
    Option String × Option FileText :=
  if (registryOf file).any (isNamed m.name) then (none, file)
  else
    (some "registered in modules.json (auto_auth: false — first connect will prompt)",
      some (.pretty (.arr (registryOf file ++ [registryEntry env m]))))

end Registry

section Ordering

/-- The list with the priority of the first entry of the name refreshed. -/
def refreshEntry (name : String) : List JsonValue → List JsonValue
  | [] => []
  | e :: rest =>
      if isNamed name e then e.set "priority" autoPriority :: rest
      else e :: refreshEntry name rest

def refreshIn (name : String) (root : JsonValue) (key : String) : JsonValue :=
  match root.get key with
  | some (.arr l) => root.set key (.arr (refreshEntry name l))
  | _ => root

/-- The module is in some list. -/
def isListed (name : String) (root : JsonValue) : Bool :=
  orderingKeys.any fun key =>
    match root.get key with
    | some (.arr l) => l.any (isNamed name)
    | _ => false

/-- The root with the key there; indexing what is neither an object nor null
panics. -/
def openList (root : JsonValue) (key : String) : Option JsonValue :=
  match root.get key, root with
  | some _, root => some root
  | none, .null => some (.obj [(key, .arr [])])
  | none, .obj fields => some ((JsonValue.obj fields).set key (.arr []))
  | none, _ => none

def pushTo (root : JsonValue) (key : String) (entry : JsonValue) : JsonValue :=
  match root.get key with
  | some (.arr l) => root.set key (.arr (l ++ [entry]))
  | _ => root

/-- The place of a module that was in no list. -/
def orderingEntry (m : DiscoveredModule) : JsonValue :=
  .obj [("name", .str m.name), ("priority", autoPriority)]

/-- What `add_to_ordering` makes of the settings, unless it panics. -/
def orderModule (m : DiscoveredModule) (root : JsonValue) :
    Option (String × JsonValue) :=
  if isListed m.name root then
    some ("already placed in pipeline ordering — priority refreshed",
      orderingKeys.foldl (refreshIn m.name) root)
  else
    let key := configListKey m.capabilities
    (openList root key).map fun root =>
      ("added to " ++ key ++ " ordering", pushTo root key (orderingEntry m))

/-- The settings that a file holds, none where it cannot be read. -/
def settingsOf (file : Option FileText) : JsonValue :=
  (file.bind FileText.value?).getD (.obj [])

/-- `add_to_ordering`. -/
def addToOrdering (m : DiscoveredModule) (file : Option FileText) :
    Option (String × FileText) :=
  (orderModule m (settingsOf file)).map fun r => (r.1, .pretty r.2)

end Ordering

section Connection

/-- What a module needs to connect. -/
def connectionDefaults (env : AutoEnv) (m : DiscoveredModule) :
    List (String × JsonValue) :=
  [("ip", .str "127.0.0.1"), ("port", .num (.int env.port.toNat)),
    ("pin", .num (.int env.pin.toNat)), ("module_name", .str m.name),
    ("position", .str m.capabilities), ("priority", autoPriority)]

/-- Bind the keys that are not bound. -/
def fillMissing (root : JsonValue) (defaults : List (String × JsonValue)) :
    JsonValue :=
  defaults.foldl (fun root d =>
    if (root.get d.1).isSome then root else root.set d.1 d.2) root

/-- `write_connection_config`. -/
def writeConnectionConfig (env : AutoEnv) (m : DiscoveredModule)
    (file : Option FileText) : Option String × Option FileText :=
  let root := settingsOf file
  if root.isObject ∧ (connectionDefaults env m).any fun d => (root.get d.1).isNone then
    (some "wrote connection config.json (missing fields only)",
      some (.pretty (fillMissing root (connectionDefaults env m))))
  else (none, file)

end Connection

/-- The lines that the steps of a module log. -/
def autoLog (m : DiscoveredModule) (messages : List (Option String)) : List String :=
  (messages.filterMap id).map fun msg => "[auto-config] " ++ m.name ++ ": " ++ msg

/-- The three steps of a module. -/
def configureModule (env : AutoEnv) (files : AutoFiles) (m : DiscoveredModule) :
    Option (List String × AutoFiles) :=
  let registered := registerModule env m files.modules
  (addToOrdering m files.config).map fun ordered =>
    let connected := writeConnectionConfig env m (files.own m.directory)
    (autoLog m [registered.1, some ordered.1, connected.1],
      { config := some ordered.2
        modules := registered.2
        own := Function.update files.own m.directory connected.2 })

/-- The modules one after the other, unless one of them panics. -/
def configureModules (env : AutoEnv) :
    List DiscoveredModule → AutoFiles → Option (List String × AutoFiles)
  | [], files => some ([], files)
  | m :: rest, files =>
      (configureModule env files m).bind fun r =>
        (configureModules env rest r.2).map fun r' => (r.1 ++ r'.1, r'.2)

/-- `run`: the modules of the registry, by name. -/
def autoConfigure (env : AutoEnv) (registry : List DiscoveredModule)
    (files : AutoFiles) : Option (List String × AutoFiles) :=
  configureModules env (registry.mergeSort fun a b => decide (a.name ≤ b.name)) files

/-! ## What a pass may not touch -/

/-- The list with more entries at its end, and all fields of those that were
there. -/
def KeepsList (es es' : List JsonValue) : Prop :=
  ∃ kept rest, es' = kept ++ rest ∧ List.Forall₂ KeepsEntry es kept

/-- Nothing that a root has is changed or removed: a list may get more entries,
and an object more keys. -/
def KeepsRoot (root root' : JsonValue) : Prop :=
  root = root' ∨
    (∃ es es', root = .arr es ∧ root' = .arr es' ∧ KeepsList es es') ∨
    root.isObject = true ∧ root'.isObject = true ∧
      ∀ key v, root.get key = some v → ∃ v', root'.get key = some v' ∧
        (v = v' ∨ ∃ es es', v = .arr es ∧ v' = .arr es' ∧ KeepsList es es')

/-- A file that was there keeps everything that it holds; one that is no JSON stays
as it is. -/
def KeepsText (file file' : Option FileText) : Prop :=
  ∀ text, file = some text → ∃ text', file' = some text' ∧
    (text = text' ∨ ∃ root root', text.value? = some root ∧
      text'.value? = some root' ∧ KeepsRoot root root')

structure OperatorWins (files files' : AutoFiles) : Prop where
  config : KeepsText files.config files'.config
  modules : KeepsText files.modules files'.modules
  own : ∀ d, KeepsText (files.own d) (files'.own d)

/-- The pass ends, nothing that the operator has is lost, and a second pass changes
no file. -/
def AutoConfigures (env : AutoEnv) (registry : List DiscoveredModule)
    (files : AutoFiles) : Prop :=
  ∃ log files', autoConfigure env registry files = some (log, files') ∧
    OperatorWins files files' ∧
    ∀ env', ∃ log', autoConfigure env' registry files' = some (log', files')

/-! ## What a pass refreshes -/

/-- The entry as it is, or with its priority refreshed where it is a module's. -/
def RefreshedEntry (registry : List DiscoveredModule) (e e' : JsonValue) : Prop :=
  e' = e ∨ (∃ m ∈ registry, isNamed m.name e = true) ∧
    e' = e.set "priority" autoPriority

/-- Settings with every key that was there: the stage lists with priorities
refreshed and more entries at their end, and the others as they are. -/
def RefreshedRoot (registry : List DiscoveredModule) (root root' : JsonValue) : Prop :=
  root'.isObject = true ∧ ∀ key v, root.get key = some v →
    ∃ v', root'.get key = some v' ∧ (v' = v ∨ key ∈ orderingKeys ∧
      ∃ es kept rest, v = .arr es ∧ v' = .arr (kept ++ rest) ∧
        List.Forall₂ (RefreshedEntry registry) es kept)

/-- The file is missing or JSON. -/
def HoldsJson (file : Option FileText) : Prop :=
  ∀ text, file = some text → ∃ root, text.value? = some root

/-- The file is missing or an array. -/
def HoldsArray (file : Option FileText) : Prop :=
  ∀ text, file = some text → ∃ es, text.value? = some (.arr es)

/-- Nothing but priorities in the settings is changed, and nothing removed, in the
files of the right form. -/
structure RefreshesOnly (registry : List DiscoveredModule) (files files' : AutoFiles) :
    Prop where
  config : ∀ text root, files.config = some text → text.value? = some root →
    root.isObject = true → ∃ text' root', files'.config = some text' ∧
      text'.value? = some root' ∧ RefreshedRoot registry root root'
  modules : HoldsArray files.modules → KeepsText files.modules files'.modules
  own : ∀ d, HoldsJson (files.own d) → KeepsText (files.own d) (files'.own d)

/-! ## Files that keep all that they hold -/

/-- The first entry of the name, if there is one, has no other priority than the
one it is given. -/
def UsesAutoPriority (name : String) (l : List JsonValue) : Prop :=
  ∀ e, l.find? (isNamed name) = some e →
    ∀ p, e.get "priority" = some p → p = autoPriority

/-- The files are missing or of the right form: the settings an object that places
the modules at the priority they are given, the registry an array, and the modules'
own files JSON. -/
structure WellKept (registry : List DiscoveredModule) (files : AutoFiles) : Prop where
  config : ∀ text, files.config = some text → ∃ root, text.value? = some root ∧
    root.isObject = true ∧ ∀ m ∈ registry, ∀ key ∈ orderingKeys, ∀ l,
      root.get key = some (.arr l) → UsesAutoPriority m.name l
  modules : HoldsArray files.modules
  own : ∀ m ∈ registry, HoldsJson (files.own m.directory)

end CockatielEngine
