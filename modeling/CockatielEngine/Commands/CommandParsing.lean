import CockatielEngine.Commands.CommandRegistry

/-!
# Commands: what a chat message asks for

`parse_command` reads a command and its flags off a raw message, and
`classify_command` decides what ingest does with it: attach a known command,
answer `!help`, apologise for an unknown command, or nothing.
-/

namespace CockatielEngine

namespace CommandRegistry

/-- The registered command of its subscriber. -/
def registeredCommand (r : CommandRegistry) (flag name : String) :
    Option Command :=
  (r.owner flag name).bind fun owner =>
    (r.registration owner).bind fun reg =>
      reg.commands.find? fun c => c.commandFlag = flag ∧ c.commandName = name

/-- The registered flag definitions of a command. -/
def commandFlags (r : CommandRegistry) (flag name : String) :
    List CommandFlag :=
  ((r.registeredCommand flag name).map (·.commandFlags)).getD []

def commandDescription (r : CommandRegistry) (flag name : String) :
    Option String :=
  (r.registeredCommand flag name).map (·.commandDescription)

/-- A module that owns the flag and wants unknown commands answered. -/
def alertOwnerFor (r : CommandRegistry) (flag : String) : Option String :=
  ((r.index.filter fun b => b.1.1 = flag).find? fun b =>
    ((r.registration b.2).map (·.alertOnUnknown)).getD false).map (·.2)

end CommandRegistry

/-- A raw message, character by character. -/
abbrev Text := List Char

namespace Text

/-- The characters that Unicode counts as white space. -/
def isWhitespace (c : Char) : Bool :=
  let n := c.toNat
  (0x9 ≤ n && n ≤ 0xD) || n = 0x20 || n = 0x85 || n = 0xA0 || n = 0x1680 ||
    (0x2000 ≤ n && n ≤ 0x200A) || n = 0x2028 || n = 0x2029 || n = 0x202F ||
    n = 0x205F || n = 0x3000

def trimStart (t : Text) : Text :=
  t.dropWhile isWhitespace

def trim (t : Text) : Text :=
  (trimStart (trimStart t).reverse).reverse

def splitWhitespace (t : Text) : List Text :=
  (t.splitOnP isWhitespace).filter fun token => !token.isEmpty

/-- Both sides of the first colon, if there is one. -/
def splitColon (t : Text) : Option (Text × Text) :=
  if t.contains ':' then
    some (t.takeWhile (· ≠ ':'), (t.dropWhile (· ≠ ':')).tail)
  else none

end Text

def toAsciiLowercase (s : String) : String :=
  .ofList (s.toList.map Char.toLower)

/-- A flag token: a dash and at least one more character. -/
def isFlagToken : Text → Bool
  | '-' :: _ :: _ => true
  | _ => false

/-- A parsed flag, with its registered description and limits if known. -/
def parsedFlag (definitions : List CommandFlag) (name value : Text) :
    CommandFlag :=
  match definitions.find? fun d => d.flagName = .ofList name with
  | some d => { d with flagName := .ofList name, value := .ofList value }
  | none => { flagName := .ofList name, value := .ofList value }

/-- The flags among the tokens after a command: `-name:value`, `-name value`,
or a bare `-name`, which stands for `true`. -/
def parseFlags (definitions : List CommandFlag) : List Text → List CommandFlag
  | [] => []
  | [token] =>
      if isFlagToken token then
        match Text.splitColon token.tail with
        | some (name, value) => [parsedFlag definitions name value]
        | none => [parsedFlag definitions token.tail "true".toList]
      else []
  | token :: next :: rest =>
      if isFlagToken token then
        match Text.splitColon token.tail with
        | some (name, value) =>
            parsedFlag definitions name value ::
              parseFlags definitions (next :: rest)
        | none =>
            if next.head? = some '-' then
              parsedFlag definitions token.tail "true".toList ::
                parseFlags definitions (next :: rest)
            else
              parsedFlag definitions token.tail next ::
                parseFlags definitions rest
      else parseFlags definitions (next :: rest)

/-- The longest registered flag that the message starts with. -/
def matchedFlag (raw : Text) (registry : CommandRegistry) : Option String :=
  registry.index.foldl (fun matched b =>
    if b.1.1.toList.isPrefixOf raw then
      match matched with
      | some cur => if cur.length < b.1.1.length then some b.1.1 else some cur
      | none => some b.1.1
    else matched) none

/-- One more registered flag takes the place of a shorter one. -/
theorem matchedFlag_concat
    {raw : Text} {index : List ((String × String) × String)}
    {modules : List (String × ModuleCommandReg)} {b : (String × String) × String} :
    matchedFlag raw ⟨index ++ [b], modules⟩ =
      if b.1.1.toList.isPrefixOf raw then
        match matchedFlag raw ⟨index, modules⟩ with
        | some cur => if cur.length < b.1.1.length then some b.1.1 else some cur
        | none => some b.1.1
      else matchedFlag raw ⟨index, modules⟩ := by
  change List.foldl _ none (index ++ [b]) = _
  rw [List.foldl_append]
  rfl

/-- The command of a raw message that starts with a registered flag. -/
def parseCommand (raw : Text) (registry : CommandRegistry) : Option Command :=
  let raw := raw.trim
  match matchedFlag raw registry with
  | none => none
  | some flag =>
      let afterFlag := Text.trimStart (raw.drop flag.length)
      if raw.isEmpty || afterFlag.isEmpty then none
      else
        let name : String := .ofList (afterFlag.takeWhile (!Text.isWhitespace ·))
        let rest := Text.trim (afterFlag.dropWhile (!Text.isWhitespace ·))
        some
          { commandFlag := flag
            commandName := name
            commandDescription := (registry.commandDescription flag name).getD ""
            commandFlags :=
              parseFlags (registry.commandFlags flag name)
                (Text.splitWhitespace rest) }

/-- What to do with a raw chat message. -/
inductive CommandAction where
  | attach (command : Command)
  | help (module : Option String)
  | alert (flag name : String)
  | none
deriving DecidableEq, Repr

/-- Classify a raw chat message against the registry.  No letter outside ASCII
becomes one of `help` in lower case. -/
def classifyCommand (raw : String) (registry : CommandRegistry) :
    CommandAction :=
  let raw := Text.trim raw.toList
  let lower := raw.map Char.toLower
  if raw.isEmpty then .none
  else if lower = "!help".toList then .help .none
  else if "!help ".toList.isPrefixOf lower then
    let arg := Text.trim (raw.drop 6)
    .help (if arg.isEmpty then .none else some (.ofList arg))
  else
    match parseCommand raw registry with
    | .none => .none
    | some command =>
        if (registry.owner command.commandFlag command.commandName).isSome then
          .attach command
        else if (registry.alertOwnerFor command.commandFlag).isSome then
          .alert command.commandFlag command.commandName
        else .none

end CockatielEngine
