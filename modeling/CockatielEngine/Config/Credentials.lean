import CockatielEngine.Config.Secrets

/-!
# Config: the credentials of a module

A credential that is sensitive is kept in the module's settings file under the name
of a variable, the others in the module's configuration.  What is shown to the
operator is read from both.
-/

namespace CockatielEngine

structure CredentialField where
  key : String
  env : String
  sensitive : Bool
  list : Bool
deriving DecidableEq, Repr

/-- `env_name`. -/
def CredentialField.envName (f : CredentialField) : Text :=
  (if f.env = "" then f.key else f.env).toList

/-- The module's settings file and its configuration. -/
structure CredentialFiles where
  env : Option Text
  config : Option FileText

/-- Which of the two files can be written. -/
structure Writes where
  env : Bool
  config : Bool

/-- Arrays of strings as text on one line, between brackets. -/
structure StringArrays where
  write : List Text → Text
  read : Text → Option (List Text)
  read_write : ∀ items, read (write items) = some items
  brackets : ∀ items, ∃ inner, write items = '[' :: (inner ++ [']'])
  no_feed : ∀ items, '\n' ∉ write items

section Saving

/-- The lines of a value, trimmed, without blank ones. -/
def valueItems (value : Text) : List Text :=
  ((value.splitOn '\n').map Text.trim).filter (· ≠ [])

/-- What is written for a sensitive field. -/
def encodeCredential (arrays : StringArrays) (f : CredentialField) (value : Text) :
    Text :=
  if f.list then arrays.write (valueItems value) else value.trim

/-- What is written for another field. -/
def specValue (f : CredentialField) (value : Text) : JsonValue :=
  if f.list then .arr ((valueItems value).map fun item => .str (.ofList item))
  else .str (.ofList value.trim)

/-- The entries of the sensitive fields that are submitted. -/
def credentialEntries (arrays : StringArrays) (fields : List CredentialField)
    (values : String → Option Text) : List (Text × Text) :=
  fields.filterMap fun f =>
    if f.sensitive then
      (values f.key).map fun v => (f.envName, encodeCredential arrays f v)
    else none

/-- The values of the other fields that are submitted. -/
def specEntries (fields : List CredentialField) (values : String → Option Text) :
    List (String × JsonValue) :=
  fields.filterMap fun f =>
    if f.sensitive then none else (values f.key).map fun v => (f.key, specValue f v)

/-- The configuration with the values merged into `module_specific`. -/
def mergeSpec (config : Option FileText) (spec : List (String × JsonValue)) : FileText :=
  let root := ((config.bind FileText.value?).filter JsonValue.isObject).getD (.obj [])
  let merged := ((root.get "module_specific").filter JsonValue.isObject).getD (.obj [])
  .pretty (root.set "module_specific"
    (spec.foldl (fun merged e => merged.set e.1 e.2) merged))

/-- `save_module_credentials`, unless the settings file cannot be written; that the
configuration cannot be is not noticed. -/
def saveModuleCredentials (arrays : StringArrays) (writes : Writes)
    (fields : List CredentialField) (values : String → Option Text)
    (files : CredentialFiles) : Option CredentialFiles :=
  let entries := credentialEntries arrays fields values
  let spec := specEntries fields values
  if entries ≠ [] ∧ writes.env = false then none
  else some
    { env := if entries = [] then files.env else some (mergeEnv files.env entries)
      config := if spec = [] ∨ writes.config = false then files.config
        else some (mergeSpec files.config spec) }

end Saving

section Reading

/-- `read_env_map`: the last value of a key counts. -/
def readEnvMap (file : Option Text) (key : Text) : Option Text :=
  ((fileEntries file).reverse.find? fun e => e.1 = key).map (·.2)

/-- `load_config_module_specific`. -/
def moduleSpecific (config : Option FileText) (key : String) : Option JsonValue :=
  ((configValue config "module_specific").filter JsonValue.isObject).bind (·.get key)

/-- `spec_value_to_string`, with the text of what is neither a list nor a string. -/
def specValueToString (text : JsonValue → Text) : JsonValue → Text
  | .arr items => ['\n'].intercalate ((items.filterMap JsonValue.asStr).map String.toList)
  | .str s => s.toList
  | other => text other

/-- A raw value of a field: a list as the lines of its items, if it can be read. -/
def decodeCredential (arrays : StringArrays) (f : CredentialField) (raw : Text) : Text :=
  if f.list then ((arrays.read raw).map ['\n'].intercalate).getD raw else raw

/-- The value of a field: from the configuration, or from the settings file under the
name of its variable or its key. -/
def credentialValue (arrays : StringArrays) (text : JsonValue → Text)
    (files : CredentialFiles) (f : CredentialField) : Option Text :=
  match moduleSpecific files.config f.key with
  | some v => some (specValueToString text v)
  | none => ((readEnvMap files.env f.envName).or
      (readEnvMap files.env f.key.toList)).map (decodeCredential arrays f)

/-- `credential_values_map`: where nothing is found and there is no settings file, all
values of the configuration. -/
def credentialValuesMap (arrays : StringArrays) (text : JsonValue → Text)
    (fields : List CredentialField) (files : CredentialFiles) (key : String) :
    Option Text :=
  if (∀ f ∈ fields, credentialValue arrays text files f = none) ∧ files.env = none then
    (moduleSpecific files.config key).map (specValueToString text)
  else
    fields.reverse.findSome? fun f =>
      if f.key = key then credentialValue arrays text files f else none

end Reading

/-! ## What a save is for -/

/-- The value that is shown after a save. -/
def savedValue (f : CredentialField) (value : Text) : Text :=
  if f.list then ['\n'].intercalate (valueItems value) else value.trim

/-- The field is submitted, and is a secret or not. -/
def Submitted (fields : List CredentialField) (values : String → Option Text)
    (sensitive : Bool) (f : CredentialField) (value : Text) : Prop :=
  f ∈ fields ∧ f.sensitive = sensitive ∧ values f.key = some value

/-- After a save the submitted values are shown, what was not submitted is as it was,
and no key is new in the settings file but those of the schema. -/
structure ShowsSaved (arrays : StringArrays) (text : JsonValue → Text)
    (fields : List CredentialField) (values : String → Option Text)
    (files files' : CredentialFiles) : Prop where
  shown : ∀ f ∈ fields, ∀ value, values f.key = some value →
    credentialValuesMap arrays text fields files' f.key = some (savedValue f value)
  env_kept : ∀ key value, (∀ f v, Submitted fields values true f v → key ≠ f.envName) →
    readEnvMap files.env key = some value → readEnvMap files'.env key = some value
  spec_kept : ∀ key v, (∀ f w, Submitted fields values false f w → key ≠ f.key) →
    moduleSpecific files.config key = some v → moduleSpecific files'.config key = some v
  none_new : ∀ key value, readEnvMap files'.env key = some value →
    (readEnvMap files.env key).isSome ∨ ∃ f ∈ fields, key = f.envName

/-- Every save that returns without an error does that. -/
def SavesCredentials (arrays : StringArrays) (text : JsonValue → Text) (writes : Writes)
    (fields : List CredentialField) (values : String → Option Text)
    (files : CredentialFiles) : Prop :=
  ∀ files', saveModuleCredentials arrays writes fields values files = some files' →
    ShowsSaved arrays text fields values files files'

end CockatielEngine
