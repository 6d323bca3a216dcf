import CockatielEngine.Config.Document
import CockatielEngine.Text.EnvMerge
import CockatielEngine.Text.UuidText

/-!
# Config: the secrets of the engine

At a start the PIN and the token secret come from the environment, from the file of
settings next to the configuration, from the configuration of an older version, or
are made.  They are written to the file together with the settings that have a
default, and taken out of the configuration.

Every file operation is taken to succeed.
-/

namespace CockatielEngine

/-- The character that no variable may have. -/
def nulChar : Char := Char.ofNat 0

/-- The variables of a process. -/
structure Environment where
  var : Text → Option Text
  no_nul : ∀ key value, var key = some value → nulChar ∉ key ∧ nulChar ∉ value

namespace Environment

/-- No variable is set. -/
def empty : Environment where
  var := fun _ => none
  no_nul _ _ h := nomatch h

/-- `env::set_var`. -/
def set (env : Environment) (key value : Text) (h : nulChar ∉ key ∧ nulChar ∉ value) :
    Environment where
  var := Function.update env.var key (some value)
  no_nul key' value' hvar := by
    by_cases hkey : key' = key
    · rw [hkey, Function.update_self] at hvar
      rwa [hkey, ← Option.some.inj hvar]
    · rw [Function.update_of_ne hkey] at hvar
      exact env.no_nul key' value' hvar

end Environment

section Loading

/-- The variable of an entry is set unless it is already; a null character
panics. -/
def loadEntry (env : Environment) (entry : Text × Text) : Option Environment :=
  if (env.var entry.1).isSome then some env
  else if h : nulChar ∉ entry.1 ∧ nulChar ∉ entry.2 then some (env.set entry.1 entry.2 h)
  else none

/-- The entries of a file, none if there is no file. -/
def fileEntries (file : Option Text) : List (Text × Text) :=
  (fileLines file).filterMap envEntry

/-- `load_env_file`. -/
def loadEnvFile (env : Environment) (file : Option Text) : Option Environment :=
  (fileEntries file).foldlM loadEntry env

end Loading

section Sources

/-- `str::parse::<u32>`. -/
def parseU32 (t : Text) : Option (BitVec 32) :=
  let digits := if t.head? = some '+' then t.tail else t
  if digits ≠ [] ∧ digits.all Char.isDigit ∧ Nat.ofDigitChars 10 digits 0 < 2 ^ 32 then
    some (BitVec.ofNat 32 (Nat.ofDigitChars 10 digits 0))
  else none

def pinKey : Text := "COCKATIEL_PIN".toList

def secretKey : Text := "COCKATIEL_JWT_SECRET".toList

/-- The settings that are written with their defaults. -/
def settingDefaults : List (Text × Text) :=
  [("COCKATIEL_BIND_IP".toList, "127.0.0.1".toList),
    ("USER_DB_HOST".toList, "127.0.0.1".toList), ("USER_DB_PORT".toList, "9736".toList)]

/-- The value of a key in the configuration. -/
def configValue (config : Option FileText) (key : String) : Option JsonValue :=
  (config.bind FileText.value?).bind (·.get key)

/-- The PIN of an older configuration, cut to its width. -/
def legacyPin (config : Option FileText) : Option (BitVec 32) :=
  match configValue config "paring_pin" with
  | some (.num (.int n)) => if 0 ≤ n then some (BitVec.ofInt 32 n) else none
  | _ => none

def legacySecret (config : Option FileText) : Option Text :=
  (((configValue config "jwt_secret").bind JsonValue.asStr).map String.toList).filter
    (· ≠ [])

/-- The object without the key. -/
def JsonValue.remove (j : JsonValue) (key : String) : JsonValue :=
  match j with
  | .obj fields => .obj (fields.filter fun f => f.1 ≠ key)
  | j => j

/-- The configuration without the secrets of an older one. -/
def stripSecrets (config : Option FileText) : Option FileText :=
  match config.bind FileText.value? with
  | some root =>
      if (root.get "paring_pin").isSome ∨ (root.get "jwt_secret").isSome then
        some (.pretty ((root.remove "paring_pin").remove "jwt_secret"))
      else config
  | none => config

/-- The bytes as one number. -/
def Uuid.asU128 (u : Uuid) : Nat :=
  u.1.foldl (fun n b => 256 * n + b.toNat) 0

/-- The uuids that secrets are made of. -/
structure FreshSecrets where
  pinUuid : Uuid
  secretUuid : Uuid

def FreshSecrets.pin (fresh : FreshSecrets) : BitVec 32 :=
  BitVec.ofNat 32 (100000 + fresh.pinUuid.asU128 % 900000)

def FreshSecrets.secret (fresh : FreshSecrets) : Text :=
  hyphenate fresh.secretUuid.1

structure Secrets where
  pin : BitVec 32
  secret : Text

/-- The secrets by precedence: variables, an older configuration, made ones. -/
def resolveSecrets (var : Text → Option Text) (config : Option FileText)
    (fresh : FreshSecrets) : Secrets where
  pin := (((var pinKey).bind parseU32).or (legacyPin config)).getD fresh.pin
  secret := (((var secretKey).filter fun s => s.trim ≠ []).or
    (legacySecret config)).getD fresh.secret

end Sources

/-- The settings file and the configuration. -/
structure SecretFiles where
  env : Option Text
  config : Option FileText

/-- What is written to the settings file. -/
def secretEntries (secrets : Secrets) : List (Text × Text) :=
  (pinKey, Nat.toDigits 10 secrets.pin.toNat) :: (secretKey, secrets.secret) ::
    settingDefaults

def secretKeys : List Text :=
  pinKey :: secretKey :: settingDefaults.map (·.1)

/-- `ensure_secrets`. -/
def ensureSecrets (env : Environment) (files : SecretFiles) (fresh : FreshSecrets) :
    Option (Secrets × SecretFiles) :=
  (loadEnvFile env files.env).map fun env =>
    let secrets := resolveSecrets env.var files.config fresh
    (secrets, { env := some (mergeEnv files.env (secretEntries secrets))
                config := stripSecrets files.config })

/-! ## What a restart finds -/

/-- The value of the key on disk: the first one counts. -/
def envValue (file : Option Text) (key : Text) : Option Text :=
  ((fileEntries file).find? fun e => e.1 = key).map (·.2)

/-- The values that are set on disk are still there, the secrets apart, and a later
start without them in its environment has the same secrets and changes no file. -/
def SurvivesRestart (env : Environment) (files : SecretFiles) (fresh : FreshSecrets) :
    Prop :=
  ∃ secrets files', ensureSecrets env files fresh = some (secrets, files') ∧
    (∀ key, key ≠ pinKey → key ≠ secretKey → ∀ value,
      envValue files.env key = some value → envValue files'.env key = some value) ∧
    ∀ env' fresh', env'.var pinKey = none → env'.var secretKey = none →
      ensureSecrets env' files' fresh' = some (secrets, files')

/-- The line that counts for the key is one that a write does not find. -/
def SpacedFirst (key : Text) (lines : List Text) : Prop :=
  ∃ line, (entryLines key lines).head? = some line ∧ isLineOf key line = false

/-- What the sources have, the environment before the file. -/
def givenSecrets (env : Environment) (files : SecretFiles) (fresh : FreshSecrets) :
    Secrets :=
  resolveSecrets (fun key => (env.var key).or (envValue files.env key)) files.config
    fresh

/-- The settings have their defaults or are not found by a write, the secrets are
read as they are written, or are those on a line that a write does not find, and the
lines of the file are read as they are written. -/
structure Restartable (env : Environment) (files : SecretFiles)
    (fresh : FreshSecrets) : Prop where
  no_nul : ∀ key value, envValue files.env key = some value →
    (key = pinKey ∨ key = secretKey → env.var key = none) →
      nulChar ∉ key ∧ nulChar ∉ value
  settings : ∀ d ∈ settingDefaults, ∀ value, envValue files.env d.1 = some value →
    value = d.2 ∨ SpacedFirst d.1 (fileLines files.env)
  pin : SpacedFirst pinKey (fileLines files.env) →
    (envValue files.env pinKey).bind parseU32 = some (givenSecrets env files fresh).pin
  secret_no_nul : nulChar ∉ (givenSecrets env files fresh).secret
  secret_no_feed : '\n' ∉ (givenSecrets env files fresh).secret
  secret_not_blank : (givenSecrets env files fresh).secret.trim ≠ []
  secret_spaced : SpacedFirst secretKey (fileLines files.env) →
    envValue files.env secretKey = some (givenSecrets env files fresh).secret
  secret_written : ¬ SpacedFirst secretKey (fileLines files.env) →
    unquote (givenSecrets env files fresh).secret.trim =
      (givenSecrets env files fresh).secret
  no_return : ∀ line ∈ keptLines secretKeys (fileLines files.env),
    line.getLast? ≠ some '\r'
  no_blank : ¬ (HasLines secretKeys (fileLines files.env) ∧
    [[], []] <:+ fileLines files.env)

end CockatielEngine
