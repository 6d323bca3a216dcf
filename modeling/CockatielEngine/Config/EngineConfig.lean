import CockatielEngine.Config.Document

/-!
# Config: the engine's settings

The settings are a record of named fields, each of one of a few kinds.  A file is
decoded field by field: a key that the record does not know is passed over, a
missing one takes its default, if it has one, and a value of the wrong kind makes
the whole file unreadable.  The record is encoded with all its fields and nothing
else.
-/

namespace CockatielEngine

structure ModuleEntry where
  name : String
  priority : Int
deriving DecidableEq, Repr

/-- A float of 32 bits by the decimal that it is written as; an infinite one has
none. -/
abbrev Float32Text := Option ℚ

/-- How a decimal is read as a float of 32 bits. -/
abbrev ReadFloat32 := ℚ → Float32Text

inductive ConfigKind where
  | text
  | unsigned (bits : Nat)
  | flag
  | float
  | modules
deriving DecidableEq, Repr

@[reducible] def ConfigKind.Value : ConfigKind → Type
  | .text => String
  | .unsigned bits => BitVec bits
  | .flag => Bool
  | .float => Float32Text
  | .modules => List ModuleEntry

/-- The fields, in the order of the record. -/
inductive ConfigKey where
  | timelineDatabaseLocation
  | timelineDatabaseBackupLocation
  | timelineDatabaseTargetMb
  | port
  | inputs
  | preprocessModules
  | inprocessModules
  | postprocessModules
  | moduleProbeIntervalSecs
  | moduleProbeResponseSecs
  | moduleApprovalPolicy
  | maxMessageBytes
  | maxConnections
  | handshakeTimeoutSecs
  | sendTimeoutSecs
  | recoveryGraceSecs
  | startPaused
  | shutdownOnRequest
  | predictionCreatorRole
  | timelineBackupIntervalSecs
  | timelineIntegrityCheckOnOpen
  | timelineIntegrityCheckOnBackup
  | timelineIntegrityCheckMinMb
  | logMinSeverity
  | timelineKeepNoiseRows
  | moduleOutboundChannelCapacity
  | moduleBansEnabled
  | moduleBansRefreshSecs
deriving DecidableEq, Repr

namespace ConfigKey

def all : List ConfigKey :=
  [.timelineDatabaseLocation, .timelineDatabaseBackupLocation,
    .timelineDatabaseTargetMb, .port, .inputs, .preprocessModules, .inprocessModules,
    .postprocessModules, .moduleProbeIntervalSecs, .moduleProbeResponseSecs,
    .moduleApprovalPolicy, .maxMessageBytes, .maxConnections, .handshakeTimeoutSecs,
    .sendTimeoutSecs, .recoveryGraceSecs, .startPaused, .shutdownOnRequest,
    .predictionCreatorRole, .timelineBackupIntervalSecs,
    .timelineIntegrityCheckOnOpen, .timelineIntegrityCheckOnBackup,
    .timelineIntegrityCheckMinMb, .logMinSeverity, .timelineKeepNoiseRows,
    .moduleOutboundChannelCapacity, .moduleBansEnabled, .moduleBansRefreshSecs]

/-- The key of a field in the file. -/
def label : ConfigKey → String
  | .timelineDatabaseLocation => "timeline_database_location"
  | .timelineDatabaseBackupLocation => "timeline_database_backup_location"
  | .timelineDatabaseTargetMb => "timeline_database_target_mb"
  | .port => "port"
  | .inputs => "inputs"
  | .preprocessModules => "preprocessModules"
  | .inprocessModules => "inprocessModules"
  | .postprocessModules => "postprocessModules"
  | .moduleProbeIntervalSecs => "module_probe_interval_secs"
  | .moduleProbeResponseSecs => "module_probe_response_secs"
  | .moduleApprovalPolicy => "module_approval_policy"
  | .maxMessageBytes => "max_message_bytes"
  | .maxConnections => "max_connections"
  | .handshakeTimeoutSecs => "handshake_timeout_secs"
  | .sendTimeoutSecs => "send_timeout_secs"
  | .recoveryGraceSecs => "recovery_grace_secs"
  | .startPaused => "start_paused"
  | .shutdownOnRequest => "shutdown_on_request"
  | .predictionCreatorRole => "prediction_creator_role"
  | .timelineBackupIntervalSecs => "timeline_backup_interval_secs"
  | .timelineIntegrityCheckOnOpen => "timeline_integrity_check_on_open"
  | .timelineIntegrityCheckOnBackup => "timeline_integrity_check_on_backup"
  | .timelineIntegrityCheckMinMb => "timeline_integrity_check_min_mb"
  | .logMinSeverity => "log_min_severity"
  | .timelineKeepNoiseRows => "timeline_keep_noise_rows"
  | .moduleOutboundChannelCapacity => "module_outbound_channel_capacity"
  | .moduleBansEnabled => "module_bans_enabled"
  | .moduleBansRefreshSecs => "module_bans_refresh_secs"

def kind : ConfigKey → ConfigKind
  | .timelineDatabaseLocation => .text
  | .timelineDatabaseBackupLocation => .text
  | .timelineDatabaseTargetMb => .unsigned 32
  | .port => .unsigned 16
  | .inputs => .modules
  | .preprocessModules => .modules
  | .inprocessModules => .modules
  | .postprocessModules => .modules
  | .moduleProbeIntervalSecs => .unsigned 32
  | .moduleProbeResponseSecs => .unsigned 32
  | .moduleApprovalPolicy => .text
  | .maxMessageBytes => .unsigned 64
  | .maxConnections => .unsigned 64
  | .handshakeTimeoutSecs => .unsigned 32
  | .sendTimeoutSecs => .unsigned 32
  | .recoveryGraceSecs => .unsigned 32
  | .startPaused => .flag
  | .shutdownOnRequest => .flag
  | .predictionCreatorRole => .text
  | .timelineBackupIntervalSecs => .unsigned 32
  | .timelineIntegrityCheckOnOpen => .flag
  | .timelineIntegrityCheckOnBackup => .flag
  | .timelineIntegrityCheckMinMb => .unsigned 32
  | .logMinSeverity => .float
  | .timelineKeepNoiseRows => .unsigned 32
  | .moduleOutboundChannelCapacity => .unsigned 64
  | .moduleBansEnabled => .flag
  | .moduleBansRefreshSecs => .unsigned 32

/-- The value of a missing field; three of them may not be missing. -/
def default? : (k : ConfigKey) → Option k.kind.Value
  | .timelineDatabaseLocation => none
  | .timelineDatabaseBackupLocation => none
  | .timelineDatabaseTargetMb => some 50#32
  | .port => none
  | .inputs => some ([] : List ModuleEntry)
  | .preprocessModules => some ([] : List ModuleEntry)
  | .inprocessModules => some ([] : List ModuleEntry)
  | .postprocessModules => some ([] : List ModuleEntry)
  | .moduleProbeIntervalSecs => some 30#32
  | .moduleProbeResponseSecs => some 15#32
  | .moduleApprovalPolicy => some "auto-deny"
  | .maxMessageBytes => some (BitVec.ofNat 64 (16 * 1024 * 1024))
  | .maxConnections => some 128#64
  | .handshakeTimeoutSecs => some 10#32
  | .sendTimeoutSecs => some 5#32
  | .recoveryGraceSecs => some 10#32
  | .startPaused => some true
  | .shutdownOnRequest => some false
  | .predictionCreatorRole => some "mod"
  | .timelineBackupIntervalSecs => some 300#32
  | .timelineIntegrityCheckOnOpen => some true
  | .timelineIntegrityCheckOnBackup => some true
  | .timelineIntegrityCheckMinMb => some 5#32
  | .logMinSeverity => some (some (3 / 10))
  | .timelineKeepNoiseRows => some 1000#32
  | .moduleOutboundChannelCapacity => some 256#64
  | .moduleBansEnabled => some true
  | .moduleBansRefreshSecs => some 60#32

theorem mem_all
    (k : ConfigKey) :
    k ∈ all := by
  cases k <;> decide

theorem label_injective : Function.Injective label := by
  have hdistinct : (all.map label).Nodup := by decide
  intro k k' h
  exact List.inj_on_of_nodup_map hdistinct (mem_all k) (mem_all k') h

end ConfigKey

/-- The settings. -/
def Config := (k : ConfigKey) → k.kind.Value

/-- An entry of a module list: an object with both fields, or the two values in
this order. -/
def ModuleEntry.decode : JsonValue → Option ModuleEntry
  | .obj fields =>
      match (JsonValue.obj fields).get "name", (JsonValue.obj fields).get "priority" with
      | some (.str name), some (.num (.int n)) =>
          if -2 ^ 31 ≤ n ∧ n < 2 ^ 31 then some ⟨name, n⟩ else none
      | _, _ => none
  | .arr [.str name, .num (.int n)] =>
      if -2 ^ 31 ≤ n ∧ n < 2 ^ 31 then some ⟨name, n⟩ else none
  | _ => none

def ModuleEntry.encode (e : ModuleEntry) : JsonValue :=
  .obj [("name", .str e.name), ("priority", .num (.int e.priority))]

namespace ConfigKind

/-- Read a value of the kind. -/
def decode (readF32 : ReadFloat32) : (kind : ConfigKind) → JsonValue → Option kind.Value
  | .text, .str s => some s
  | .unsigned bits, .num (.int n) =>
      if 0 ≤ n ∧ n < 2 ^ bits then some (BitVec.ofInt bits n) else none
  | .flag, .bool b => some b
  | .float, .num n => some (readF32 n.value)
  | .modules, .arr elements => elements.mapM ModuleEntry.decode
  | _, _ => none

/-- Write a value of the kind. -/
def encode : (kind : ConfigKind) → kind.Value → JsonValue
  | .text, s => .str s
  | .unsigned _, n => .num (.int n.toNat)
  | .flag, b => .bool b
  | .float, some q => .num (.float q)
  | .float, none => .null
  | .modules, entries => .arr (entries.map ModuleEntry.encode)

end ConfigKind

namespace Config

/-- The value of a field from what the file has under its key. -/
def decodeField (readF32 : ReadFloat32) (k : ConfigKey) :
    Option JsonValue → Option k.kind.Value
  | some v => k.kind.decode readF32 v
  | none => k.default?

/-- The settings of a file: an object, or the values of the fields in their
order. -/
def decode (readF32 : ReadFloat32) (root : JsonValue) : Option Config :=
  match root with
  | .obj fields =>
      assemble fun k => decodeField readF32 k ((JsonValue.obj fields).get k.label)
  | .arr elements =>
      if elements.length ≤ ConfigKey.all.length then
        assemble fun k => decodeField readF32 k elements[ConfigKey.all.idxOf k]?
      else none
  | _ => none
where
  /-- All fields, if each of them can be read. -/
  assemble (fields : (k : ConfigKey) → Option k.kind.Value) : Option Config :=
    if h : ∀ k ∈ ConfigKey.all, (fields k).isSome = true then
      some fun k => (fields k).get (h k (ConfigKey.mem_all k))
    else none

/-- The settings as a value. -/
def encode (c : Config) : JsonValue :=
  .obj (ConfigKey.all.map fun k => (k.label, k.kind.encode (c k)))

/-- The settings that a file holds. -/
def ofText (readF32 : ReadFloat32) : FileText → Option Config
  | .json layout root => if layout.repeatsKey then none else decode readF32 root
  | .malformed _ => none

end Config

/-- The stages whose modules the settings list. -/
inductive ModuleStage where
  | input
  | preprocess
  | inprocess
  | postprocess
deriving DecidableEq, Repr

namespace ModuleStage

def all : List ModuleStage := [.input, .preprocess, .inprocess, .postprocess]

def label : ModuleStage → String
  | .input => "input"
  | .preprocess => "preprocess"
  | .inprocess => "inprocess"
  | .postprocess => "postprocess"

def key : ModuleStage → ConfigKey
  | .input => .inputs
  | .preprocess => .preprocessModules
  | .inprocess => .inprocessModules
  | .postprocess => .postprocessModules

theorem mem_all
    (s : ModuleStage) :
    s ∈ all := by
  cases s <;> decide

end ModuleStage

namespace Config

/-- The modules of a stage. -/
def modules (c : Config) : ModuleStage → List ModuleEntry
  | .input => c .inputs
  | .preprocess => c .preprocessModules
  | .inprocess => c .inprocessModules
  | .postprocess => c .postprocessModules

/-- The settings with other modules in a stage. -/
def setModules (c : Config) (s : ModuleStage) (entries : List ModuleEntry) : Config :=
  match s with
  | .input => Function.update c .inputs entries
  | .preprocess => Function.update c .preprocessModules entries
  | .inprocess => Function.update c .inprocessModules entries
  | .postprocess => Function.update c .postprocessModules entries

section Lemmas

variable {c : Config} {readF32 : ReadFloat32} {root v : JsonValue} {k : ConfigKey}
variable {s s' : ModuleStage} {entries : List ModuleEntry} {key : String}

@[simp] theorem modules_setModules :
    (c.setModules s entries).modules s' = if s' = s then entries else c.modules s' := by
  cases s <;> cases s' <;> rfl

theorem get_encode_label :
    c.encode.get k.label = some (k.kind.encode (c k)) := by
  have hfind : ∀ keys : List ConfigKey, k ∈ keys →
      (JsonValue.obj (keys.map fun k => (k.label, k.kind.encode (c k)))).get k.label =
        some (k.kind.encode (c k)) := by
    intro keys hk
    induction keys with
    | nil => exact absurd hk List.not_mem_nil
    | cons k' keys ih =>
        rw [List.map_cons, JsonValue.get_obj_cons]
        by_cases hlabel : k'.label = k.label
        · obtain rfl := ConfigKey.label_injective hlabel
          rw [if_pos rfl]
        · rw [if_neg hlabel]
          refine ih ((List.mem_cons.mp hk).resolve_left ?_)
          rintro rfl
          exact hlabel rfl
  exact hfind ConfigKey.all (ConfigKey.mem_all k)

/-- The settings have no other key. -/
theorem get_encode_unknown
    (h : ∀ k : ConfigKey, k.label ≠ key) :
    c.encode.get key = none := by
  have hfind : ∀ keys : List ConfigKey,
      (JsonValue.obj (keys.map fun k => (k.label, k.kind.encode (c k)))).get key =
        none := by
    intro keys
    induction keys with
    | nil => rfl
    | cons k' keys ih => rw [List.map_cons, JsonValue.get_obj_cons, if_neg (h k'), ih]
  exact hfind ConfigKey.all

/-- In settings that were decoded from an object, every key that it has is read
from it. -/
theorem decode_eq_some
    (h : decode readF32 root = some c)
    (hget : root.get k.label = some v) :
    k.kind.decode readF32 v = some (c k) := by
  obtain ⟨fields, rfl⟩ : ∃ fields, root = .obj fields := by
    cases root with
    | obj fields => exact ⟨fields, rfl⟩
    | _ => cases hget
  simp only [decode, decode.assemble] at h
  split at h
  · obtain rfl := Option.some.inj h
    rw [Option.some_get, hget]
    rfl
  · cases h

/-- Settings that are read as they are written: their severity is a float, and the
priorities have 32 bits. -/
structure Writable (readF32 : ReadFloat32) (c : Config) : Prop where
  severity : ∃ q, c .logMinSeverity = some q ∧ readF32 q = some q
  priorities : ∀ s, ∀ e ∈ c.modules s, -2 ^ 31 ≤ e.priority ∧ e.priority < 2 ^ 31

theorem decode_encode_entries
    {entries : List ModuleEntry}
    (h : ∀ e ∈ entries, -2 ^ 31 ≤ e.priority ∧ e.priority < 2 ^ 31) :
    (entries.map ModuleEntry.encode).mapM ModuleEntry.decode = some entries := by
  induction entries with
  | nil => rfl
  | cons e entries ih =>
      have hfirst : ModuleEntry.decode e.encode = some e := by
        exact if_pos (h e List.mem_cons_self)
      rw [List.map_cons, List.mapM_cons, hfirst,
        ih fun e he => h e (List.mem_cons_of_mem _ he)]
      rfl

theorem decode_encode_unsigned
    {bits : Nat}
    (x : BitVec bits) :
    ConfigKind.decode readF32 (.unsigned bits) (ConfigKind.encode (.unsigned bits) x) =
      some x := by
  have hlt : (x.toNat : Int) < 2 ^ bits := by exact_mod_cast x.isLt
  rw [ConfigKind.encode, ConfigKind.decode, if_pos ⟨by positivity, hlt⟩]
  simp

/-- Every field is read as it is written. -/
theorem decode_encode_key
    (h : c.Writable readF32)
    (k : ConfigKey) :
    k.kind.decode readF32 (k.kind.encode (c k)) = some (c k) := by
  cases k with
  | logMinSeverity =>
      obtain ⟨q, hq, hread⟩ := h.severity
      rw [hq]
      exact congrArg some hread
  | inputs => exact decode_encode_entries (h.priorities .input)
  | preprocessModules => exact decode_encode_entries (h.priorities .preprocess)
  | inprocessModules => exact decode_encode_entries (h.priorities .inprocess)
  | postprocessModules => exact decode_encode_entries (h.priorities .postprocess)
  | _ => first | exact decode_encode_unsigned _ | rfl

theorem assemble_eq_some
    {fields : (k : ConfigKey) → Option k.kind.Value}
    (h : ∀ k, fields k = some (c k)) :
    decode.assemble fields = some c := by
  have hall : ∀ k ∈ ConfigKey.all, (fields k).isSome = true := fun k _ => by
    rw [h k]
    rfl
  rw [decode.assemble, dif_pos hall]
  congr 1
  funext k
  exact Option.get_of_eq_some _ (h k)

/-- What is written is read back. -/
theorem decode_encode
    (h : c.Writable readF32) :
    decode readF32 c.encode = some c :=
  assemble_eq_some fun k => by
    rw [← encode, get_encode_label]
    exact decode_encode_key h k

theorem ofText_pretty
    (root : JsonValue) :
    ofText readF32 (.pretty root) = decode readF32 root := rfl

end Lemmas

end Config

end CockatielEngine
