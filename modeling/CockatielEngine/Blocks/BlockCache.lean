import Mathlib.Data.Finset.Basic
import CockatielEngine.Commands.CommandParsing

/-!
# Blocks: the cache of blocked identities

The orchestrator drops a blocked user's message before it knows whose message
it is.  The cache holds the blocked users' uuids and, under an alias key, the
ids and handles of their platform channels.
-/

namespace CockatielEngine

/-- Text without the white space around it. -/
def trimmed (s : String) : String :=
  .ofList (Text.trim s.toList)

/-- The separator of an alias key. -/
def nul : Char :=
  Char.ofNat 0

/-- A user's canonical uuid, as the user database gives it out. -/
structure UserUuid where
  val : String
  canonical : trimmed val = val
  nonempty : val ≠ ""
  noSeparator : nul ∉ val.toList
deriving DecidableEq

/-- One of a user's platform channels. -/
structure ChannelRef where
  platform : String
  channelId : String
  handle : String
deriving DecidableEq, Repr

/-- The key of a channel in the cache. -/
def blockedAliasKey (platform identifier : String) : String :=
  .ofList (platform.toList ++ nul :: identifier.toList)

/-- Whether a module holds a ban for the identifier. -/
def isModuleBanned (moduleBans : List (Finset String))
    (platform identifier : String) : Bool :=
  let id := trimmed identifier
  if id = "" then false
  else
    moduleBans.any fun bans =>
      decide (id ∈ bans) || decide (blockedAliasKey platform id ∈ bans)

/-- Whether the sender is blocked, before any enrichment. -/
def isIdentifierBlocked (cache : Finset String)
    (moduleBans : List (Finset String)) (platform identifier : String) : Bool :=
  let id := trimmed identifier
  if id = "" then false
  else if id ∈ cache ∨ blockedAliasKey platform id ∈ cache then true
  else isModuleBanned moduleBans platform id

/-- The keys a block adds for a channel. -/
def ChannelRef.blockKeys (ch : ChannelRef) : List String :=
  (if trimmed ch.channelId = "" then []
    else [blockedAliasKey ch.platform ch.channelId]) ++
  (if trimmed ch.handle = "" then []
    else [blockedAliasKey ch.platform ch.handle])

/-- The keys an unblock removes for a channel. -/
def ChannelRef.unblockKeys (ch : ChannelRef) : List String :=
  [blockedAliasKey ch.platform ch.channelId,
    blockedAliasKey ch.platform ch.handle]

/-- The keys a block adds for a user. -/
def blockKeys (uuid7 : String) (channels : List ChannelRef) : List String :=
  if trimmed uuid7 = "" then []
  else uuid7 :: channels.flatMap ChannelRef.blockKeys

/-- The keys an unblock removes for a user. -/
def unblockKeys (uuid7 : String) (channels : List ChannelRef) : List String :=
  uuid7 :: channels.flatMap ChannelRef.unblockKeys

def markUserBlocked (cache : Finset String) (uuid7 : String)
    (channels : List ChannelRef) : Finset String :=
  cache ∪ (blockKeys uuid7 channels).toFinset

def markUserUnblocked (cache : Finset String) (uuid7 : String)
    (channels : List ChannelRef) : Finset String :=
  cache \ (unblockKeys uuid7 channels).toFinset

/-- The key answers a question about the identifier. -/
def KeyAnswers (key platform identifier : String) : Prop :=
  key = trimmed identifier ∨ key = blockedAliasKey platform (trimmed identifier)

section Lemmas

variable {cache : Finset String} {uuid7 platform identifier key : String}
variable {channels : List ChannelRef}

@[simp] theorem mem_markUserBlocked :
    key ∈ markUserBlocked cache uuid7 channels ↔
      key ∈ cache ∨ key ∈ blockKeys uuid7 channels := by
  simp [markUserBlocked]

@[simp] theorem mem_markUserUnblocked :
    key ∈ markUserUnblocked cache uuid7 channels ↔
      key ∈ cache ∧ key ∉ unblockKeys uuid7 channels := by
  simp [markUserUnblocked]

/-- Module bans aside, a sender is blocked when a key of the cache answers for
the identifier. -/
theorem isIdentifierBlocked_iff
    (hid : trimmed identifier ≠ "") :
    isIdentifierBlocked cache [] platform identifier = true ↔
      ∃ key ∈ cache, KeyAnswers key platform identifier := by
  simp only [isIdentifierBlocked, isModuleBanned, hid, if_false, List.any_nil,
    ite_self, KeyAnswers]
  constructor
  · intro h
    split at h
    · rename_i hmem
      rcases hmem with hmem | hmem
      · exact ⟨_, hmem, Or.inl rfl⟩
      · exact ⟨_, hmem, Or.inr rfl⟩
    · cases h
  · rintro ⟨key, hmem, rfl | rfl⟩
    · simp [hmem]
    · simp [hmem]

/-- A system message has no identifier and is never blocked. -/
theorem isIdentifierBlocked_blank
    (moduleBans : List (Finset String))
    (hid : trimmed identifier = "") :
    isIdentifierBlocked cache moduleBans platform identifier = false := by
  simp [isIdentifierBlocked, hid]

theorem nul_mem_blockedAliasKey :
    nul ∈ (blockedAliasKey platform identifier).toList := by
  rw [blockedAliasKey, String.toList_ofList]
  exact List.mem_append_right _ List.mem_cons_self

/-- No uuid of a user is the alias key of a channel. -/
theorem UserUuid.ne_blockedAliasKey
    (u : UserUuid) :
    u.val ≠ blockedAliasKey platform identifier := by
  intro h
  have hseparator := u.noSeparator
  rw [h] at hseparator
  exact hseparator nul_mem_blockedAliasKey

/-- Users of one uuid are the same. -/
theorem UserUuid.eq_of_val
    {u v : UserUuid}
    (h : u.val = v.val) :
    u = v := by
  cases u
  cases v
  simpa using h

theorem UserUuid.mem_blockKeys_iff
    (u v : UserUuid) :
    u.val ∈ blockKeys v.val channels ↔ u = v := by
  have halias (ch : ChannelRef) : u.val ∉ ch.blockKeys := by
    intro hmem
    simp only [ChannelRef.blockKeys, List.mem_append] at hmem
    rcases hmem with hmem | hmem
    all_goals
      split at hmem
      · cases hmem
      · exact u.ne_blockedAliasKey (List.mem_singleton.mp hmem)
  have hnonempty : trimmed v.val ≠ "" := by
    rw [v.canonical]
    exact v.nonempty
  rw [blockKeys, if_neg hnonempty, List.mem_cons, List.mem_flatMap]
  constructor
  · rintro (h | ⟨ch, -, hmem⟩)
    · exact UserUuid.eq_of_val h
    · exact absurd hmem (halias ch)
  · rintro rfl
    exact Or.inl rfl

theorem UserUuid.mem_unblockKeys_iff
    (u v : UserUuid) :
    u.val ∈ unblockKeys v.val channels ↔ u = v := by
  have halias (ch : ChannelRef) : u.val ∉ ch.unblockKeys := by
    simp only [ChannelRef.unblockKeys, List.mem_cons, List.not_mem_nil, or_false]
    rintro (h | h)
    · exact u.ne_blockedAliasKey h
    · exact u.ne_blockedAliasKey h
  rw [unblockKeys, List.mem_cons, List.mem_flatMap]
  constructor
  · rintro (h | ⟨ch, -, hmem⟩)
    · exact UserUuid.eq_of_val h
    · exact absurd hmem (halias ch)
  · rintro rfl
    exact Or.inl rfl

end Lemmas

end CockatielEngine
