import CockatielEngine.Audit.BlockAppeal
import CockatielEngine.Blocks.BlockCache

/-!
# Blocks: the queries that touch the user database

The user database is a set of users, each with a block flag and platform
channels, that answers every request with the user's current record.  How it
finds a user by a platform identity is left open.

The query handlers verify the acting moderator, ask the database, and keep the
block cache in step.
-/

namespace CockatielEngine

/-- Who set a block. -/
structure BlockActor where
  uuid7 : String
  platform : String
  handle : String
deriving DecidableEq, Repr

/-- What the `blocked` key of a user's flags holds. -/
structure BlockFlag where
  reason : String
  blockedBy : BlockActor
deriving DecidableEq, Repr

/-- The channel is another one than that of the id. -/
def ChannelRef.isNot (platform channelId : String) (ch : ChannelRef) : Bool :=
  !(ch.platform = platform && ch.channelId = channelId)

/-- A user's record. -/
structure User where
  username : String
  channels : List ChannelRef := []
  blocked : Option BlockFlag := none
  isModerator : Bool := false
  isAdmin : Bool := false
  isOwner : Bool := false
deriving DecidableEq, Repr

/-- The user database: its records under the users' uuids. -/
structure UserDb where
  users : List (UserUuid × User) := []
deriving DecidableEq

/-- The answer to a request. -/
structure UserDbResponse where
  success : Bool
  user : Option User
deriving DecidableEq, Repr

namespace UserDb

def user? (db : UserDb) (u : UserUuid) : Option User :=
  (db.users.find? fun r => r.1 = u).map (·.2)

/-- The user of a uuid that came as text. -/
def byUuid (db : UserDb) (uuid7 : String) : Option UserUuid :=
  (db.users.find? fun r => r.1.val = uuid7).map (·.1)

def update (db : UserDb) (u : UserUuid) (f : User → User) : UserDb :=
  { users := db.users.map fun r => if r.1 = u then (r.1, f r.2) else r }

/-- Change the user's record, if there is one, and answer with it. -/
def write (db : UserDb) (uuid7 : String) (f : User → User) :
    UserDb × UserDbResponse :=
  match db.byUuid uuid7 with
  | some u =>
      (db.update u f, { success := true, user := (db.update u f).user? u })
  | none => (db, { success := false, user := none })

def blockUser (db : UserDb) (uuid7 reason : String) (actor : BlockActor) :
    UserDb × UserDbResponse :=
  db.write uuid7 fun user => { user with blocked := some ⟨reason, actor⟩ }

def unblockUser (db : UserDb) (uuid7 : String) : UserDb × UserDbResponse :=
  db.write uuid7 fun user => { user with blocked := none }

def addChannel (db : UserDb) (uuid7 : String) (channel : Option ChannelRef) :
    UserDb × UserDbResponse :=
  db.write uuid7 fun user =>
    { user with channels := user.channels ++ channel.toList }

def removeChannel (db : UserDb) (uuid7 platform channelId : String) :
    UserDb × UserDbResponse :=
  db.write uuid7 fun user =>
    { user with channels := user.channels.filter (·.isNot platform channelId) }

/-- Open an account under a uuid that the database gives out. -/
def addUser (db : UserDb) (u : UserUuid) (username : String)
    (channel : Option ChannelRef) : UserDb :=
  { users := db.users ++ [(u, { username, channels := channel.toList })] }

end UserDb

/-- A query's error. -/
abbrev QueryError := String

/-- The payload of a block or an unblock. -/
structure BlockPayload where
  actor : Option BlockActor
  uuid7 : String := ""
  platform : String := ""
  handle : String := ""
  reason : String := ""
deriving DecidableEq, Repr

/-- The payload of a split. -/
structure SplitPayload where
  uuid7 : String
  platform : String
  channelId : String
  handle : String
deriving DecidableEq, Repr

/-- Only a moderator, an admin or the owner may block or unblock anyone. -/
def blockActorHasAuthority (user : User) : Bool :=
  user.isModerator || user.isAdmin || user.isOwner

/-- How the user database finds a user by a platform identity. -/
abbrev FindUser := UserDb → (platform channelId handle : String) → Option UserUuid

/-- The acting moderator and the target of a block or an unblock. -/
def resolveBlockActorAndTarget (findUser : FindUser) (db : UserDb)
    (queryId : String) (payload : BlockPayload) :
    Except QueryError (String × BlockActor) :=
  match payload.actor with
  | none => .error "permission denied: missing actor"
  | some actor =>
      let found :=
        if actor.uuid7 ≠ "" then db.byUuid actor.uuid7
        else findUser db actor.platform actor.handle actor.handle
      match found.bind fun u => (db.user? u).map fun user => (u, user) with
      | none =>
          .error "permission denied: actor is not a moderator/admin/owner"
      | some (u, user) =>
          if !blockActorHasAuthority user then
            .error "permission denied: actor is not a moderator/admin/owner"
          else
            let by_ : BlockActor :=
              { uuid7 := u.val
                platform := actor.platform
                handle := if actor.handle = "" then user.username else actor.handle }
            if payload.uuid7 ≠ "" then .ok (payload.uuid7, by_)
            else if payload.platform ≠ "" ∧ payload.handle ≠ "" then
              match findUser db payload.platform payload.handle payload.handle with
              | none =>
                  .error ("User '" ++ payload.handle ++ "' not found on " ++
                    payload.platform)
              | some target => .ok (target.val, by_)
            else .error (queryId ++ " requires uuid7 or platform + handle")

/-- The fields of a split, each of which the handler insists on. -/
def parseSplitChannelPayload (payload : SplitPayload) :
    Except QueryError (String × ChannelRef) :=
  if payload.uuid7 = "" then .error "userdb_split_channel requires uuid7"
  else if payload.platform = "" then
    .error "userdb_split_channel requires platform"
  else if payload.channelId = "" then
    .error "userdb_split_channel requires channel_id"
  else .ok (payload.uuid7, ⟨payload.platform, payload.channelId, payload.handle⟩)

/-- The user database, the block cache and the timeline that the queries act
on. -/
structure BlockStores where
  db : UserDb
  cache : Finset String := ∅
  timeline : Timeline := {}

namespace BlockStores

variable (findUser : FindUser)

def userdbBlock (s : BlockStores) (payload : BlockPayload) :
    Except QueryError BlockStores :=
  match resolveBlockActorAndTarget findUser s.db "userdb_block" payload with
  | .error e => .error e
  | .ok (target, actor) =>
      let r := s.db.blockUser target payload.reason actor
      .ok
        { s with
          db := r.1
          cache :=
            if r.2.success then
              markUserBlocked s.cache target
                ((r.2.user.map (·.channels)).getD [])
            else s.cache }

def userdbUnblock (s : BlockStores) (payload : BlockPayload) :
    Except QueryError BlockStores :=
  match resolveBlockActorAndTarget findUser s.db "userdb_unblock" payload with
  | .error e => .error e
  | .ok (target, _) =>
      let r := s.db.unblockUser target
      .ok
        { s with
          db := r.1
          cache :=
            if r.2.success then
              markUserUnblocked s.cache target
                ((r.2.user.map (·.channels)).getD [])
            else s.cache }

def userdbAddChannel (s : BlockStores) (uuid7 : String)
    (channel : Option ChannelRef) : BlockStores :=
  { s with db := (s.db.addChannel uuid7 channel).1 }

def userdbRemoveChannel (s : BlockStores) (uuid7 platform channelId : String) :
    BlockStores :=
  { s with db := (s.db.removeChannel uuid7 platform channelId).1 }

/-- Detach a channel and open an account for it; `u` is the new account's. -/
def userdbSplitChannel (s : BlockStores) (payload : SplitPayload)
    (u : UserUuid) : Except QueryError BlockStores :=
  match parseSplitChannelPayload payload with
  | .error e => .error e
  | .ok (uuid7, channel) =>
      let r := s.db.removeChannel uuid7 channel.platform channel.channelId
      if r.2.success then
        let username :=
          if channel.handle = "" then channel.channelId else channel.handle
        .ok { s with db := r.1.addUser u username (some channel) }
      else .error "userdb_split_channel: remove_channel failed"

/-- What an audit decision does to the stores when the row is an appeal. -/
def resolveBlockAppeal (s : BlockStores) (uuid7 reason : String)
    (approved : Bool) : BlockStores × Option AppealVerdict :=
  if !isBlockAppealReason reason then (s, none)
  else
    let user := s.timeline.appealUser uuid7
    ({ s with
        db := if approved && user ≠ "" then (s.db.unblockUser user).1 else s.db },
      some ⟨uuid7, approved⟩)

/-- A decision on an audited message for the given reason. -/
def decideAudit (s : BlockStores) (uuid7 reason : String) (approve : Bool)
    (now : Nat) : BlockStores :=
  let r := (s.resolveBlockAppeal uuid7 reason approve).1
  { r with timeline := r.timeline.releaseAudit uuid7 approve now }

/-- `audit_approve` and `audit_reject`. -/
def auditAction (s : BlockStores) (uuid7 : String) (approve : Bool)
    (now : Nat) : Except QueryError BlockStores :=
  if uuid7 = "" then .error "audit action requires uuid7"
  else .ok (s.decideAudit uuid7 (s.timeline.auditReason uuid7) approve now)

end BlockStores

section Lemmas

namespace UserDb

variable {db : UserDb} {u v : UserUuid}

theorem user?_map_update
    (users : List (UserUuid × User)) (u v : UserUuid) (f : User → User) :
    user? (update ⟨users⟩ u f) v =
      if v = u then (user? ⟨users⟩ v).map f else user? ⟨users⟩ v := by
  simp only [user?, update]
  induction users with
  | nil =>
      simp
  | cons r rest ih =>
      by_cases hr : r.1 = v
      · subst hr
        by_cases hu : r.1 = u <;> simp [hu]
      · have hkey : (if r.1 = u then (r.1, f r.2) else r).1 = r.1 := by
          split <;> rfl
        simpa [List.find?_cons, hkey, hr] using ih

@[simp] theorem user?_update
    (f : User → User) :
    (db.update u f).user? v =
      if v = u then (db.user? v).map f else db.user? v :=
  user?_map_update db.users u v f

/-- The text of a user's uuid stands for that user alone. -/
theorem byUuid_eq_some
    {uuid7 : String}
    (h : db.byUuid uuid7 = some u) :
    u.val = uuid7 ∧ ∃ user, db.user? u = some user := by
  obtain ⟨r, hr, rfl⟩ := Option.map_eq_some_iff.mp h
  have hval : r.1.val = uuid7 := by simpa using List.find?_some hr
  refine ⟨hval, ?_⟩
  have hsome : (db.users.find? fun r' => r'.1 = r.1).isSome := by
    rw [List.find?_isSome]
    exact ⟨r, List.mem_of_find?_eq_some hr, by simp⟩
  obtain ⟨r', hr'⟩ := Option.isSome_iff_exists.mp hsome
  exact ⟨r'.2, by simp [user?, hr']⟩

theorem byUuid_eq_none
    {uuid7 : String}
    (h : db.byUuid uuid7 = none)
    (hu : u.val = uuid7) :
    db.user? u = none := by
  have hnone := Option.map_eq_none_iff.mp h
  rw [List.find?_eq_none] at hnone
  have hfind : db.users.find? (fun r => r.1 = u) = none := by
    rw [List.find?_eq_none]
    intro r hr hru
    exact hnone r hr (by simpa [of_decide_eq_true hru] using hu)
  simp [user?, hfind]

/-- Everything a write does. -/
theorem write_cases
    (uuid7 : String) (f : User → User) :
    ((∀ u : UserUuid, u.val = uuid7 → db.user? u = none) ∧
      db.write uuid7 f = (db, ⟨false, none⟩)) ∨
    ∃ u user, u.val = uuid7 ∧ db.user? u = some user ∧
      db.write uuid7 f = (db.update u f, ⟨true, some (f user)⟩) := by
  cases h : db.byUuid uuid7 with
  | none =>
      exact Or.inl ⟨fun u hu => byUuid_eq_none h hu, by simp [write, h]⟩
  | some u =>
      obtain ⟨hval, user, huser⟩ := byUuid_eq_some h
      exact Or.inr ⟨u, user, hval, huser, by simp [write, h, huser]⟩

/-- A new account, under a uuid that was not given out before. -/
theorem user?_addUser
    (username : String) (channel : Option ChannelRef)
    (hnew : db.user? u = none) :
    (db.addUser u username channel).user? v =
      if v = u then some { username, channels := channel.toList }
      else db.user? v := by
  have hnone : db.users.find? (fun r => r.1 = u) = none :=
    Option.map_eq_none_iff.mp hnew
  by_cases hv : v = u
  · subst hv
    simp [user?, addUser, List.find?_append, hnone]
  · simp [user?, addUser, List.find?_append, hv, Ne.symm hv]

end UserDb

end Lemmas

end CockatielEngine
