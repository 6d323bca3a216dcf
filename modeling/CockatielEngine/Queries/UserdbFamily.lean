import CockatielEngine.Queries.UserDbQueries

/-!
# Queries: the `userdb_*` family

`userdb_virtual_query` selects one operation by the name of its query, reads that
operation's fields from the payload and sends one request to the user database;
a split sends two.  A name that it has no case for is an unknown query.
-/

namespace CockatielEngine

namespace Json

def asBool : Json → Option Bool
  | .bool b => some b
  | _ => none

def flag (j : Json) (key : String) : Bool :=
  ((j.get key).bind asBool).getD false

/-- An integer of a field, cut to 32 bits. -/
def int32 (j : Json) (key : String) (default : Int) : Int :=
  match (j.get key).bind asI64 with
  | some n => n.bmod (2 ^ 32)
  | none => default.bmod (2 ^ 32)

end Json

/-- A value as it is written to the user database. -/
inductive UserValue where
  | text (s : String)
  | encoded (j : Json)

/-- The requests of the family. -/
inductive UserdbRequest where
  | addUser (username : String) (channel : Option ChannelRef)
  | deleteUser (uuid7 actorUuid7 actorRole : String)
  | addScore (uuid7 : String) (delta : Int) (reason : String)
  | removeScore (uuid7 : String) (delta : Int) (reason : String)
  | addChannel (uuid7 : String) (channel : Option ChannelRef)
  | removeChannel (uuid7 platform channelId : String)
  | getUser (uuid7 platform channelId handle : String)
  | listUsers (platform : String) (limit offset : Int)
  | updateFlags (uuid7 flags : String)
  | setRoles (uuid7 actorUuid7 actorRole : String)
      (isSponsor isModerator isAdmin isOwner : Bool)
  | readUserValue (uuid7 key : String)
  | writeUserValue (uuid7 key : String) (value : UserValue)
  | deleteUserValue (uuid7 key : String)
  | listUserValues (uuid7 : String)
  | rateUser (giver recipient : String) (isCommendation : Bool)
      (platform handle reason : String)

/-- How a query of the family ends: without a request, with one, with the two of
a split, or as a block query does. -/
inductive UserdbEnd where
  | denied (error : QueryError)
  | unknown (error : QueryError)
  | sends (request : UserdbRequest)
  | splits (uuid7 : String) (channel : ChannelRef)
  | blocks (query : QueryEnd)
  | panics

/-- The cases of the family. -/
inductive UserdbOp where
  | addUser
  | deleteUser
  | addScore
  | removeScore
  | addChannel
  | removeChannel
  | splitChannel
  | getUser
  | listUsers
  | updateFlags
  | setRoles
  | mergeUsers
  | readUserValue
  | writeUserValue
  | deleteUserValue
  | listUserValues
  | commendation
  | reprimand
  | rateUser
  | ban
  | block
  | unblock
  | timeout
deriving DecidableEq, Repr

/-- The case that a name selects. -/
def userdbOp? (queryId : String) : Option UserdbOp :=
  match queryId with
  | "userdb_add_user" => some .addUser
  | "userdb_delete_user" => some .deleteUser
  | "userdb_add_score" => some .addScore
  | "userdb_remove_score" => some .removeScore
  | "userdb_add_channel" => some .addChannel
  | "userdb_remove_channel" => some .removeChannel
  | "userdb_split_channel" => some .splitChannel
  | "userdb_get_user" => some .getUser
  | "userdb_list_users" => some .listUsers
  | "userdb_update_flags" => some .updateFlags
  | "userdb_set_roles" => some .setRoles
  | "userdb_merge_users" => some .mergeUsers
  | "userdb_read_user_value" => some .readUserValue
  | "userdb_write_user_value" => some .writeUserValue
  | "userdb_delete_user_value" => some .deleteUserValue
  | "userdb_list_user_values" => some .listUserValues
  | "userdb_commendation" => some .commendation
  | "userdb_reprimand" => some .reprimand
  | "userdb_rate_user" => some .rateUser
  | "userdb_ban" => some .ban
  | "userdb_block" => some .block
  | "userdb_unblock" => some .unblock
  | "userdb_timeout" => some .timeout
  | _ => none

/-- What a handler finds around it: the user database, the parser, the time, the
engine's own id as a giver, and where the caller has connected from. -/
structure QueryEnv where
  client : UserDbClient
  parse : ParseJson
  now : Nat
  cockatielActorId : String
  peerLoopback : Bool

/-- A caller on the operator's own machine acts as the owner. -/
def userdbActorPerm (peerLoopback : Bool) (actorRole : String) : String :=
  if peerLoopback then "owner" else actorRole

/-- The channel of a payload, unless it is null. -/
def parseChannelRef (value : Option Json) : Option ChannelRef :=
  (value.filter fun v => !v.isNull).map fun v =>
    ⟨v.text "platform", v.text "channel_id", v.text "handle"⟩

/-- The key that a merge is written under. -/
def mergeReservedKey : String :=
  .ofList (nul :: "__cockatiel_merge__".toList)

/-- The users of a merge and the value that asks for it. -/
def buildMergePayload (payload : Json) : Except QueryError (String × Json) :=
  let primary := payload.text "primary_uuid7"
  let secondary := payload.text "secondary_uuid7"
  if primary = "" then .error "userdb_merge_users requires primary_uuid7"
  else if secondary = "" then .error "userdb_merge_users requires secondary_uuid7"
  else if primary = secondary then
    .error "userdb_merge_users primary and secondary must differ"
  else
    .ok (primary, .obj [("primary_uuid7", .str primary),
      ("roles_from_secondary", .bool (payload.flag "roles_from_secondary")),
      ("secondary_uuid7", .str secondary), ("username", .str (payload.text "username"))])

/-- A rating by the operator; its kind is checked before its user. -/
def userdbRateUser (giver : String) (payload : Json) : UserdbEnd :=
  let rate (isCommendation : Bool) : UserdbEnd :=
    if payload.text "uuid7" = "" then .denied "userdb_rate_user requires uuid7"
    else
      .sends (.rateUser giver (payload.text "uuid7") isCommendation "" ""
        (payload.text "reason"))
  match payload.text "kind" with
  | "commend" => rate true
  | "reprimand" => rate false
  | kind =>
      .denied ("userdb_rate_user requires kind 'commend' or 'reprimand', got '" ++
        kind ++ "'")

/-- The flag of a timeout; an expiry that does not fit a JSON number panics. -/
def userdbTimeout (now : Nat) (payload : Json) : UserdbEnd :=
  let expires :=
    timeoutExpiry now (((payload.get "duration_secs").bind Json.asI64).getD 300)
  if expires < 2 ^ 64 then
    .sends (.writeUserValue (payload.text "uuid7") "timeout" (.encoded (.obj [
      ("expires_at_ms", .num (some expires)), ("reason", .str (payload.text "reason")),
      ("timed_out", .bool true)])))
  else .panics

/-- The selected operation on a payload. -/
def runUserdbOp (env : QueryEnv) (op : UserdbOp) (queryId sql : String)
    (payload : Json) : UserdbEnd :=
  let uuid7 := payload.text "uuid7"
  let reason := payload.text "reason"
  let actorRole :=
    userdbActorPerm env.peerLoopback
      (((payload.get "actor_role").bind Json.asStr).getD "user")
  match op with
  | .addUser =>
      .sends (.addUser (payload.text "username")
        (parseChannelRef (payload.get "channel")))
  | .deleteUser =>
      .sends (.deleteUser uuid7 (payload.text "actor_uuid7") actorRole)
  | .addScore => .sends (.addScore uuid7 (payload.int32 "delta" 1) reason)
  | .removeScore => .sends (.removeScore uuid7 (payload.int32 "delta" 1) reason)
  | .addChannel =>
      .sends (.addChannel uuid7 (parseChannelRef (payload.get "channel")))
  | .removeChannel =>
      .sends (.removeChannel uuid7 (payload.text "platform") (payload.text "channel_id"))
  | .splitChannel =>
      match parseSplitChannelPayload ⟨uuid7, payload.text "platform",
          payload.text "channel_id", payload.text "handle"⟩ with
      | .error e => .denied e
      | .ok (uuid7, channel) => .splits uuid7 channel
  | .getUser =>
      .sends (.getUser uuid7 (payload.text "platform") (payload.text "channel_id")
        (payload.text "handle"))
  | .listUsers =>
      .sends (.listUsers (payload.text "platform") (payload.int32 "limit" 100)
        (payload.int32 "offset" 0))
  | .updateFlags =>
      .sends (.updateFlags uuid7 (((payload.get "flags").bind Json.asStr).getD "{}"))
  | .setRoles =>
      .sends (.setRoles uuid7 (payload.text "actor_uuid7") actorRole
        (payload.flag "is_sponsor") (payload.flag "is_moderator")
        (payload.flag "is_admin") (payload.flag "is_owner"))
  | .mergeUsers =>
      match buildMergePayload payload with
      | .error e => .denied e
      | .ok (primary, value) =>
          .sends (.writeUserValue primary mergeReservedKey (.encoded value))
  | .readUserValue => .sends (.readUserValue uuid7 (payload.text "key"))
  | .writeUserValue =>
      .sends (.writeUserValue uuid7 (payload.text "key") (.text (payload.text "value")))
  | .deleteUserValue => .sends (.deleteUserValue uuid7 (payload.text "key"))
  | .listUserValues => .sends (.listUserValues uuid7)
  | .commendation => .sends (.addScore uuid7 1 reason)
  | .reprimand => .sends (.removeScore uuid7 1 reason)
  | .rateUser => userdbRateUser env.cockatielActorId payload
  | .ban =>
      .sends (.writeUserValue uuid7 "ban" (.encoded (.obj [
        ("at", .str (toString env.now)), ("banned", .bool true),
        ("reason", .str reason)])))
  | .block | .unblock => .blocks (blockVirtualQuery env.client env.parse queryId sql)
  | .timeout => userdbTimeout env.now payload

/-- The `userdb_*` queries. -/
def userdbVirtualQuery (env : QueryEnv) (queryId sql : String) : UserdbEnd :=
  match env.parse sql with
  | .error e => .denied ("Invalid userdb payload: " ++ e)
  | .ok payload =>
      match userdbOp? queryId with
      | none => .unknown ("Unknown userdb query: " ++ queryId)
      | some op => runUserdbOp env op queryId sql payload

section Lemmas

variable {env : QueryEnv} {queryId sql : String} {payload : Json}

/-- Only a name without a case is unknown. -/
theorem runUserdbOp_ne_unknown
    (op : UserdbOp) (error : QueryError) :
    runUserdbOp env op queryId sql payload ≠ .unknown error := by
  cases op with
  | splitChannel =>
      simp only [runUserdbOp]
      split <;> simp
  | mergeUsers =>
      simp only [runUserdbOp]
      split <;> simp
  | rateUser =>
      simp only [runUserdbOp, userdbRateUser]
      split
      · split <;> simp
      · split <;> simp
      · simp
  | timeout =>
      simp only [runUserdbOp, userdbTimeout]
      split <;> simp
  | _ => simp [runUserdbOp]

/-- A query is unknown when its payload is read and its name has no case. -/
theorem userdbVirtualQuery_eq_unknown_iff
    {error : QueryError} :
    userdbVirtualQuery env queryId sql = .unknown error ↔
      (∃ payload, env.parse sql = .ok payload) ∧ userdbOp? queryId = none ∧
        error = "Unknown userdb query: " ++ queryId := by
  unfold userdbVirtualQuery
  cases hparse : env.parse sql with
  | error e => simp
  | ok payload =>
      cases hop : userdbOp? queryId with
      | none => simp [eq_comm]
      | some op => simp [runUserdbOp_ne_unknown op error]

/-- The two block queries are the cases of the block. -/
theorem userdbOp?_eq_block_iff :
    userdbOp? queryId = some .block ↔ queryId = "userdb_block" := by
  constructor
  · intro h
    unfold userdbOp? at h
    split at h <;> simp_all
  · rintro rfl
    rfl

theorem userdbOp?_eq_unblock_iff :
    userdbOp? queryId = some .unblock ↔ queryId = "userdb_unblock" := by
  constructor
  · intro h
    unfold userdbOp? at h
    split at h <;> simp_all
  · rintro rfl
    rfl

/-- Only the two cases of the block end as a block query does. -/
theorem block_of_runUserdbOp
    {op : UserdbOp} {query : QueryEnd}
    (h : runUserdbOp env op queryId sql payload = .blocks query) :
    op = .block ∨ op = .unblock := by
  cases op with
  | block => exact Or.inl rfl
  | unblock => exact Or.inr rfl
  | splitChannel =>
      simp only [runUserdbOp] at h
      split at h <;> cases h
  | mergeUsers =>
      simp only [runUserdbOp] at h
      split at h <;> cases h
  | rateUser =>
      simp only [runUserdbOp, userdbRateUser] at h
      split at h
      · split at h <;> cases h
      · split at h <;> cases h
      · cases h
  | timeout =>
      simp only [runUserdbOp, userdbTimeout] at h
      split at h <;> cases h
  | _ => cases h

/-- The `userdb_*` queries that ask for a block are the block queries. -/
theorem userdbVirtualQuery_blocks_iff
    {m : UserDbMutation} :
    userdbVirtualQuery env queryId sql = .blocks (.sends m) ↔
      (queryId = "userdb_block" ∨ queryId = "userdb_unblock") ∧
        blockVirtualQuery env.client env.parse queryId sql = .sends m := by
  rw [← userdbOp?_eq_block_iff, ← userdbOp?_eq_unblock_iff]
  unfold userdbVirtualQuery
  cases hparse : env.parse sql with
  | error e => simp [blockVirtualQuery, hparse]
  | ok payload =>
      cases hop : userdbOp? queryId with
      | none => simp
      | some op =>
          simp only [Option.some.injEq]
          constructor
          · intro h
            rcases block_of_runUserdbOp h with rfl | rfl
            · exact ⟨Or.inl rfl, UserdbEnd.blocks.inj h⟩
            · exact ⟨Or.inr rfl, UserdbEnd.blocks.inj h⟩
          · rintro ⟨rfl | rfl, h⟩ <;> exact congrArg UserdbEnd.blocks h
end Lemmas

end CockatielEngine
