import CockatielEngine.Queries.QueryRoutes
import CockatielEngine.Blocks.UserDb

/-!
# Queries: acting on users on somebody's behalf

The `mod_*` queries, the block queries and the chat ratings each verify an actor
named in their payload and end in one request that changes the user database.

The user database is a service: a lookup answers with what it holds, or fails.
A handler either denies the query or sends its request; what the engine makes of
the reply does not matter here.
-/

namespace CockatielEngine

/-- A parsed payload.  A number is kept where it is an integer of 64 bits. -/
inductive Json where
  | null
  | bool (b : Bool)
  | num (asInt : Option Int)
  | str (s : String)
  | arr (elements : List Json)
  | obj (fields : List (String × Json))

namespace Json

/-- The field of an object; other values have none. -/
def get : Json → String → Option Json
  | .obj fields, key => (fields.find? fun f => f.1 = key).map (·.2)
  | _, _ => none

def asStr : Json → Option String
  | .str s => some s
  | _ => none

def asInt : Json → Option Int
  | .num n => n
  | _ => none

/-- `as_i64`: an integer that has 64 bits with a sign. -/
def asI64 (j : Json) : Option Int :=
  j.asInt.filter fun n => decide (-2 ^ 63 ≤ n ∧ n < 2 ^ 63)

def isNull : Json → Bool
  | .null => true
  | _ => false

/-- The text of a field, empty when there is none. -/
def text (j : Json) (key : String) : String :=
  ((j.get key).bind asStr).getD ""

/-- The `actor` field, unless it is null. -/
def actor (j : Json) : Option Json :=
  (j.get "actor").filter fun a => !a.isNull

end Json

/-- What the parser makes of a query's text. -/
abbrev ParseJson := String → Except String Json

/-- What the user database answers to a lookup: the user comes with the uuid. -/
structure GetUserResponse where
  success : Bool
  user : Option (String × User)

/-- The user database as the handlers see it. -/
structure UserDbClient where
  getUser : (uuid7 platform channelId handle : String) →
    Except String GetUserResponse

/-- A request that changes the user database. -/
inductive UserDbMutation where
  | addScore (uuid7 : String) (delta : Int) (reason : String)
  | removeScore (uuid7 : String) (delta : Int) (reason : String)
  | writeUserValue (uuid7 key : String) (value : Json)
  | blockUser (uuid7 reason : String) (actor : BlockActor)
  | unblockUser (uuid7 : String)
  | rateUser (giver recipient : String) (isCommendation : Bool)
      (platform handle reason : String)

/-- How a handler ends. -/
inductive QueryEnd where
  | denied (error : QueryError)
  | sends (mutation : UserDbMutation)
  | panics

namespace QueryEnd

/-- Go on with what a check let through. -/
def after {α : Type} (checked : Except QueryError α) (go : α → QueryEnd) : QueryEnd :=
  match checked with
  | .error e => .denied e
  | .ok a => go a

end QueryEnd

/-- Look up a payload's actor, by uuid where it has one and else by platform and
handle. -/
def lookupActor (client : UserDbClient) (actor : Json) :
    Except String GetUserResponse :=
  if actor.text "uuid7" ≠ "" then client.getUser (actor.text "uuid7") "" "" ""
  else
    client.getUser "" (actor.text "platform") (actor.text "handle")
      (actor.text "handle")

/-- The acting moderator, an admin or the owner, as `mod_*` and the block
queries verify it. -/
def verifyActor (client : UserDbClient) (actor : Json) :
    Except QueryError (String × User) :=
  match lookupActor client actor with
  | .error e => .error ("Actor lookup failed: " ++ e)
  | .ok r =>
      match r.user with
      | none => .error "permission denied: actor is not a moderator/admin/owner"
      | some user =>
          if blockActorHasAuthority user.2 then .ok user
          else .error "permission denied: actor is not a moderator/admin/owner"

/-- The error for a target that the user database does not know. -/
def notFoundOn (payload : Json) : QueryError :=
  "User '" ++ payload.text "handle" ++ "' not found on " ++ payload.text "platform"

/-- The target of a payload: its uuid, or the user of its platform and
handle. -/
def resolveTarget (payload : Json) (missing : QueryError)
    (found : Except String GetUserResponse → Except QueryError String)
    (client : UserDbClient) : Except QueryError String :=
  if payload.text "uuid7" ≠ "" then .ok (payload.text "uuid7")
  else if payload.text "platform" ≠ "" ∧ payload.text "handle" ≠ "" then
    found (client.getUser "" (payload.text "platform") (payload.text "handle")
      (payload.text "handle"))
  else .error missing

/-- The user that the lookup of a moderation's target found. -/
def modTarget (payload : Json) :
    Except String GetUserResponse → Except QueryError String
  | .error e => .error e
  | .ok r =>
      match r.success, r.user with
      | true, some user => .ok user.1
      | _, _ => .error (notFoundOn payload)

/-- The target of a `mod_*` query. -/
def resolveModTarget (client : UserDbClient) (payload : Json) :
    Except QueryError String :=
  resolveTarget payload "mod query requires uuid7 or platform + handle"
    (modTarget payload) client

/-- The expiry of a timeout, in the arithmetic of 128 bits. -/
def timeoutExpiry (now : Nat) (durationSecs : Int) : Nat :=
  ((now + durationSecs * 1000) % 2 ^ 128).toNat

/-- The action of a `mod_*` query on its target.  An expiry that does not fit a
JSON number panics. -/
def modAction (queryId : String) (payload : Json) (now : Nat) (uuid7 : String) :
    QueryEnd :=
  let reason := payload.text "reason"
  match queryId with
  | "mod_commend" => .sends (.addScore uuid7 1 reason)
  | "mod_reprimand" => .sends (.removeScore uuid7 1 reason)
  | "mod_ban" =>
      .sends (.writeUserValue uuid7 "ban" (.obj [("at", .str (toString now)),
        ("banned", .bool true), ("reason", .str reason)]))
  | "mod_timeout" =>
      let expires :=
        timeoutExpiry now (((payload.get "duration_secs").bind Json.asI64).getD 300)
      if expires < 2 ^ 64 then
        .sends (.writeUserValue uuid7 "timeout" (.obj [
          ("expires_at_ms", .num (some expires)), ("reason", .str reason),
          ("timed_out", .bool true)]))
      else .panics
  | _ => .denied ("Unknown mod query: " ++ queryId)

/-- Who acts in a `mod_*` query.  Without an actor only the automated scorer may
apply its deltas. -/
def modActor (client : UserDbClient) (queryId : String) (payload : Json)
    (requester : String) : Except QueryError (String × String) :=
  match payload.actor with
  | some actor => (verifyActor client actor).map fun user => (user.1, user.2.username)
  | none =>
      if (queryId = "mod_commend" ∨ queryId = "mod_reprimand") ∧
          requester = "score-messages" then
        .ok ("", "system:" ++ requester)
      else .error "permission denied: missing actor"

/-- The `mod_*` queries. -/
def modVirtualQuery (client : UserDbClient) (parse : ParseJson) (now : Nat)
    (queryId sql requester : String) : QueryEnd :=
  match parse sql with
  | .error e => .denied ("Invalid mod payload: " ++ e)
  | .ok payload =>
      .after (modActor client queryId payload requester) fun _ =>
        .after (resolveModTarget client payload) fun uuid7 =>
          modAction queryId payload now uuid7

/-- The user that the lookup of a block's target found. -/
def blockTarget (payload : Json) :
    Except String GetUserResponse → Except QueryError String
  | .error e => .error e
  | .ok r =>
      match r.user with
      | none => .error (notFoundOn payload)
      | some user => .ok user.1

/-- The acting moderator and the target of a block or an unblock, looked up in
the service. -/
def resolveBlockActor (client : UserDbClient) (queryId : String)
    (payload : Json) : Except QueryError (String × BlockActor) :=
  match payload.actor with
  | none => .error "permission denied: missing actor"
  | some actor =>
      match verifyActor client actor with
      | .error e => .error e
      | .ok user =>
          let by_ : BlockActor :=
            { uuid7 := user.1
              platform := actor.text "platform"
              handle :=
                if actor.text "handle" = "" then user.2.username
                else actor.text "handle" }
          (resolveTarget payload (queryId ++ " requires uuid7 or platform + handle")
            (blockTarget payload) client).map fun target => (target, by_)

/-- `userdb_block` and `userdb_unblock`. -/
def blockVirtualQuery (client : UserDbClient) (parse : ParseJson)
    (queryId sql : String) : QueryEnd :=
  match parse sql with
  | .error e => .denied ("Invalid userdb payload: " ++ e)
  | .ok payload =>
      .after (resolveBlockActor client queryId payload) fun r =>
        if queryId = "userdb_block" then
          .sends (.blockUser r.1 (payload.text "reason") r.2)
        else .sends (.unblockUser r.1)

/-- The module a rating is reserved for. -/
def ratingModule (queryId : String) : String :=
  if queryId = "chat_commend" then "commend" else "reprimand"

/-- The user that a lookup of a rating found. -/
def ratedUser (side platform handle : String) :
    Except String GetUserResponse → Except QueryError String
  | .error e => .error (side ++ " lookup failed: " ++ e)
  | .ok r =>
      match r.success, r.user with
      | true, some user => .ok user.1
      | _, _ => .error (side ++ " '" ++ handle ++ "' not found on " ++ platform)

/-- The giver of a rating. -/
def ratingGiver (client : UserDbClient) (actor : Json) :
    Except QueryError String :=
  resolveTarget actor "rating actor requires uuid7 or platform+handle"
    (ratedUser "giver" (actor.text "platform") (actor.text "handle")) client

/-- The recipient of a rating. -/
def ratingRecipient (client : UserDbClient) (payload : Json) :
    Except QueryError String :=
  resolveTarget payload "rating requires uuid7 or platform+handle"
    (ratedUser "target" (payload.text "platform") (payload.text "handle"))
    client

/-- `chat_commend` and `chat_reprimand`. -/
def chatRatingVirtualQuery (client : UserDbClient) (parse : ParseJson)
    (queryId sql requester : String) : QueryEnd :=
  if requester ≠ ratingModule queryId then
    .denied (queryId ++ " denied: not the '" ++ ratingModule queryId ++ "' module")
  else
    match parse sql with
    | .error e => .denied ("Invalid rating payload: " ++ e)
    | .ok payload =>
        match payload.actor with
        | none => .denied "rating requires an actor"
        | some actor =>
            .after (ratingGiver client actor) fun giver =>
              .after (ratingRecipient client payload) fun recipient =>
                if recipient = giver then .denied "you cannot rate yourself"
                else
                  .sends (.rateUser giver recipient (queryId == "chat_commend")
                    (payload.text "platform") (payload.text "handle")
                    (payload.text "reason"))

/-- The dispatcher, on the routes that act on users on somebody's behalf. -/
def handleQuery (client : UserDbClient) (parse : ParseJson) (now : Nat)
    (queryId sql requester : String) : Option QueryEnd :=
  let route := classifyQuery queryId
  match callerGate route requester with
  | some denial => some (.denied denial)
  | none =>
      match route with
      | .modFamily => some (modVirtualQuery client parse now queryId sql requester)
      | .chatCommend | .chatReprimand =>
          some (chatRatingVirtualQuery client parse queryId sql requester)
      | .userdbBlock => some (blockVirtualQuery client parse queryId sql)
      | _ => none

section Answering

/-- The answer to a lookup that found this record. -/
def GetUserResponse.ofUser (found : Option (UserUuid × User)) : GetUserResponse where
  success := found.isSome
  user := found.map fun r => (r.1.val, r.2)

/-- A user database that answers every lookup with the record it holds. -/
def UserDbClient.of (findUser : FindUser) (db : UserDb) : UserDbClient where
  getUser uuid7 platform channelId handle :=
    let found :=
      if uuid7 ≠ "" then db.byUuid uuid7
      else findUser db platform channelId handle
    .ok (.ofUser (found.bind fun u => (db.user? u).map fun user => (u, user)))

/-- The fields that the block queries read. -/
def Json.blockPayload (payload : Json) : BlockPayload where
  actor := payload.actor.map fun actor =>
    ⟨actor.text "uuid7", actor.text "platform", actor.text "handle"⟩
  uuid7 := payload.text "uuid7"
  platform := payload.text "platform"
  handle := payload.text "handle"
  reason := payload.text "reason"

variable {findUser : FindUser} {db : UserDb}

/-- Such a database finds the target that its records name. -/
theorem resolveTarget_of
    {payload : Json} {missing : QueryError}
    (hfind : ∀ platform channelId handle u,
      findUser db platform channelId handle = some u →
        (db.user? u).isSome = true) :
    resolveTarget payload missing (blockTarget payload) (.of findUser db) =
      if payload.text "uuid7" ≠ "" then .ok (payload.text "uuid7")
      else if payload.text "platform" ≠ "" ∧ payload.text "handle" ≠ "" then
        match findUser db (payload.text "platform") (payload.text "handle")
            (payload.text "handle") with
        | none => .error (notFoundOn payload)
        | some target => .ok target.val
      else .error missing := by
  unfold resolveTarget
  congr 1
  congr 1
  cases hfound : findUser db (payload.text "platform") (payload.text "handle")
      (payload.text "handle") with
  | none => simp [UserDbClient.of, GetUserResponse.ofUser, blockTarget, hfound]
  | some target =>
      obtain ⟨user, huser⟩ := Option.isSome_iff_exists.mp (hfind _ _ _ _ hfound)
      simp [UserDbClient.of, GetUserResponse.ofUser, blockTarget, hfound, huser]

/-- Over such a database the block queries resolve actor and target as they do
over its records. -/
theorem resolveBlockActor_of
    (queryId : String) (payload : Json)
    (hfind : ∀ platform channelId handle u,
      findUser db platform channelId handle = some u →
        (db.user? u).isSome = true) :
    resolveBlockActor (.of findUser db) queryId payload =
      resolveBlockActorAndTarget findUser db queryId payload.blockPayload := by
  unfold resolveBlockActor resolveBlockActorAndTarget
  cases hactor : payload.actor with
  | none => simp [Json.blockPayload, hactor]
  | some actor =>
      let found :=
        if actor.text "uuid7" ≠ "" then db.byUuid (actor.text "uuid7")
        else findUser db (actor.text "platform") (actor.text "handle")
          (actor.text "handle")
      have hlookup : lookupActor (.of findUser db) actor =
          .ok (.ofUser (found.bind fun u => (db.user? u).map fun user => (u, user))) := by
        by_cases huuid : actor.text "uuid7" = "" <;>
          simp [lookupActor, UserDbClient.of, found, huuid]
      simp only [verifyActor, hlookup, resolveTarget_of hfind, Json.blockPayload,
        hactor, Option.map_some]
      cases found.bind fun u => (db.user? u).map fun user => (u, user) with
      | none => rfl
      | some r =>
          by_cases hrole : blockActorHasAuthority r.2 = true
          · simp only [GetUserResponse.ofUser, Option.map_some, hrole, if_true,
              Bool.not_true, Bool.false_eq_true, if_false]
            by_cases huuid : payload.text "uuid7" ≠ ""
            · simp only [if_pos huuid, Except.map]
            · by_cases hhandle :
                  payload.text "platform" ≠ "" ∧ payload.text "handle" ≠ ""
              · simp only [if_neg huuid, if_pos hhandle]
                cases findUser db (payload.text "platform") (payload.text "handle")
                  (payload.text "handle") <;> rfl
              · simp only [if_neg huuid, if_neg hhandle, Except.map]
          · simp [GetUserResponse.ofUser, hrole]

end Answering

end CockatielEngine
