import CockatielEngine.Queries.UserdbFamily

/-!
# Queries: the dispatcher and its two surfaces

A query comes as a name with a text or as a numbered operation with a text.  One
surface classifies the name, the other maps the operation to its route and takes
the name from the operation; both ask the gate and enter the branch of the
route.  A branch may then choose what it does by the name again.

**Main result.**  Whatever a module that is not the control surface sends, no
branch runs that the gate does not grant it; and what a branch chooses by the
name is always of the permission that the route was gated by.
-/

namespace CockatielEngine

namespace Dispatcher

section Definitions

/-- The branches, with what they are given. -/
inductive Work where
  | dbStatus
  | moduleList (requester : String)
  | engineInfo (withPin : Bool)
  | pipelineSetPaused (sql : String)
  | engineShutdown (requester : String)
  | runTestSuite (sql : String)
  | handleTestProbe (sql : String)
  | listAudit (sql : String)
  | auditAction (approve : Bool) (sql : String)
  | modVirtualQuery (queryId sql requester : String)
  | chatRatingVirtualQuery (queryId sql requester : String)
  | chatVerifyIdentityVirtualQuery (sql requester : String)
  | engineReplyToPlatform (sql : String)
  | userdbAdjustScoreVirtualQuery (sql requester : String)
  | predictionGetScoreVirtualQuery (sql : String)
  | channelViewersVirtualQuery (sql : String)
  | leaderboardReport (sql : String)
  | leaderboardRead
  | streamControlWrite (sql : String)
  | streamScheduleRead
  | streamControlStatusWrite (sql : String)
  | userdbVirtualQuery (queryId sql requester : String)
  | replaceModuleBans (sql requester : String)
  | setCredentials (sql : String)
  | testArchive (sql : String)
  | stats
  | noSuchOperation
deriving DecidableEq, Repr

/-- The branch of a route. -/
def dispatch (route : QueryRoute) (queryId sql requester : String) : Work :=
  match route with
  | .dbStatus => .dbStatus
  | .moduleList => .moduleList requester
  | .engineInfo => .engineInfo (isControlSurface requester)
  | .pipelineSetPaused => .pipelineSetPaused sql
  | .engineShutdown => .engineShutdown requester
  | .testRun => .runTestSuite sql
  | .testProbe => .handleTestProbe sql
  | .auditList => .listAudit sql
  | .auditApprove => .auditAction true sql
  | .auditReject => .auditAction false sql
  | .modFamily => .modVirtualQuery queryId sql requester
  | .chatCommend | .chatReprimand => .chatRatingVirtualQuery queryId sql requester
  | .chatVerifyIdentity => .chatVerifyIdentityVirtualQuery sql requester
  | .chatReply => .engineReplyToPlatform sql
  | .userdbAdjustScore => .userdbAdjustScoreVirtualQuery sql requester
  | .predictionGetScore => .predictionGetScoreVirtualQuery sql
  | .channelViewers => .channelViewersVirtualQuery sql
  | .streamLeaderboardReport => .leaderboardReport sql
  | .streamLeaderboard => .leaderboardRead
  | .streamControl => .streamControlWrite sql
  | .streamSchedule => .streamScheduleRead
  | .streamControlStatus => .streamControlStatusWrite sql
  | .userdbBlock => .userdbVirtualQuery queryId sql requester
  | .moduleBansReport => .replaceModuleBans sql requester
  | .userdbFamily => .userdbVirtualQuery queryId sql requester
  | .setCredentials => .setCredentials sql
  | .testArchive => .testArchive sql
  | .stats => .stats
  | .unsupported => .noSuchOperation

/-- Enter the branch of a route, if the gate lets the caller. -/
def enter (route : QueryRoute) (queryId sql caller : String) :
    Except String (QueryRoute × Work) :=
  match callerGate route caller with
  | some denial => .error denial
  | none => .ok (route, dispatch route queryId sql caller)

/-- The surface of names. -/
def handleQuery (queryId sql caller : String) : Except String (QueryRoute × Work) :=
  enter (classifyQuery queryId) queryId sql caller

/-- The operations of the wire. -/
inductive WireQueryOp where
  | unspecified
  | dbStatus
  | moduleList
  | engineInfo
  | pipelineSetPaused
  | engineShutdown
  | testRun
  | testProbe
  | auditList
  | auditApprove
  | auditReject
  | modCommend
  | modReprimand
  | modBan
  | modTimeout
  | chatCommend
  | chatReprimand
  | chatVerifyIdentity
  | userdbAdjustScore
  | predictionGetScore
  | channelViewers
  | setCredentials
  | testArchive
  | stats
  | userdbAddUser
  | userdbDeleteUserRecord
  | userdbAddScore
  | userdbRemoveScore
  | userdbAddChannel
  | userdbRemoveChannel
  | userdbGetUser
  | userdbListUsers
  | userdbUpdateFlags
  | userdbSetRoles
  | userdbReadUserValue
  | userdbWriteUserValue
  | userdbDeleteUserValue
  | userdbListUserValues
  | userdbCommendation
  | userdbReprimand
  | userdbBan
  | userdbTimeout
  | timelineRead
  | audioForMessage
deriving DecidableEq, Repr

/-- The route an operation is answered by, if the dispatcher has one. -/
def routeFromOp : WireQueryOp → Option QueryRoute
  | .dbStatus => some .dbStatus
  | .moduleList => some .moduleList
  | .engineInfo => some .engineInfo
  | .pipelineSetPaused => some .pipelineSetPaused
  | .engineShutdown => some .engineShutdown
  | .testRun => some .testRun
  | .testProbe => some .testProbe
  | .auditList => some .auditList
  | .auditApprove => some .auditApprove
  | .auditReject => some .auditReject
  | .modCommend | .modReprimand | .modBan | .modTimeout => some .modFamily
  | .chatCommend => some .chatCommend
  | .chatReprimand => some .chatReprimand
  | .chatVerifyIdentity => some .chatVerifyIdentity
  | .userdbAdjustScore => some .userdbAdjustScore
  | .predictionGetScore => some .predictionGetScore
  | .channelViewers => some .channelViewers
  | .setCredentials => some .setCredentials
  | .testArchive => some .testArchive
  | .stats => some .stats
  | .userdbAddUser | .userdbDeleteUserRecord | .userdbAddScore | .userdbRemoveScore
  | .userdbAddChannel | .userdbRemoveChannel | .userdbGetUser | .userdbListUsers
  | .userdbUpdateFlags | .userdbSetRoles | .userdbReadUserValue
  | .userdbWriteUserValue | .userdbDeleteUserValue | .userdbListUserValues
  | .userdbCommendation | .userdbReprimand | .userdbBan | .userdbTimeout =>
      some .userdbFamily
  | .timelineRead => none
  | .audioForMessage => none
  | .unspecified => none

/-- The name of the variant. -/
def WireQueryOp.variantName : WireQueryOp → String
  | .unspecified => "Unspecified"
  | .dbStatus => "DbStatus"
  | .moduleList => "ModuleList"
  | .engineInfo => "EngineInfo"
  | .pipelineSetPaused => "PipelineSetPaused"
  | .engineShutdown => "EngineShutdown"
  | .testRun => "TestRun"
  | .testProbe => "TestProbe"
  | .auditList => "AuditList"
  | .auditApprove => "AuditApprove"
  | .auditReject => "AuditReject"
  | .modCommend => "ModCommend"
  | .modReprimand => "ModReprimand"
  | .modBan => "ModBan"
  | .modTimeout => "ModTimeout"
  | .chatCommend => "ChatCommend"
  | .chatReprimand => "ChatReprimand"
  | .chatVerifyIdentity => "ChatVerifyIdentity"
  | .userdbAdjustScore => "UserdbAdjustScore"
  | .predictionGetScore => "PredictionGetScore"
  | .channelViewers => "ChannelViewers"
  | .setCredentials => "SetCredentials"
  | .testArchive => "TestArchive"
  | .stats => "Stats"
  | .userdbAddUser => "UserdbAddUser"
  | .userdbDeleteUserRecord => "UserdbDeleteUserRecord"
  | .userdbAddScore => "UserdbAddScore"
  | .userdbRemoveScore => "UserdbRemoveScore"
  | .userdbAddChannel => "UserdbAddChannel"
  | .userdbRemoveChannel => "UserdbRemoveChannel"
  | .userdbGetUser => "UserdbGetUser"
  | .userdbListUsers => "UserdbListUsers"
  | .userdbUpdateFlags => "UserdbUpdateFlags"
  | .userdbSetRoles => "UserdbSetRoles"
  | .userdbReadUserValue => "UserdbReadUserValue"
  | .userdbWriteUserValue => "UserdbWriteUserValue"
  | .userdbDeleteUserValue => "UserdbDeleteUserValue"
  | .userdbListUserValues => "UserdbListUserValues"
  | .userdbCommendation => "UserdbCommendation"
  | .userdbReprimand => "UserdbReprimand"
  | .userdbBan => "UserdbBan"
  | .userdbTimeout => "UserdbTimeout"
  | .timelineRead => "TimelineRead"
  | .audioForMessage => "AudioForMessage"

/-- `SCREAMING_SNAKE_CASE` of a name in `CamelCase`. -/
def screamingSnake (name : String) : String :=
  match name.toList with
  | [] => ""
  | c :: rest =>
      .ofList (c.toUpper :: rest.flatMap fun d =>
        if d.isUpper then ['_', d] else [d.toUpper])

/-- What the protocol's library says of the operations: the one of a number, and
its name in the protocol. -/
structure QueryOps where
  tryFrom : Int → Option WireQueryOp
  asStrName : WireQueryOp → String
  asStrName_eq : ∀ op, asStrName op = screamingSnake op.variantName

/-- The name that the typed surface derives. -/
def QueryOps.queryId (ops : QueryOps) (op : WireQueryOp) : String :=
  toAsciiLowercase (ops.asStrName op)

/-- The text of the parameters. -/
def sqlFromParams (params : Option String) : String :=
  params.getD ""

/-- The surface of operations. -/
def handleQueryRequest (ops : QueryOps) (operation : Int) (params : Option String)
    (caller : String) : Except String (QueryRoute × Work) :=
  let op := (ops.tryFrom operation).getD .unspecified
  match routeFromOp op with
  | none => .error "query denied: no such operation"
  | some route => enter route (ops.queryId op) (sqlFromParams params) caller

end Definitions

section Permissions

/-- Who may run something, as far as the dispatcher is concerned. -/
inductive Permission where
  | everyone
  | controlSurface
  | controlSurfaceOrTestRunner
  | testRunner
  | scorers
  | clip
  | predictions
  | streamLeaderboard
  | streamAdapters
  | nobody
deriving DecidableEq, Repr

def Permission.grants (permission : Permission) (caller : String) : Bool :=
  match permission with
  | .everyone => true
  | .controlSurface => isControlSurface caller
  | .controlSurfaceOrTestRunner => isControlSurface caller || isTestRunner caller
  | .testRunner => isTestRunner caller
  | .scorers =>
      isControlSurface caller || caller == "score-messages" || caller == "events"
  | .clip => isControlSurface caller || caller == "clip"
  | .predictions => isControlSurface caller || caller == "events"
  | .streamLeaderboard => caller == "stream-leaderboard"
  | .streamAdapters => isStreamAdapter caller
  | .nobody => false

/-- The permission that a route is gated by. -/
def permissionOf : QueryRoute → Permission
  | .testRun | .pipelineSetPaused | .engineShutdown | .auditList | .auditApprove
  | .auditReject | .userdbFamily | .setCredentials | .stats | .streamLeaderboard
  | .streamControl => .controlSurface
  | .testProbe => .controlSurfaceOrTestRunner
  | .testArchive => .testRunner
  | .userdbAdjustScore => .scorers
  | .chatReply => .clip
  | .predictionGetScore => .predictions
  | .streamLeaderboardReport => .streamLeaderboard
  | .streamControlStatus => .streamAdapters
  | .unsupported => .nobody
  | .dbStatus | .moduleList | .engineInfo | .modFamily | .chatCommend
  | .chatReprimand | .chatVerifyIdentity | .channelViewers | .streamSchedule
  | .userdbBlock | .moduleBansReport => .everyone

/-- The permission that a case of the `userdb_*` family needs: the blocks verify
an actor of their own, everything else is the operator's. -/
def userdbPermission : Option UserdbOp → Permission
  | some .block | some .unblock => .everyone
  | _ => .controlSurface

/-- The permission that a branch needs for what it does, with the operation that
it chooses by the name. -/
def Work.permission : Work → Permission
  | .dbStatus | .moduleList _ | .engineInfo _ => .everyone
  | .pipelineSetPaused _ | .engineShutdown _ | .runTestSuite _ => .controlSurface
  | .handleTestProbe _ => .controlSurfaceOrTestRunner
  | .listAudit _ | .auditAction _ _ => .controlSurface
  | .modVirtualQuery _ _ _ | .chatRatingVirtualQuery _ _ _ => .everyone
  | .chatVerifyIdentityVirtualQuery _ _ => .everyone
  | .engineReplyToPlatform _ => .clip
  | .userdbAdjustScoreVirtualQuery _ _ => .scorers
  | .predictionGetScoreVirtualQuery _ => .predictions
  | .channelViewersVirtualQuery _ => .everyone
  | .leaderboardReport _ => .streamLeaderboard
  | .leaderboardRead | .streamControlWrite _ => .controlSurface
  | .streamScheduleRead => .everyone
  | .streamControlStatusWrite _ => .streamAdapters
  | .userdbVirtualQuery queryId _ _ => userdbPermission (userdbOp? queryId)
  | .replaceModuleBans _ _ => .everyone
  | .setCredentials _ | .stats => .controlSurface
  | .testArchive _ => .testRunner
  | .noSuchOperation => .nobody

/-- What a caller other than the control surface may at most run. -/
def ModuleMayRun (caller : String) : Work → Prop
  | .userdbVirtualQuery queryId _ _ =>
      queryId = "userdb_block" ∨ queryId = "userdb_unblock"
  | .userdbAdjustScoreVirtualQuery _ _ => caller = "score-messages" ∨ caller = "events"
  | .leaderboardReport _ => caller = "stream-leaderboard"
  | .streamControlStatusWrite _ => isStreamAdapter caller = true
  | .pipelineSetPaused _ | .engineShutdown _ | .listAudit _ | .auditAction _ _
  | .setCredentials _ | .stats | .streamControlWrite _ => False
  | _ => True

/-- A branch was entered as the gate has it. -/
structure EnteredByGrant (caller : String) (route : QueryRoute) (work : Work) :
    Prop where
  granted : callerGate route caller = none
  samePermission : work.permission = permissionOf route
  modules : isControlSurface caller = false → ModuleMayRun caller work

end Permissions

section Gate

variable {route : QueryRoute} {queryId sql caller : String}

theorem unlessAdmitted_eq_none_iff
    {admitted : Bool} {denial : String} :
    unlessAdmitted admitted denial = none ↔ admitted = true := by
  cases admitted <;> simp [unlessAdmitted]

/-- The gate grants what the route's permission grants. -/
theorem callerGate_eq_none_iff :
    callerGate route caller = none ↔ (permissionOf route).grants caller = true := by
  cases route <;>
    simp [callerGate, permissionOf, Permission.grants, unlessAdmitted_eq_none_iff]

theorem enter_eq_ok_iff
    {entered : QueryRoute × Work} :
    enter route queryId sql caller = .ok entered ↔
      callerGate route caller = none ∧
        entered = (route, dispatch route queryId sql caller) := by
  unfold enter
  cases callerGate route caller with
  | none => simp [eq_comm]
  | some denial => simp

/-- What the operator's permission admits is the control surface alone. -/
theorem moduleMayRun_of_granted
    {work : Work}
    (hcaller : isControlSurface caller = false)
    (hgranted : work.permission.grants caller = true) :
    ModuleMayRun caller work := by
  cases work with
  | userdbVirtualQuery queryId sql requester =>
      simp only [Work.permission] at hgranted
      cases hop : userdbOp? queryId with
      | none => simp [hop, userdbPermission, Permission.grants, hcaller] at hgranted
      | some op =>
          cases op with
          | block => exact Or.inl (userdbOp?_eq_block_iff.mp hop)
          | unblock => exact Or.inr (userdbOp?_eq_unblock_iff.mp hop)
          | _ => simp [hop, userdbPermission, Permission.grants, hcaller] at hgranted
  | userdbAdjustScoreVirtualQuery sql requester =>
      simpa [Work.permission, Permission.grants, hcaller, ModuleMayRun] using hgranted
  | leaderboardReport sql =>
      simpa [Work.permission, Permission.grants, ModuleMayRun] using hgranted
  | streamControlStatusWrite sql => exact hgranted
  | _ =>
      first
        | trivial
        | simp [Work.permission, Permission.grants, hcaller] at hgranted

/-- What a branch chooses by a name is of the permission that the name's route is
gated by. -/
theorem permission_dispatch
    (hroute : classifyQuery queryId = route) :
    (dispatch route queryId sql caller).permission = permissionOf route := by
  cases route with
  | userdbBlock =>
      rcases eq_of_userdbBlock hroute with rfl | rfl <;> rfl
  | userdbFamily =>
      simp only [dispatch, Work.permission, permissionOf]
      cases hop : userdbOp? queryId with
      | none => rfl
      | some op =>
          cases op with
          | block =>
              exact absurd (Or.inl (userdbOp?_eq_block_iff.mp hop))
                (ne_block_of_userdbFamily hroute)
          | unblock =>
              exact absurd (Or.inr (userdbOp?_eq_unblock_iff.mp hop))
                (ne_block_of_userdbFamily hroute)
          | _ => rfl
  | _ => rfl

theorem enteredByGrant_of_handleQuery
    {entered : QueryRoute × Work}
    (h : handleQuery queryId sql caller = .ok entered) :
    EnteredByGrant caller entered.1 entered.2 := by
  obtain ⟨hgranted, rfl⟩ := enter_eq_ok_iff.mp h
  have hsame : (dispatch (classifyQuery queryId) queryId sql caller).permission =
      permissionOf (classifyQuery queryId) :=
    permission_dispatch rfl
  refine ⟨hgranted, hsame, fun hcaller => moduleMayRun_of_granted hcaller ?_⟩
  rw [hsame]
  exact callerGate_eq_none_iff.mp hgranted

end Gate

section Surfaces

variable {ops : QueryOps} {op : WireQueryOp} {route : QueryRoute}

/-- The name of an operation is classified as the operation is routed. -/
theorem classifyQuery_queryId
    (h : routeFromOp op = some route) :
    classifyQuery (ops.queryId op) = route := by
  rw [QueryOps.queryId, ops.asStrName_eq]
  cases op <;> simp only [routeFromOp, reduceCtorEq, Option.some.injEq] at h <;>
    subst h <;> decide +kernel

/-- A routed operation is handled as its name is. -/
theorem handleQueryRequest_eq_handleQuery
    {operation : Int} {params : Option String} {caller : String}
    (hop : ops.tryFrom operation = some op)
    (hroute : routeFromOp op = some route) :
    handleQueryRequest ops operation params caller =
      handleQuery (ops.queryId op) (sqlFromParams params) caller := by
  simp only [handleQueryRequest, hop, Option.getD_some, hroute, handleQuery,
    classifyQuery_queryId hroute]

/-- An operation that is entered has been read and routed. -/
theorem routed_of_handleQueryRequest
    {operation : Int} {params : Option String} {caller : String}
    {entered : QueryRoute × Work}
    (h : handleQueryRequest ops operation params caller = .ok entered) :
    ∃ op route, ops.tryFrom operation = some op ∧ routeFromOp op = some route := by
  unfold handleQueryRequest at h
  cases hop : ops.tryFrom operation with
  | none => simp [hop, routeFromOp] at h
  | some op =>
      cases hroute : routeFromOp op with
      | none => simp [hop, hroute] at h
      | some route => exact ⟨op, route, rfl, hroute⟩

/-- **Main theorem.**  Through either surface, every branch is entered by a grant
of the gate, does what its route's permission is for, and is none that a module
may not run. -/
theorem privileged_queries_stay_privileged
    (ops : QueryOps) (caller : String) :
    (∀ queryId sql entered, handleQuery queryId sql caller = .ok entered →
        EnteredByGrant caller entered.1 entered.2) ∧
      ∀ operation params entered,
        handleQueryRequest ops operation params caller = .ok entered →
          EnteredByGrant caller entered.1 entered.2 := by
  refine ⟨fun queryId sql entered h => enteredByGrant_of_handleQuery h,
    fun operation params entered h => ?_⟩
  obtain ⟨op, route, hop, hroute⟩ := routed_of_handleQueryRequest h
  rw [handleQueryRequest_eq_handleQuery hop hroute] at h
  exact enteredByGrant_of_handleQuery h

/-- A library that numbers the first operations in their order. -/
def firstOps : QueryOps where
  tryFrom n :=
    if n = 0 then some .unspecified
    else if n = 1 then some .dbStatus
    else none
  asStrName op := screamingSnake op.variantName
  asStrName_eq _ := rfl

theorem privileged_queries_stay_privileged_clip :
    EnteredByGrant "clip" .userdbBlock
        (.userdbVirtualQuery "userdb_unblock" "" "clip") ∧
      EnteredByGrant "clip" .dbStatus .dbStatus :=
  ⟨(privileged_queries_stay_privileged firstOps "clip").1 "userdb_unblock" ""
      (.userdbBlock, .userdbVirtualQuery "userdb_unblock" "" "clip") rfl,
    (privileged_queries_stay_privileged firstOps "clip").2 1 none
      (.dbStatus, .dbStatus) rfl⟩

end Surfaces

end Dispatcher

end CockatielEngine
