import CockatielEngine.Queries.Dispatch

/-!
# Queries: when the two surfaces agree

The typed surface derives the name of a query from its operation and goes through
the same gate and the same branches.  What can still differ is a branch that
matches on the name again and has no case for it.

**Main result.**  An operation is answered as its name is, and never as an unknown
query, except for `userdb_delete_user_record`: the family's case is called
`userdb_delete_user`.
-/

namespace CockatielEngine

namespace Dispatcher

section Answers

/-- What a query comes to: the end of a query that the user database is asked
for, or a branch of the engine's own. -/
inductive Answer where
  | userdb (query : UserdbEnd)
  | onBehalf (query : QueryEnd)
  | engine (work : Work)

/-- What a branch comes to. -/
def answer (env : QueryEnv) : Work → Answer
  | .modVirtualQuery queryId sql requester =>
      .onBehalf (modVirtualQuery env.client env.parse env.now queryId sql requester)
  | .chatRatingVirtualQuery queryId sql requester =>
      .onBehalf (chatRatingVirtualQuery env.client env.parse queryId sql requester)
  | .userdbVirtualQuery queryId sql _ => .userdb (userdbVirtualQuery env queryId sql)
  | work => .engine work

/-- The cases of the `mod_*` family. -/
inductive ModOp where
  | commend
  | reprimand
  | ban
  | timeout
deriving DecidableEq, Repr

def modOp? (queryId : String) : Option ModOp :=
  match queryId with
  | "mod_commend" => some .commend
  | "mod_reprimand" => some .reprimand
  | "mod_ban" => some .ban
  | "mod_timeout" => some .timeout
  | _ => none

/-- A `mod_*` query comes to a name that it has no case for. -/
def ModUnknown (env : QueryEnv) (queryId sql requester : String) : Prop :=
  ∃ payload actor uuid7, env.parse sql = .ok payload ∧
    modActor env.client queryId payload requester = .ok actor ∧
    resolveModTarget env.client payload = .ok uuid7 ∧ modOp? queryId = none

/-- A branch ends in an unknown query. -/
def EndsUnknown (env : QueryEnv) : Work → Prop
  | .userdbVirtualQuery queryId sql _ =>
      ∃ error, userdbVirtualQuery env queryId sql = .unknown error
  | .modVirtualQuery queryId sql requester => ModUnknown env queryId sql requester
  | _ => False

/-- An operation is answered as its name is, and not as an unknown query. -/
structure SurfacesAgree (ops : QueryOps) (env : QueryEnv) (operation : Int)
    (name caller text : String) : Prop where
  same :
    (handleQueryRequest ops operation (some text) caller).map (answer env ·.2) =
      (handleQuery name text caller).map (answer env ·.2)
  known : ∀ entered, handleQueryRequest ops operation (some text) caller = .ok entered →
    ¬ EndsUnknown env entered.2

end Answers

section OnBehalf

variable {env : QueryEnv} {queryId sql caller : String}

/-- What is asked of the user database on somebody's behalf is asked by a branch
that the dispatcher enters. -/
theorem handleQuery_sends_iff
    {m : UserDbMutation} :
    CockatielEngine.handleQuery env.client env.parse env.now queryId sql caller =
        some (.sends m) ↔
      ∃ entered, handleQuery queryId sql caller = .ok entered ∧
        (answer env entered.2 = .onBehalf (.sends m) ∨
          answer env entered.2 = .userdb (.blocks (.sends m))) := by
  simp only [handleQuery, enter_eq_ok_iff, CockatielEngine.handleQuery]
  cases hgate : callerGate (classifyQuery queryId) caller with
  | some denial => simp
  | none =>
      simp only [true_and, exists_eq_left]
      generalize hroute : classifyQuery queryId = route
      cases route with
      | userdbBlock =>
          simp [dispatch, answer, userdbVirtualQuery_blocks_iff,
            eq_of_userdbBlock hroute]
      | userdbFamily =>
          simp [dispatch, answer, userdbVirtualQuery_blocks_iff,
            ne_block_of_userdbFamily hroute]
      | _ => simp [dispatch, answer]

end OnBehalf

section Unknown

variable {env : QueryEnv} {queryId sql requester : String}

/-- Where a `mod_*` query has no case for its name, it says so. -/
theorem modVirtualQuery_of_modUnknown
    (h : ModUnknown env queryId sql requester) :
    modVirtualQuery env.client env.parse env.now queryId sql requester =
      .denied ("Unknown mod query: " ++ queryId) := by
  obtain ⟨payload, actor, uuid7, hparse, hactor, htarget, hop⟩ := h
  simp only [modVirtualQuery, hparse, hactor, htarget, QueryEnd.after]
  unfold modAction
  split
  all_goals
    first
      | rfl
      | simp [modOp?] at hop

theorem not_modUnknown
    (h : modOp? queryId ≠ none) :
    ¬ ModUnknown env queryId sql requester := by
  rintro ⟨payload, actor, uuid7, _, _, _, hop⟩
  exact h hop

variable {ops : QueryOps} {op : WireQueryOp}

/-- The operations of the `mod_*` family have their cases. -/
theorem modOp?_queryId
    (h : routeFromOp op = some .modFamily) :
    modOp? (ops.queryId op) ≠ none := by
  rw [QueryOps.queryId, ops.asStrName_eq]
  cases op <;> simp only [routeFromOp, reduceCtorEq, Option.some.injEq] at h <;>
    decide +kernel

/-- Those of the `userdb_*` family have, but for one. -/
theorem userdbOp?_queryId
    (h : routeFromOp op = some .userdbFamily) :
    userdbOp? (ops.queryId op) = none ↔ op = .userdbDeleteUserRecord := by
  rw [QueryOps.queryId, ops.asStrName_eq]
  cases op <;> simp only [routeFromOp, reduceCtorEq, Option.some.injEq] at h <;>
    decide +kernel

/-- No operation is routed to the blocks. -/
theorem routeFromOp_ne_userdbBlock :
    routeFromOp op ≠ some .userdbBlock := by
  cases op <;> simp [routeFromOp]

/-- The branch of an operation ends in an unknown query for one operation only,
once its payload is read. -/
theorem endsUnknown_dispatch_iff
    {route : QueryRoute} {caller text : String}
    (hroute : routeFromOp op = some route) :
    EndsUnknown env (dispatch route (ops.queryId op) text caller) ↔
      op = .userdbDeleteUserRecord ∧ ∃ payload, env.parse text = .ok payload := by
  have hother (hne : route ≠ .userdbFamily) : op ≠ .userdbDeleteUserRecord := by
    rintro rfl
    exact hne (Option.some.inj hroute).symm
  cases route with
  | userdbFamily =>
      have hknown : userdbOp? (ops.queryId op) = none ↔ op = .userdbDeleteUserRecord :=
        userdbOp?_queryId hroute
      simp only [dispatch, EndsUnknown, userdbVirtualQuery_eq_unknown_iff, hknown]
      constructor
      · rintro ⟨error, hparse, hop, _⟩
        exact ⟨hop, hparse⟩
      · rintro ⟨hop, hparse⟩
        exact ⟨_, hparse, hop, rfl⟩
  | modFamily =>
      have hnot : ¬ ModUnknown env (ops.queryId op) text caller :=
        not_modUnknown (modOp?_queryId hroute)
      exact iff_of_false hnot fun h => hother (by simp) h.1
  | userdbBlock => exact absurd hroute routeFromOp_ne_userdbBlock
  | _ => exact iff_of_false id fun h => hother (by simp) h.1

end Unknown

section Agreement

variable {ops : QueryOps} {op : WireQueryOp} {route : QueryRoute} {operation : Int}

/-- **Main theorem.**  A routed operation is answered as its name is and never as
an unknown query, exactly when it is not the control surface's deletion of a user
record with a payload that can be read. -/
theorem surfacesAgree_iff
    (env : QueryEnv) (caller text : String)
    (hop : ops.tryFrom operation = some op)
    (hroute : routeFromOp op = some route) :
    SurfacesAgree ops env operation (ops.queryId op) caller text ↔
      ¬ (op = .userdbDeleteUserRecord ∧ isControlSurface caller = true ∧
          ∃ payload, env.parse text = .ok payload) := by
  have hsame : handleQueryRequest ops operation (some text) caller =
      handleQuery (ops.queryId op) text caller :=
    handleQueryRequest_eq_handleQuery hop hroute
  have hentered (entered : QueryRoute × Work) :
      handleQueryRequest ops operation (some text) caller = .ok entered ↔
        callerGate route caller = none ∧
          entered = (route, dispatch route (ops.queryId op) text caller) := by
    rw [hsame, handleQuery, classifyQuery_queryId hroute]
    exact enter_eq_ok_iff
  constructor
  · rintro hagree ⟨rfl, hcaller, hparse⟩
    obtain rfl : QueryRoute.userdbFamily = route := Option.some.inj hroute
    have hgranted : callerGate .userdbFamily caller = none :=
      callerGate_eq_none_iff.mpr hcaller
    exact hagree.known _ ((hentered _).mpr ⟨hgranted, rfl⟩)
      ((endsUnknown_dispatch_iff hroute).mpr ⟨rfl, hparse⟩)
  · intro hnot
    refine ⟨by rw [hsame], fun entered hok hunknown => hnot ?_⟩
    obtain ⟨hgranted, rfl⟩ := (hentered entered).mp hok
    obtain ⟨rfl, hparse⟩ := (endsUnknown_dispatch_iff hroute).mp hunknown
    obtain rfl : QueryRoute.userdbFamily = route := Option.some.inj hroute
    exact ⟨rfl, callerGate_eq_none_iff.mp hgranted, hparse⟩

/-- A parser for the text of an empty object. -/
def emptyObjectText : ParseJson
  | "\x7b\x7d" => .ok (.obj [])
  | _ => .error "expected value"

/-- A user database that knows nobody. -/
def emptyEnv : QueryEnv where
  client := { getUser := fun _ _ _ _ => .ok { success := false, user := none } }
  parse := emptyObjectText
  now := 0
  cockatielActorId := ""
  peerLoopback := true

/-- A library that numbers two operations of the `userdb_*` family. -/
def userdbOps : QueryOps where
  tryFrom n :=
    if n = 26 then some .userdbDeleteUserRecord
    else if n = 32 then some .userdbListUsers
    else none
  asStrName op := screamingSnake op.variantName
  asStrName_eq := firstOps.asStrName_eq

/-- Of the two the family has a case for the list only. -/
theorem surfacesAgree_iff_listUsers :
    SurfacesAgree userdbOps emptyEnv 32 (userdbOps.queryId .userdbListUsers)
        "cockatiel-tui" "\x7b\x7d" ∧
      ¬ SurfacesAgree userdbOps emptyEnv 26 (userdbOps.queryId .userdbDeleteUserRecord)
        "cockatiel-tui" "\x7b\x7d" := by
  have hlist : userdbOps.tryFrom 32 = some .userdbListUsers := rfl
  have hdelete : userdbOps.tryFrom 26 = some .userdbDeleteUserRecord := rfl
  constructor
  · refine (surfacesAgree_iff emptyEnv "cockatiel-tui" "\x7b\x7d" hlist rfl).mpr ?_
    rintro ⟨hop, -⟩
    cases hop
  · intro hagree
    exact (surfacesAgree_iff emptyEnv "cockatiel-tui" "\x7b\x7d" hdelete rfl).mp hagree
      ⟨rfl, by decide, .obj [], rfl⟩

/-- The control surface cannot delete a user record by the operation. -/
theorem deleteUserRecord_unknown :
    ¬ ∀ (ops : QueryOps) (env : QueryEnv) (operation : Int) (op : WireQueryOp)
      (caller text : String), ops.tryFrom operation = some op →
      (routeFromOp op).isSome = true →
      SurfacesAgree ops env operation (ops.queryId op) caller text := by
  intro h
  have hagree := h userdbOps emptyEnv 26 .userdbDeleteUserRecord "cockatiel-tui"
    "\x7b\x7d" (by decide) (by decide)
  exact hagree.known
    (.userdbFamily,
      .userdbVirtualQuery "userdb_delete_user_record" "\x7b\x7d" "cockatiel-tui")
    rfl ⟨_, rfl⟩

end Agreement

end Dispatcher

end CockatielEngine
