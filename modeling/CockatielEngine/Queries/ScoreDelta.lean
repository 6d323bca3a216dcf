import CockatielEngine.Queries.UserdbFamily

/-!
# Queries: the delta of a score

Three queries change a score by the number that their payload asks for.  They read
it as one of 64 bits and carry it in 32; what does not fit is cut, and the
adjustment takes a zero that is left of it for nothing to do.
-/

namespace CockatielEngine

/-- How `userdb_adjust_score` ends; a zero is acknowledged and not sent. -/
inductive AdjustEnd where
  | denied (error : QueryError)
  | acknowledges (uuid7 : String)
  | adjustsScoreOnly (uuid7 : String) (delta : Int) (reason : String)
deriving DecidableEq, Repr

/-- Whether a positive delta is scaled: unless the payload says no. -/
def useScoreMultiplier (payload : Json) : Bool :=
  ((payload.get "multiplier").bind Json.asBool).getD true

/-- The target of an adjustment. -/
def resolveAdjustTarget (client : UserDbClient) (payload : Json) :
    Except QueryError String :=
  resolveTarget payload "userdb_adjust_score requires uuid7 or platform + handle"
    (modTarget payload) client

/-- `userdb_adjust_score`.  What the stream tracker makes of a user's delta is an
argument. -/
def userdbAdjustScoreVirtualQuery (client : UserDbClient)
    (scaled : String → Int → Int) (parse : ParseJson) (sql : String) : AdjustEnd :=
  match parse sql with
  | .error e => .denied ("Invalid userdb_adjust_score payload: " ++ e)
  | .ok payload =>
      let delta := payload.int32 "delta" 0
      let reason :=
        ((payload.get "reason").bind Json.asStr).getD "userdb_adjust_score"
      match resolveAdjustTarget client payload with
      | .error e => .denied e
      | .ok uuid7 =>
          if delta = 0 then .acknowledges uuid7
          else if useScoreMultiplier payload then
            .adjustsScoreOnly uuid7 (scaled uuid7 delta) reason
          else .adjustsScoreOnly uuid7 delta reason

/-- The number has 32 bits. -/
def Fits32 (n : Int) : Prop :=
  -2 ^ 31 ≤ n ∧ n < 2 ^ 31

instance (n : Int) : Decidable (Fits32 n) :=
  inferInstanceAs (Decidable (_ ∧ _))

/-- The query is refused or sends the number as it is. -/
def AdjustEnd.Exact (n : Int) : AdjustEnd → Prop
  | .denied _ => True
  | .acknowledges _ => False
  | .adjustsScoreOnly _ delta _ => delta = n

/-- In the same way for the queries that add to a score and take from it. -/
def UserdbEnd.Exact (n : Int) : UserdbEnd → Prop
  | .denied _ => True
  | .sends (.addScore _ delta _) => delta = n
  | .sends (.removeScore _ delta _) => delta = n
  | _ => False

section Deltas

variable {payload : Json} {n default : Int} {key : String}

theorem bmod_eq_self_iff :
    n.bmod (2 ^ 32) = n ↔ Fits32 n := by
  rw [Fits32, Int.bmod_def]
  constructor
  · intro h
    split at h <;> omega
  · intro h
    split <;> omega

/-- A number that the payload asks for is read whole if it has 32 bits. -/
theorem int32_eq_iff
    (h : payload.get key = some (.num (some n))) :
    payload.int32 key default = n ↔ Fits32 n := by
  have hread : (payload.get key).bind Json.asI64 =
      if -2 ^ 63 ≤ n ∧ n < 2 ^ 63 then some n else none := by
    rw [h, Option.bind_some, Json.asI64, Json.asInt, Option.filter_some]
    simp only [decide_eq_true_eq]
  rw [Json.int32, hread]
  by_cases hlong : -2 ^ 63 ≤ n ∧ n < 2 ^ 63
  · rw [if_pos hlong]
    exact bmod_eq_self_iff
  · -- a number of more than 64 bits is read as the default
    rw [if_neg hlong]
    have hfits : Fits32 (default.bmod (2 ^ 32)) := bmod_eq_self_iff.mp (Int.bmod_bmod ..)
    simp only [Fits32] at hfits ⊢
    omega

/-- Without the multiplier an adjustment is refused for its target, or sends the
number where that has 32 bits and is not zero. -/
theorem userdbAdjustScore_exact_iff
    {client : UserDbClient} {scaled : String → Int → Int} {parse : ParseJson}
    {sql : String}
    (hparse : parse sql = .ok payload)
    (hdelta : payload.get "delta" = some (.num (some n)))
    (hraw : useScoreMultiplier payload = false) :
    (userdbAdjustScoreVirtualQuery client scaled parse sql).Exact n ↔
      (∃ e, resolveAdjustTarget client payload = .error e) ∨ Fits32 n ∧ n ≠ 0 := by
  have hexact : payload.int32 "delta" 0 = n ↔ Fits32 n := int32_eq_iff hdelta
  simp only [userdbAdjustScoreVirtualQuery, hparse, hraw, Bool.false_eq_true, if_false]
  cases resolveAdjustTarget client payload with
  | error e => simp [AdjustEnd.Exact]
  | ok uuid7 =>
      by_cases hzero : payload.int32 "delta" 0 = 0
      · simp only [hzero, if_true, AdjustEnd.Exact, reduceCtorEq, exists_false,
          false_or, false_iff, not_and, ne_eq, not_not]
        intro hfits
        rw [← hexact.mpr hfits, hzero]
      · simp only [if_neg hzero, AdjustEnd.Exact, reduceCtorEq, exists_false, false_or,
          hexact, ne_eq, iff_self_and]
        rintro hfits rfl
        exact hzero (hexact.mpr hfits)

end Deltas

/-- Asked for a number, the queries that add to a score and take from it send that
number exactly if it has 32 bits; so does the adjustment without the multiplier,
which refuses it when its target is not known, unless the number is zero. -/
theorem scoreDelta_exact_iff
    (env : QueryEnv)
    (scaled : String → Int → Int)
    (sql : String)
    (payload : Json)
    (n : Int)
    (hparse : env.parse sql = .ok payload)
    (hdelta : payload.get "delta" = some (.num (some n)))
    (hraw : useScoreMultiplier payload = false) :
    ((userdbVirtualQuery env "userdb_add_score" sql).Exact n ↔ Fits32 n) ∧
      ((userdbVirtualQuery env "userdb_remove_score" sql).Exact n ↔ Fits32 n) ∧
      ((userdbAdjustScoreVirtualQuery env.client scaled env.parse sql).Exact n ↔
        (∃ e, resolveAdjustTarget env.client payload = .error e) ∨
          Fits32 n ∧ n ≠ 0) := by
  refine ⟨?_, ?_, ?_⟩
  · rw [userdbVirtualQuery, hparse]
    exact int32_eq_iff hdelta
  · rw [userdbVirtualQuery, hparse]
    exact int32_eq_iff hdelta
  · exact userdbAdjustScore_exact_iff hparse hdelta hraw

section Cuts

/-- A payload that asks the named user's score to change by this number. -/
def deltaPayload (n : Int) : Json :=
  .obj [("delta", .num (some n)), ("multiplier", .bool false), ("uuid7", .str "u")]

/-- A parser for the texts of three such payloads. -/
def deltaTexts : ParseJson
  | "\x7b\"delta\":-5,\"multiplier\":false,\"uuid7\":\"u\"\x7d" =>
      .ok (deltaPayload (-5))
  | "\x7b\"delta\":2147483648,\"multiplier\":false,\"uuid7\":\"u\"\x7d" =>
      .ok (deltaPayload (2 ^ 31))
  | "\x7b\"delta\":4294967296,\"multiplier\":false,\"uuid7\":\"u\"\x7d" =>
      .ok (deltaPayload (2 ^ 32))
  | _ => .error "not one of them"

/-- A handler's surroundings, with a user database that knows nobody. -/
def deltaEnv : QueryEnv where
  client := ⟨fun _ _ _ _ => .ok ⟨false, none⟩⟩
  parse := deltaTexts
  now := 0
  cockatielActorId := ""
  peerLoopback := false

theorem scoreDelta_exact_five :
    (userdbVirtualQuery deltaEnv "userdb_add_score"
        "\x7b\"delta\":-5,\"multiplier\":false,\"uuid7\":\"u\"\x7d").Exact (-5) ∧
      (userdbAdjustScoreVirtualQuery deltaEnv.client (fun _ d => d) deltaEnv.parse
        "\x7b\"delta\":-5,\"multiplier\":false,\"uuid7\":\"u\"\x7d").Exact (-5) := by
  have h := scoreDelta_exact_iff deltaEnv (fun _ d => d)
    "\x7b\"delta\":-5,\"multiplier\":false,\"uuid7\":\"u\"\x7d" (deltaPayload (-5)) (-5)
    rfl rfl rfl
  exact ⟨h.1.mpr (by decide), h.2.2.mpr (Or.inr (by decide))⟩

/-- 2³¹ is added as −2³¹, and an adjustment by 2³² is acknowledged without one. -/
theorem not_exact_cut :
    ¬ (userdbVirtualQuery deltaEnv "userdb_add_score"
        "\x7b\"delta\":2147483648,\"multiplier\":false,\"uuid7\":\"u\"\x7d").Exact
        (2 ^ 31) ∧
      ¬ (userdbVirtualQuery deltaEnv "userdb_remove_score"
        "\x7b\"delta\":2147483648,\"multiplier\":false,\"uuid7\":\"u\"\x7d").Exact
        (2 ^ 31) ∧
      userdbAdjustScoreVirtualQuery deltaEnv.client (fun _ d => d) deltaEnv.parse
        "\x7b\"delta\":4294967296,\"multiplier\":false,\"uuid7\":\"u\"\x7d" =
          .acknowledges "u" := by
  refine ⟨?_, ?_, by decide⟩
  · change ¬ (Int.bmod (2 ^ 31) (2 ^ 32) = 2 ^ 31)
    decide
  · change ¬ (Int.bmod (2 ^ 31) (2 ^ 32) = 2 ^ 31)
    decide

end Cuts

end CockatielEngine
