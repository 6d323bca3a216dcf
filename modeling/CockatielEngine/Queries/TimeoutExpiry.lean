import CockatielEngine.Queries.UserdbFamily

/-!
# Queries: the expiry of a timeout

The two queries that time a user out take a signed number of seconds, widen it to
128 unsigned bits, make it milliseconds, add the time and encode the sum as a JSON
number, which has 64 bits.  A negative number of seconds is a huge one after the
widening.
-/

namespace CockatielEngine

/-- A signed number in 128 unsigned bits. -/
def asU128 (d : Int) : Nat :=
  (d % 2 ^ 128).toNat

/-- The seconds that a payload asks for. -/
def timeoutDuration (payload : Json) : Int :=
  ((payload.get "duration_secs").bind Json.asI64).getD 300

/-- The product or the sum does not fit 128 bits. -/
def ExpiryOverflows (now : Nat) (d : Int) : Prop :=
  2 ^ 128 ≤ asU128 d * 1000 ∨ 2 ^ 128 ≤ now + asU128 d * 1000 % 2 ^ 128

instance (now : Nat) (d : Int) : Decidable (ExpiryOverflows now d) :=
  inferInstanceAs (Decidable (_ ∨ _))

/-- `userdb_timeout`.  A build with overflow checks panics where the arithmetic
would wrap. -/
def userdbTimeoutIn (overflowChecks : Bool) (now : Nat) (payload : Json) :
    UserdbEnd :=
  if overflowChecks ∧ ExpiryOverflows now (timeoutDuration payload) then .panics
  else userdbTimeout now payload

/-- `mod_timeout` on its target, in the same way. -/
def modTimeoutIn (overflowChecks : Bool) (now : Nat) (payload : Json)
    (uuid7 : String) : QueryEnd :=
  if overflowChecks ∧ ExpiryOverflows now (timeoutDuration payload) then .panics
  else modAction "mod_timeout" payload now uuid7

/-- The value that a timeout writes. -/
def timeoutFlag (payload : Json) (expires : Int) : Json :=
  .obj [("expires_at_ms", .num (some expires)), ("reason", .str (payload.text "reason")),
    ("timed_out", .bool true)]

/-- The expiry is computed without an overflow and, in every build, both queries
store the time plus the duration. -/
structure ExpiresInTime (now : Nat) (payload : Json) : Prop where
  fits : ¬ ExpiryOverflows now (timeoutDuration payload)
  userdb : ∀ overflowChecks, userdbTimeoutIn overflowChecks now payload =
    .sends (.writeUserValue (payload.text "uuid7") "timeout"
      (.encoded (timeoutFlag payload (now + timeoutDuration payload * 1000))))
  mod : ∀ overflowChecks uuid7, modTimeoutIn overflowChecks now payload uuid7 =
    .sends (.writeUserValue uuid7 "timeout"
      (timeoutFlag payload (now + timeoutDuration payload * 1000)))

theorem timeoutDuration_mem
    (payload : Json) :
    -2 ^ 63 ≤ timeoutDuration payload ∧ timeoutDuration payload < 2 ^ 63 := by
  rw [timeoutDuration]
  cases hread : (payload.get "duration_secs").bind Json.asI64 with
  | none => decide
  | some d =>
      obtain ⟨j, -, hj⟩ := Option.bind_eq_some_iff.mp hread
      exact of_decide_eq_true (Option.filter_eq_some_iff.mp hj).2

section Expiry

variable {now : Nat} {d : Int} {payload : Json} {uuid7 : String}

theorem asU128_of_nonneg
    (hd : 0 ≤ d)
    (hlt : d < 2 ^ 128) :
    (asU128 d : Int) = d := by
  rw [asU128, Int.emod_eq_of_lt hd hlt, Int.toNat_of_nonneg hd]

/-- The expiry is the sum and the product as 128 bits have them. -/
theorem timeoutExpiry_eq :
    timeoutExpiry now d = (now + asU128 d * 1000 % 2 ^ 128) % 2 ^ 128 := by
  have hnonneg : 0 ≤ d % 2 ^ 128 := Int.emod_nonneg d (by decide)
  have hnat : ((asU128 d : Nat) : Int) = d % 2 ^ 128 := Int.toNat_of_nonneg hnonneg
  have hsum : ((now : Int) + d * 1000) % 2 ^ 128 =
      (((now + asU128 d * 1000 % 2 ^ 128) % 2 ^ 128 : Nat) : Int) := by
    push_cast
    rw [hnat]
    omega
  rw [timeoutExpiry, hsum, Int.toNat_natCast]

/-- Less than no time does not fit. -/
theorem expiryOverflows_of_neg
    (hd : -2 ^ 63 ≤ d)
    (hneg : d < 0) :
    ExpiryOverflows now d := by
  left
  have hwide : d % 2 ^ 128 = d + 2 ^ 128 := by omega
  rw [asU128, hwide]
  omega

/-- Where nothing overflows the expiry is the time plus the duration. -/
theorem timeoutExpiry_of_fits
    (hd : -2 ^ 63 ≤ d ∧ d < 2 ^ 63)
    (hfits : ¬ ExpiryOverflows now d) :
    0 ≤ d ∧ (timeoutExpiry now d : Int) = now + d * 1000 := by
  have hnonneg : 0 ≤ d :=
    not_lt.mp fun hneg => hfits (expiryOverflows_of_neg hd.1 hneg)
  refine ⟨hnonneg, ?_⟩
  simp only [ExpiryOverflows, not_or, not_le] at hfits
  rw [timeoutExpiry_eq, Nat.mod_eq_of_lt hfits.2, Nat.mod_eq_of_lt hfits.1]
  push_cast
  rw [asU128_of_nonneg hnonneg (by omega)]

/-- A duration that is not negative and whose expiry has 64 bits does not
overflow. -/
theorem not_expiryOverflows
    (hnonneg : 0 ≤ d)
    (hlt : now + d * 1000 < 2 ^ 64) :
    ¬ ExpiryOverflows now d := by
  have hwide : (asU128 d : Int) = d := asU128_of_nonneg hnonneg (by omega)
  rw [ExpiryOverflows, not_or]
  omega

/-- A payload that is read gets to the arithmetic: the query is the operation. -/
theorem userdbVirtualQuery_timeout
    {env : QueryEnv} {sql : String}
    (hparse : env.parse sql = .ok payload) :
    userdbVirtualQuery env "userdb_timeout" sql = userdbTimeout env.now payload := by
  rw [userdbVirtualQuery, hparse]
  rfl

/-- Behind the checks of its actor and its target, so does a moderator's query. -/
theorem modVirtualQuery_timeout
    {client : UserDbClient} {parse : ParseJson} {sql requester : String}
    {actor : String × String}
    (hparse : parse sql = .ok payload)
    (hactor : modActor client "mod_timeout" payload requester = .ok actor)
    (htarget : resolveModTarget client payload = .ok uuid7) :
    modVirtualQuery client parse now "mod_timeout" sql requester =
      modAction "mod_timeout" payload now uuid7 := by
  simp only [modVirtualQuery, hparse, hactor, htarget, QueryEnd.after]

end Expiry

/-- The timeouts are computed without an overflow or a panic, and store the time
plus the duration, exactly for the durations that are not negative and whose
expiry has 64 bits. -/
theorem expiresInTime_iff
    (now : Nat)
    (payload : Json) :
    ExpiresInTime now payload ↔
      0 ≤ timeoutDuration payload ∧
        now + timeoutDuration payload * 1000 < 2 ^ 64 := by
  have hd := timeoutDuration_mem payload
  constructor
  · intro h
    obtain ⟨hnonneg, hexpiry⟩ := timeoutExpiry_of_fits hd h.fits
    refine ⟨hnonneg, ?_⟩
    by_contra hlarge
    have huserdb := h.userdb false
    rw [userdbTimeoutIn, if_neg (by simp), userdbTimeout, ← timeoutDuration,
      if_neg (by omega)] at huserdb
    cases huserdb
  · rintro ⟨hnonneg, hlt⟩
    have hfits := not_expiryOverflows hnonneg hlt
    have hexpiry := (timeoutExpiry_of_fits hd hfits).2
    have hsmall : timeoutExpiry now (timeoutDuration payload) < 2 ^ 64 := by omega
    refine ⟨hfits, fun overflowChecks => ?_, fun overflowChecks uuid7 => ?_⟩
    · rw [userdbTimeoutIn, if_neg fun h => hfits h.2, userdbTimeout,
        ← timeoutDuration, if_pos hsmall, timeoutFlag, hexpiry]
    · rw [modTimeoutIn, if_neg fun h => hfits h.2]
      simp only [modAction]
      rw [← timeoutDuration, if_pos hsmall, timeoutFlag, hexpiry]

/-- A payload that asks for a timeout of this many seconds. -/
def timeoutPayload (d : Int) : Json :=
  .obj [("duration_secs", .num (some d)), ("uuid7", .str "u")]

theorem timeoutDuration_timeoutPayload
    {d : Int}
    (hd : -2 ^ 63 ≤ d ∧ d < 2 ^ 63) :
    timeoutDuration (timeoutPayload d) = d := by
  have hfield : (timeoutPayload d).get "duration_secs" = some (.num (some d)) := rfl
  rw [timeoutDuration, hfield, Option.bind_some, Json.asI64, Json.asInt,
    Option.filter_some, if_pos (decide_eq_true hd), Option.getD_some]

theorem expiresInTime_hour :
    ExpiresInTime 1700000000000 (timeoutPayload 3600) ∧
      timeoutDuration (timeoutPayload 3600) = 3600 :=
  have hd : timeoutDuration (timeoutPayload 3600) = 3600 :=
    timeoutDuration_timeoutPayload (by omega)
  ⟨(expiresInTime_iff 1700000000000 (timeoutPayload 3600)).mpr (by rw [hd]; omega), hd⟩

/-- A timeout of minus one second overflows, and one of the longest duration
panics in every build. -/
theorem not_expiresInTime_extremes :
    ¬ ExpiresInTime 1700000000000 (timeoutPayload (-1)) ∧
      userdbTimeoutIn true 1700000000000 (timeoutPayload (-1)) = .panics ∧
      ¬ ExpiresInTime 1700000000000 (timeoutPayload (2 ^ 63 - 1)) ∧
      ∀ overflowChecks,
        userdbTimeoutIn overflowChecks 1700000000000 (timeoutPayload (2 ^ 63 - 1)) =
          .panics := by
  have hneg : ExpiryOverflows 1700000000000 (-1) :=
    expiryOverflows_of_neg (by omega) (by omega)
  have hlong : ∀ overflowChecks, userdbTimeoutIn overflowChecks 1700000000000
      (timeoutPayload (2 ^ 63 - 1)) = .panics := by
    intro overflowChecks
    have hfits : ¬ ExpiryOverflows 1700000000000 (2 ^ 63 - 1) := by
      have hwide : (asU128 (2 ^ 63 - 1) : Int) = 2 ^ 63 - 1 :=
        asU128_of_nonneg (by omega) (by omega)
      rw [ExpiryOverflows]
      omega
    have hexpiry := (timeoutExpiry_of_fits (by omega) hfits).2
    rw [userdbTimeoutIn, if_neg fun h => hfits h.2, userdbTimeout, ← timeoutDuration,
      timeoutDuration_timeoutPayload (by omega), if_neg (by omega)]
  refine ⟨fun h => h.fits hneg, ?_, fun h => ?_, hlong⟩
  · exact if_pos ⟨rfl, hneg⟩
  · have huserdb := h.userdb false
    rw [hlong] at huserdb
    cases huserdb

end CockatielEngine
