import CockatielEngine.Blocks.UserDb

/-!
# Pricing: the gate of a module

A module's manifest may ask for a role, a rank and a price.  `permit_module`
looks the sender of a message up in the user database, checks role and rank, and
takes the price from the sender's current score.

Ranks are left open: all the gate does with them is to compare.
-/

namespace CockatielEngine

/-- The cost and authority gate of a module, as its manifest declares it. -/
structure ModuleGate (ρ : Type) where
  authority : Nat
  minRank : ρ
  price : UInt32

def authorityUser : Nat := 0
def authorityMod : Nat := 1
def authorityAdmin : Nat := 2
def authorityOwner : Nat := 3

/-- The tier of the highest role that the user holds. -/
def authorityTier (user : User) : Nat :=
  if user.isOwner then authorityOwner
  else if user.isAdmin then authorityAdmin
  else if user.isModerator then authorityMod
  else authorityUser

/-- The conversion `as i32`. -/
def asI32 (n : UInt32) : Int :=
  n.toInt32.toInt

/-- The current score of each user that the user database holds. -/
abbrev Scores := String → Option Int

/-- The user database's deduction: the signed amount, when the score covers
it. -/
def deductScore (scores : Scores) (uuid7 : String) (amount : Int) :
    Bool × Scores :=
  match scores uuid7 with
  | none => (false, scores)
  | some score =>
      if amount ≤ score then
        (true, Function.update scores uuid7 (some (score - amount)))
      else (false, scores)

/-- What becomes of a request to the user database. -/
inductive RequestFate where
  | answered
  | replyLost
  | unsent
deriving DecidableEq, Repr

/-- The client's side of a deduction: it knows only what it is told. -/
def RequestFate.deduct (fate : RequestFate) (scores : Scores) (uuid7 : String)
    (amount : Int) : Bool × Scores :=
  match fate with
  | .answered => deductScore scores uuid7 amount
  | .replyLost => (false, (deductScore scores uuid7 amount).2)
  | .unsent => (false, scores)

/-- What the world answers to one permission: what the lookup of the sender
returned, if it did, and the fate of the deduction. -/
structure GateAnswer (ρ : Type) where
  lookup : Option (Option (User × ρ))
  deduction : RequestFate := .answered

variable {ρ : Type} [Zero ρ] [LE ρ] [LT ρ] [DecidableLE ρ] [DecidableLT ρ]

namespace ModuleGate

/-- The gate lets everyone through. -/
def isOpen (gate : ModuleGate ρ) : Bool :=
  decide (gate.authority = 0) && decide (gate.minRank ≤ 0) &&
    decide (gate.price = 0)

/-- The user's role is below the gate's. -/
def lacksAuthority (gate : ModuleGate ρ) (user : User) : Bool :=
  decide (0 < gate.authority) && decide (authorityTier user < gate.authority)

/-- The user's rank is below the gate's. -/
def lacksRank (gate : ModuleGate ρ) (rank : ρ) : Bool :=
  decide (0 < gate.minRank) && decide (rank < gate.minRank)

end ModuleGate

/-- Whether the module may have the message of this sender, and the scores after
it was asked. -/
def permitModule (gates : String → Option (ModuleGate ρ)) (hasUserDb : Bool)
    (scores : Scores) (w : GateAnswer ρ) (userUuid7 moduleName : String) :
    Bool × Scores :=
  match gates moduleName with
  | none => (true, scores)
  | some gate =>
      if gate.isOpen then (true, scores)
      else if trimmed userUuid7 = "" then (true, scores)
      else if !hasUserDb then (true, scores)
      else
        match w.lookup with
        | none => (true, scores)
        | some none => (false, scores)
        | some (some (user, rank)) =>
            if gate.lacksAuthority user then (false, scores)
            else if gate.lacksRank rank then (false, scores)
            else if 0 < gate.price then
              w.deduction.deduct scores userUuid7 (asI32 gate.price)
            else (true, scores)

/-- The gate is passed without asking the user database. -/
def passesUnchecked (hasUserDb : Bool) (w : GateAnswer ρ) (userUuid7 : String) :
    Bool :=
  decide (trimmed userUuid7 = "") || !hasUserDb || w.lookup.isNone

/-- The user database takes the price: the sender is found, passes the gate and
has a score that covers what is asked of it. -/
def takesPrice (gate : ModuleGate ρ) (hasUserDb : Bool) (scores : Scores)
    (w : GateAnswer ρ) (userUuid7 : String) : Bool :=
  !passesUnchecked hasUserDb w userUuid7 &&
    (w.lookup.getD none).any (fun r =>
      !gate.lacksAuthority r.1 && !gate.lacksRank r.2) &&
    decide (w.deduction ≠ .unsent) &&
    (scores userUuid7).any fun score => decide (asI32 gate.price ≤ score)

section Prices

theorem asI32_eq (n : UInt32) :
    asI32 n = if 2 * n.toNat < 2 ^ 32 then (n.toNat : Int) else n.toNat - 2 ^ 32 :=
  BitVec.toInt_eq_toNat_cond n.toBitVec

theorem asI32_of_lt {n : UInt32} (h : n.toNat < 2 ^ 31) :
    asI32 n = n.toNat := by
  rw [asI32_eq, if_pos (by omega)]

theorem asI32_neg {n : UInt32} (h : 2 ^ 31 ≤ n.toNat) :
    asI32 n < 0 := by
  have hlt : n.toNat < 2 ^ 32 := n.toNat_lt
  rw [asI32_eq, if_neg (by omega)]
  omega

/-- The price that turns negative first. -/
example : asI32 (2 ^ 31) = -2 ^ 31 := by decide

end Prices

section Permission

variable {gates : String → Option (ModuleGate ρ)} {hasUserDb : Bool}
variable {scores : Scores} {w : GateAnswer ρ} {userUuid7 moduleName : String}
variable {gate : ModuleGate ρ}

/-- A gate without a price leaves the scores alone. -/
theorem permitModule_free
    (h : ∀ gate, gates moduleName = some gate → ¬ 0 < gate.price) :
    (permitModule gates hasUserDb scores w userUuid7 moduleName).2 = scores := by
  unfold permitModule
  split
  · rfl
  · rename_i gate hgate
    simp only [if_neg (h gate hgate)]
    repeat' split
    all_goals rfl

/-- At a gate with a price the user database is asked, if it can be. -/
theorem permitModule_priced
    (hgate : gates moduleName = some gate)
    (hprice : 0 < gate.price) :
    permitModule gates hasUserDb scores w userUuid7 moduleName =
      if passesUnchecked hasUserDb w userUuid7 then (true, scores)
      else
        match w.lookup.getD none with
        | none => (false, scores)
        | some (user, rank) =>
            if gate.lacksAuthority user || gate.lacksRank rank then (false, scores)
            else w.deduction.deduct scores userUuid7 (asI32 gate.price) := by
  have hopen : gate.isOpen = false := by
    have hne : gate.price ≠ 0 := by
      rintro heq
      rw [heq] at hprice
      exact absurd hprice (by decide)
    simp [ModuleGate.isOpen, hne]
  simp only [permitModule, hgate, hopen, Bool.false_eq_true, if_false, if_pos hprice,
    passesUnchecked]
  by_cases hblank : trimmed userUuid7 = ""
  · simp [hblank]
  · cases hasUserDb with
    | false => simp
    | true =>
        obtain ⟨lookup, deduction⟩ := w
        cases lookup with
        | none => simp
        | some found =>
            cases found with
            | none => simp [hblank]
            | some r =>
                cases hlacks : gate.lacksAuthority r.1 <;> simp [hblank, hlacks]

/-- Nobody is charged where the user database is not asked. -/
theorem permitModule_unchecked
    (hgate : gates moduleName = some gate)
    (hprice : 0 < gate.price)
    (h : passesUnchecked hasUserDb w userUuid7 = true) :
    permitModule gates hasUserDb scores w userUuid7 moduleName =
      (true, scores) := by
  rw [permitModule_priced hgate hprice, if_pos h]

/-- The user database takes the price: the module has the message if the answer
comes. -/
theorem permitModule_charged
    (hgate : gates moduleName = some gate)
    (hprice : 0 < gate.price)
    (h : takesPrice gate hasUserDb scores w userUuid7 = true) :
    ∃ score, scores userUuid7 = some score ∧
      permitModule gates hasUserDb scores w userUuid7 moduleName =
        (decide (w.deduction = .answered),
          Function.update scores userUuid7 (some (score - asI32 gate.price))) := by
  simp only [takesPrice, Bool.and_eq_true, decide_eq_true_eq, Bool.not_eq_true']
    at h
  obtain ⟨⟨⟨hchecked, hpasses⟩, hsent⟩, hcovers⟩ := h
  obtain ⟨score, hscore, hcovers⟩ := (Option.any_eq_true _ _).mp hcovers
  obtain ⟨⟨user, rank⟩, huser, hpasses⟩ := (Option.any_eq_true _ _).mp hpasses
  have hscore : scores userUuid7 = some score := hscore
  have huser : w.lookup.getD none = some (user, rank) := huser
  have htaken : deductScore scores userUuid7 (asI32 gate.price) =
      (true, Function.update scores userUuid7 (some (score - asI32 gate.price))) := by
    simp [deductScore, hscore, of_decide_eq_true hcovers]
  refine ⟨score, hscore, ?_⟩
  rw [permitModule_priced hgate hprice, hchecked, huser]
  simp only [Bool.and_eq_true, Bool.not_eq_true'] at hpasses
  simp only [hpasses.1, hpasses.2, Bool.or_self, Bool.false_eq_true, if_false]
  cases hfate : w.deduction with
  | answered => simp [RequestFate.deduct, htaken]
  | replyLost => simp [RequestFate.deduct, htaken]
  | unsent => exact absurd hfate hsent

/-- Otherwise the module is skipped, and nobody is charged. -/
theorem permitModule_denied
    (hgate : gates moduleName = some gate)
    (hprice : 0 < gate.price)
    (hchecked : passesUnchecked hasUserDb w userUuid7 = false)
    (h : takesPrice gate hasUserDb scores w userUuid7 = false) :
    permitModule gates hasUserDb scores w userUuid7 moduleName =
      (false, scores) := by
  rw [permitModule_priced hgate hprice, hchecked]
  simp only [Bool.false_eq_true, if_false]
  cases huser : w.lookup.getD none with
  | none => rfl
  | some r =>
      cases hlacks : gate.lacksAuthority r.1 || gate.lacksRank r.2 with
      | true => simp [hlacks]
      | false =>
          have hunpaid : deductScore scores userUuid7 (asI32 gate.price) =
                (false, scores) ∨
              w.deduction = .unsent := by
            simp only [Bool.or_eq_false_iff] at hlacks
            simp only [takesPrice, hchecked, huser, Option.any_some, hlacks.1,
              hlacks.2, Bool.not_false, Bool.and_self, Bool.true_and,
              Bool.and_eq_false_iff, decide_eq_false_iff_not, not_not] at h
            refine h.symm.imp_left fun hshort => ?_
            unfold deductScore
            cases hscore : scores userUuid7 with
            | none => rfl
            | some score => simp_all
          simp only [hlacks, Bool.false_eq_true, if_false]
          rcases hunpaid with hunpaid | hunsent
          · cases w.deduction <;> simp [RequestFate.deduct, hunpaid]
          · rw [hunsent]
            rfl

end Permission

end CockatielEngine
