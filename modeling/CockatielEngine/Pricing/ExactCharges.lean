import CockatielEngine.Concurrency.Books
import CockatielEngine.Pipeline.SentBefore
import CockatielEngine.Pricing.ModuleGate

/-!
# Pricing: charged exactly for what was delivered

The engine asks the gate of a module before each send, in all three stages and
in their replays; the scores of the users are kept beside it.

**Main result.**  In every state of a run the sender has been charged the prices
of exactly the modules the message was delivered to, each once, and no price has
raised a score, exactly when every step of the run charges fairly: a price that
is taken is below 2^31, and its module is then sent the message, for the first
time; and a module that is sent the message for the first time has been paid.
The price is taken before the send, and as a signed number.
-/

namespace CockatielEngine

open TaskPool

/-- What one permission made of the sender's score. -/
structure ScoreEntry where
  uuid7 : String
  moduleName : String
  user : String
  before : Int
  after : Int
deriving DecidableEq, Repr

/-- The users' scores, with a ghost record of the permissions, newest first. -/
structure Accounts where
  scores : Scores
  entries : List ScoreEntry := []

/-- What the world answers to a step: to the engine, and to the gate where the
step asks it. -/
structure PricedAnswer (ρ : Type) where
  answer : Answer := {}
  gate : GateAnswer ρ

namespace ContainerForModule

/-- The sender of the message inside a container. -/
def sender (c : ContainerForModule) : String :=
  match c.payload with
  | .messagePreProcess _ rawMessage _ _ => rawMessage.userUuid7
  | .messageInProcess _ rawMessage _ _ _ _ => rawMessage.userUuid7
  | .messagePostProcess _ rawMessage _ _ _ => rawMessage.userUuid7

end ContainerForModule

/-- The message, the sender and the module that a step asks a gate about. -/
def Frame.asks : Frame → Option (String × String × String)
  | .fanout (.send fo (moduleName :: _)) =>
      some (fo.uuid7, fo.container.sender, moduleName)
  | .inProcess (.send uuid7 state moduleName _ _) =>
      some (uuid7, state.userUuid7, moduleName)
  | _ => none

section Defs

variable {ρ : Type} [Zero ρ] [LE ρ] [LT ρ] [DecidableLE ρ] [DecidableLT ρ]
variable (gates : String → Option (ModuleGate ρ)) (hasUserDb : Bool)

/-- The books of the gates: a step that asks is answered by the gate, and
entered; the world may set the scores. -/
def gateBooks : Books Frame Answer Accounts (PricedAnswer ρ) Scores where
  answer t f w :=
    match f.asks with
    | none => w.answer
    | some (_, user, moduleName) =>
        { w.answer with
          permitted :=
            (permitModule gates hasUserDb t.scores w.gate user moduleName).1 }
  enter t f w :=
    match f.asks with
    | none => t
    | some (uuid7, user, moduleName) =>
        let scores :=
          (permitModule gates hasUserDb t.scores w.gate user moduleName).2
        { scores
          entries :=
            { uuid7, moduleName, user
              before := (t.scores user).getD 0
              after := (scores user).getD 0 } :: t.entries }
  event t scores := { t with scores }

/-- The engine with its gates and the users' scores. -/
abbrev pricedEngine :
    Program (Engine × Accounts) Frame (PricedAnswer ρ) (WorldEvent ⊕ Scores) :=
  engine.withBooks (gateBooks gates hasUserDb)

abbrev PricedPool := Pool (Engine × Accounts) Frame
abbrev PricedLabel (ρ : Type) := Label (PricedAnswer ρ) (WorldEvent ⊕ Scores)

/-- The pool an engine boots with, over these scores. -/
def bootPriced (e : Engine) (scores : Scores) : PricedPool :=
  { shared := (e, { scores }), threads := [] }

/-- The module that an event delivers the message to. -/
def Event.deliversTo (uuid7 : String) : Event → Option String
  | .sent v _ moduleName _ => if v = uuid7 then some moduleName else none
  | .resent v _ moduleName _ => if v = uuid7 then some moduleName else none
  | _ => none

/-- The modules that the message was delivered to. -/
def deliveredTo (uuid7 : String) (log : List Event) : Finset String :=
  (log.filterMap (Event.deliversTo uuid7)).toFinset

/-- The price of a module, nothing where it has no gate. -/
def priceOf (moduleName : String) : Nat :=
  (gates moduleName).elim 0 fun gate => gate.price.toNat

/-- What the permissions for the message have taken from its sender. -/
def deducted (uuid7 : String) (entries : List ScoreEntry) : Int :=
  ((entries.filter (·.uuid7 = uuid7)).map fun x => x.before - x.after).sum

/-- What was taken for the message is the sum of the prices of the modules it
was delivered to, and nothing that was taken for it raised a score. -/
structure ChargedExactly (uuid7 : String) (s : PricedPool) : Prop where
  total : deducted uuid7 s.shared.2.entries =
    ∑ moduleName ∈ deliveredTo uuid7 s.shared.1.log, (priceOf gates moduleName : Int)
  lowers : ∀ x ∈ s.shared.2.entries, x.uuid7 = uuid7 → x.after ≤ x.before

/-- Where the gate is passed unchecked the send comes to nothing new; where the
price is taken it is a positive number, and pays for a first delivery. -/
def GateFair (gate : ModuleGate ρ) (delivered : Bool) (scores : Scores)
    (w : PricedAnswer ρ) (user : String) : Prop :=
  (passesUnchecked hasUserDb w.gate user = true →
    w.answer.outcome = .sent → delivered = true) ∧
  (takesPrice gate hasUserDb scores w.gate user = true →
    gate.price.toNat < 2 ^ 31 ∧ w.gate.deduction = .answered ∧
      w.answer.outcome = .sent ∧ delivered = false)

instance (gate : ModuleGate ρ) (delivered : Bool) (scores : Scores)
    (w : PricedAnswer ρ) (user : String) :
    Decidable (GateFair hasUserDb gate delivered scores w user) :=
  inferInstanceAs (Decidable (_ ∧ _))

/-- A step that asks a gate with a price for the message charges fairly. -/
def ChargesFairly (uuid7 : String) (s : PricedPool) (w : PricedAnswer ρ)
    (f : Frame) : Prop :=
  ∀ r ∈ f.asks, r.1 = uuid7 → ∀ gate ∈ gates r.2.2, 0 < gate.price →
    GateFair hasUserDb gate
      (decide (r.2.2 ∈ deliveredTo uuid7 s.shared.1.log)) s.shared.2.scores w r.2.1

instance (uuid7 : String) (s : PricedPool) (w : PricedAnswer ρ) (f : Frame) :
    Decidable (ChargesFairly gates hasUserDb uuid7 s w f) := by
  unfold ChargesFairly
  infer_instance

end Defs

section Deliveries

variable {e : Engine} {a : Answer} {f : Frame} {uuid7 moduleName : String}

theorem mem_deliveredTo_iff {log : List Event} :
    moduleName ∈ deliveredTo uuid7 log ↔
      ∃ ev ∈ log, ev.deliversTo uuid7 = some moduleName := by
  simp [deliveredTo]

/-- What was sent was delivered. -/
theorem WasSent.mem_deliveredTo {log : List Event}
    (h : WasSent log uuid7 moduleName) :
    moduleName ∈ deliveredTo uuid7 log := by
  obtain ⟨stage, container, hmem⟩ := h
  exact mem_deliveredTo_iff.mpr ⟨_, hmem, by simp [Event.deliversTo]⟩

/-- A step that asks a gate sends the message when it may and can. -/
theorem log_step_of_asks
    {v user : String}
    (hasks : f.asks = some (v, user, moduleName)) :
    ∃ stage container, (f.step e a).shared.log =
      if a.permitted = true ∧ a.outcome = .sent then
        .sent v stage moduleName container :: e.log
      else e.log := by
  cases f with
  | fanout f =>
      cases f with
      | track => simp [Frame.asks] at hasks
      | send fo todo =>
          cases todo with
          | nil => simp [Frame.asks] at hasks
          | cons m todo =>
              simp only [Frame.asks, Option.some.injEq, Prod.mk.injEq] at hasks
              obtain ⟨rfl, -, rfl⟩ := hasks
              refine ⟨fo.stage, fo.container, ?_⟩
              simp only [Frame.step, FanoutFrame.step, Bool.and_eq_true,
                decide_eq_true_eq]
              split <;> rfl
  | inProcess f =>
      cases f with
      | send u state m ackTimeoutMs len =>
          simp only [Frame.asks, Option.some.injEq, Prod.mk.injEq] at hasks
          obtain ⟨rfl, -, rfl⟩ := hasks
          refine ⟨.inProcess, state.inProcessContainer u, ?_⟩
          simp only [Frame.step, InProcessFrame.step, Bool.and_eq_true,
            decide_eq_true_eq]
          split <;> rfl
      | _ => simp [Frame.asks] at hasks
  | _ => simp [Frame.asks] at hasks

/-- What a step that asks a gate adds to the deliveries. -/
theorem deliveredTo_of_asks
    {v user : String}
    (hasks : f.asks = some (v, user, moduleName)) :
    deliveredTo uuid7 (f.step e a).shared.log =
      if v = uuid7 ∧ a.permitted = true ∧ a.outcome = .sent then
        insert moduleName (deliveredTo uuid7 e.log)
      else deliveredTo uuid7 e.log := by
  obtain ⟨stage, container, hlog⟩ := log_step_of_asks (e := e) (a := a) hasks
  rw [hlog]
  by_cases hsent : a.permitted = true ∧ a.outcome = .sent
  · by_cases hv : v = uuid7 <;>
      simp [hsent, hv, deliveredTo, Event.deliversTo]
  · simp only [hsent, and_false, if_false]

/-- A step that asks no gate delivers to nobody new. -/
theorem deliveredTo_of_asks_eq_none
    (hf : KnowsRightly e f)
    (hasks : f.asks = none) :
    deliveredTo uuid7 (f.step e a).shared.log = deliveredTo uuid7 e.log := by
  obtain ⟨evs, hlog, hevs⟩ := f.records e a
  ext m
  simp only [mem_deliveredTo_iff, hlog, List.mem_append]
  constructor
  · rintro ⟨ev, hev | hev, hm⟩
    · rw [← mem_deliveredTo_iff]
      cases hevs ev hev with
      | fanout_sent => simp [Frame.asks] at hasks
      | inProcess_sent => simp [Frame.asks] at hasks
      | @resent sw entry still container hsent =>
          simp only [Event.deliversTo, Option.ite_none_right_eq_some,
            Option.some.injEq] at hm
          obtain ⟨rfl, rfl⟩ := hm
          exact (hf _ (List.mem_cons_self ..)).mem_deliveredTo
      | _ => simp [Event.deliversTo] at hm
    · exact ⟨ev, hev, hm⟩
  · rintro ⟨ev, hev, hm⟩
    exact ⟨ev, Or.inr hev, hm⟩

end Deliveries

section Fairness

variable {ρ : Type} [Zero ρ] [LE ρ] [LT ρ] [DecidableLE ρ] [DecidableLT ρ]
variable {gates : String → Option (ModuleGate ρ)} {hasUserDb : Bool}
variable {scores : Scores} {w : PricedAnswer ρ} {user moduleName : String}

/-- What a permission takes from the sender's score. -/
def taken (gates : String → Option (ModuleGate ρ)) (hasUserDb : Bool)
    (scores : Scores) (w : PricedAnswer ρ) (user moduleName : String) : Int :=
  (scores user).getD 0 -
    ((permitModule gates hasUserDb scores w.gate user moduleName).2 user).getD 0

/-- The price that a send makes due: that of a first delivery. -/
def madeDue (gates : String → Option (ModuleGate ρ)) (hasUserDb delivered : Bool)
    (scores : Scores) (w : PricedAnswer ρ) (user moduleName : String) : Nat :=
  if (permitModule gates hasUserDb scores w.gate user moduleName).1 = true ∧
      w.answer.outcome = .sent ∧ delivered = false then
    priceOf gates moduleName
  else 0

/-- A permission takes what its send makes due, exactly when it is fair. -/
theorem taken_eq_madeDue_iff (delivered : Bool) :
    taken gates hasUserDb scores w user moduleName =
        madeDue gates hasUserDb delivered scores w user moduleName ↔
      ∀ gate ∈ gates moduleName, 0 < gate.price →
        GateFair hasUserDb gate delivered scores w user := by
  by_cases hfree : ∀ gate, gates moduleName = some gate → ¬ 0 < gate.price
  · have hprice : priceOf gates moduleName = 0 := by
      unfold priceOf
      cases hgate : gates moduleName with
      | none => rfl
      | some gate =>
          have := hfree gate hgate
          simpa [UInt32.lt_iff_toNat_lt] using this
    refine iff_of_true ?_ fun gate hgate hprice => absurd hprice (hfree gate hgate)
    simp [taken, madeDue, permitModule_free hfree, hprice]
  · push Not at hfree
    obtain ⟨gate, hgate, hprice⟩ := hfree
    have hpos : 0 < gate.price.toNat := by
      simpa [UInt32.lt_iff_toNat_lt] using hprice
    have hof : priceOf gates moduleName = gate.price.toNat := by
      simp [priceOf, hgate]
    have hforall : (∀ gate ∈ gates moduleName, 0 < gate.price →
          GateFair hasUserDb gate delivered scores w user) ↔
        GateFair hasUserDb gate delivered scores w user := by
      simp [hgate, hprice]
    rw [hforall]
    cases hchecked : passesUnchecked hasUserDb w.gate user with
    | true =>
        have htakes : takesPrice gate hasUserDb scores w.gate user = false := by
          simp [takesPrice, hchecked]
        simp only [taken, madeDue, GateFair, hchecked, htakes, hof,
          permitModule_unchecked hgate hprice hchecked]
        cases delivered <;> by_cases hsent : w.answer.outcome = .sent <;>
          simp [hsent]
        omega
    | false =>
        cases htakes : takesPrice gate hasUserDb scores w.gate user with
        | true =>
            obtain ⟨score, hscore, hpermit⟩ :=
              permitModule_charged hgate hprice htakes
            have htaken : taken gates hasUserDb scores w user moduleName =
                asI32 gate.price := by
              simp [taken, hscore, hpermit]
            rw [htaken]
            simp only [madeDue, GateFair, hchecked, htakes, hof, hpermit]
            by_cases hsmall : gate.price.toNat < 2 ^ 31
            · rw [asI32_of_lt hsmall]
              by_cases hdue : w.gate.deduction = .answered ∧
                  w.answer.outcome = .sent ∧ delivered = false
              · rw [if_pos (by simpa using hdue)]
                exact iff_of_true rfl ⟨by simp, fun _ => ⟨hsmall, hdue⟩⟩
              · rw [if_neg (by simpa using hdue)]
                refine iff_of_false (by omega) fun h => hdue (h.2 trivial).2
            · have hneg := asI32_neg (not_lt.mp hsmall)
              refine iff_of_false ?_ fun h => hsmall (h.2 trivial).1
              have := Int.natCast_nonneg (n := if
                decide (w.gate.deduction = .answered) = true ∧
                  w.answer.outcome = .sent ∧ delivered = false then
                gate.price.toNat else 0)
              omega
        | false =>
            simp [taken, madeDue, GateFair, hchecked, htakes,
              permitModule_denied hgate hprice hchecked htakes]

end Fairness

section Sums

variable {ρ : Type} {gates : String → Option (ModuleGate ρ)}
variable {uuid7 : String} {s s' : PricedPool}

theorem deducted_cons (x : ScoreEntry) (entries : List ScoreEntry) :
    deducted uuid7 (x :: entries) =
      (if x.uuid7 = uuid7 then x.before - x.after else 0) +
        deducted uuid7 entries := by
  by_cases h : x.uuid7 = uuid7 <;> simp [deducted, h]

/-- A state with the same deliveries and no new entry of the message is charged
alike. -/
theorem chargedExactly_congr
    (hdelivered : deliveredTo uuid7 s'.shared.1.log =
      deliveredTo uuid7 s.shared.1.log)
    (hentries : s'.shared.2.entries.filter (·.uuid7 = uuid7) =
      s.shared.2.entries.filter (·.uuid7 = uuid7)) :
    ChargedExactly gates uuid7 s' ↔ ChargedExactly gates uuid7 s := by
  have hmem (x : ScoreEntry) (hx : x.uuid7 = uuid7) :
      x ∈ s'.shared.2.entries ↔ x ∈ s.shared.2.entries := by
    have h := congrArg (x ∈ ·) hentries
    simpa [hx] using h
  constructor
  · rintro ⟨htotal, hlowers⟩
    refine ⟨?_, fun x hx hof => hlowers x ((hmem x hof).mpr hx) hof⟩
    simpa only [deducted, hentries, hdelivered] using htotal
  · rintro ⟨htotal, hlowers⟩
    refine ⟨?_, fun x hx hof => hlowers x ((hmem x hof).mp hx) hof⟩
    simpa only [deducted, hentries, hdelivered] using htotal

/-- A first delivery adds its price to what is due. -/
theorem due_insert
    (gates : String → Option (ModuleGate ρ)) (moduleName : String)
    (delivered : Finset String) (sent : Prop) [Decidable sent] :
    (∑ m ∈ (if sent then insert moduleName delivered else delivered),
        (priceOf gates m : Int)) =
      ((if sent ∧ decide (moduleName ∈ delivered) = false then
          priceOf gates moduleName else 0 : Nat) : Int) +
        ∑ m ∈ delivered, (priceOf gates m : Int) := by
  by_cases hsent : sent
  · by_cases hmem : moduleName ∈ delivered
    · simp [hsent, hmem]
    · simp [hsent, hmem, Finset.sum_insert hmem]
  · simp [hsent]

end Sums

section Runs

variable {ρ : Type} [Zero ρ] [LE ρ] [LT ρ] [DecidableLE ρ] [DecidableLT ρ]
variable {gates : String → Option (ModuleGate ρ)} {hasUserDb : Bool}
variable {uuid7 : String} {s s' : PricedPool}

/-- A permission for the message keeps its charges exact, exactly when it takes
what its send makes due. -/
theorem chargedExactly_asks_iff
    {f : Frame} {w : PricedAnswer ρ} {user moduleName : String}
    {threads : List (List Frame)}
    (hs : ChargedExactly gates uuid7 s)
    (hasks : f.asks = some (uuid7, user, moduleName)) :
    ChargedExactly gates uuid7
        { shared :=
            ((f.step s.shared.1
                ((gateBooks gates hasUserDb).answer s.shared.2 f w)).shared,
              (gateBooks gates hasUserDb).enter s.shared.2 f w)
          threads } ↔
      taken gates hasUserDb s.shared.2.scores w user moduleName =
        madeDue gates hasUserDb
          (decide (moduleName ∈ deliveredTo uuid7 s.shared.1.log))
          s.shared.2.scores w user moduleName := by
  have hentries : ((gateBooks gates hasUserDb).enter s.shared.2 f w).entries =
      { uuid7, moduleName, user
        before := (s.shared.2.scores user).getD 0
        after := ((permitModule gates hasUserDb s.shared.2.scores w.gate user
          moduleName).2 user).getD 0 } :: s.shared.2.entries := by
    simp [gateBooks, hasks]
  have hdelivered : deliveredTo uuid7 (f.step s.shared.1
        ((gateBooks gates hasUserDb).answer s.shared.2 f w)).shared.log =
      if (permitModule gates hasUserDb s.shared.2.scores w.gate user
          moduleName).1 = true ∧ w.answer.outcome = .sent then
        insert moduleName (deliveredTo uuid7 s.shared.1.log)
      else deliveredTo uuid7 s.shared.1.log := by
    rw [deliveredTo_of_asks hasks]
    simp [gateBooks, hasks]
  have hdue := due_insert gates moduleName
    (deliveredTo uuid7 s.shared.1.log)
    ((permitModule gates hasUserDb s.shared.2.scores w.gate user
      moduleName).1 = true ∧ w.answer.outcome = .sent)
  simp only [and_assoc] at hdue
  have hold := hs.total
  constructor
  · rintro ⟨htotal, -⟩
    simp only [hentries, hdelivered, deducted_cons, if_true, hdue] at htotal
    simp only [taken, madeDue]
    omega
  · intro hpaid
    simp only [taken, madeDue] at hpaid
    refine ⟨?_, ?_⟩
    · simp only [hentries, hdelivered, deducted_cons, if_true, hdue]
      omega
    · simp only [hentries, List.mem_cons]
      rintro x (rfl | hx) hof
      · dsimp only
        omega
      · exact hs.lowers x hx hof

/-- A step keeps the charges exact, exactly when it charges fairly. -/
theorem chargedExactly_run_iff
    {i : Nat} {w : PricedAnswer ρ}
    (hs : ChargedExactly gates uuid7 s)
    (hknown : ∀ f ∈ s.frames, KnowsRightly s.shared.1 f)
    (h : (pricedEngine gates hasUserDb).fire s (.run i w) = some s') :
    ChargedExactly gates uuid7 s' ↔
      OnRun (ChargesFairly gates hasUserDb uuid7) s
        (.run i w : PricedLabel ρ) := by
  obtain ⟨f, rest, o, hi, ho, rfl⟩ := fire_run_withBooks h
  obtain rfl := engine_step_eq ho
  have htop : OnRun (ChargesFairly gates hasUserDb uuid7) s
      (.run i w : PricedLabel ρ) ↔ ChargesFairly gates hasUserDb uuid7 s w f := by
    simp [OnRun, Pool.top, hi]
  rw [htop]
  have hf : KnowsRightly s.shared.1 f :=
    hknown f (mem_frames_of_getElem? hi (List.mem_cons_self ..))
  cases hasks : f.asks with
  | none =>
      refine iff_of_true ?_ (by simp [ChargesFairly, hasks])
      refine (chargedExactly_congr (deliveredTo_of_asks_eq_none hf hasks) ?_).mpr hs
      simp [gateBooks, hasks]
  | some r =>
      obtain ⟨v, user, moduleName⟩ := r
      by_cases hv : v = uuid7
      · subst hv
        rw [chargedExactly_asks_iff hs hasks, taken_eq_madeDue_iff]
        simp [ChargesFairly, hasks]
      · refine iff_of_true ?_ (by simp [ChargesFairly, hasks, hv])
        refine (chargedExactly_congr ?_ ?_).mpr hs
        · simp [deliveredTo_of_asks hasks, hv]
        · simp [gateBooks, hasks, hv]

/-- The world charges nobody for a message. -/
theorem chargedExactly_world
    {ev : WorldEvent ⊕ Scores}
    (hs : ChargedExactly gates uuid7 s)
    (h : (pricedEngine gates hasUserDb).fire s (.world ev : PricedLabel ρ) = some s') :
    ChargedExactly gates uuid7 s' := by
  obtain ⟨r, hr, rfl⟩ := fire_world_cases h
  cases ev with
  | inl ev =>
      obtain rfl := Option.some.inj hr
      have hlog : (ev.effect s.shared.1).log = s.shared.1.log := by cases ev <;> rfl
      refine (chargedExactly_congr ?_ ?_).mpr hs
      · exact congrArg (deliveredTo uuid7) hlog
      · rfl
  | inr scores =>
      obtain rfl := Option.some.inj hr
      refine (chargedExactly_congr ?_ ?_).mpr hs <;> rfl

end Runs

/-- **Main theorem.**  In every state of a run the message's sender has been
charged exactly, if and only if every step of the run charges fairly. -/
theorem chargedExactly_iff_chargesFairly
    {ρ : Type} [Zero ρ] [LE ρ] [LT ρ] [DecidableLE ρ] [DecidableLT ρ]
    (gates : String → Option (ModuleGate ρ))
    (hasUserDb : Bool)
    (uuid7 : String)
    (e : Engine)
    (hlog : e.log = [])
    (hacks : e.ackTracker = .new)
    (scores : Scores)
    (ls : List (PricedLabel ρ))
    (hrun : ((pricedEngine gates hasUserDb).exec (bootPriced e scores) ls).isSome) :
    AllStates (pricedEngine gates hasUserDb) (ChargedExactly gates uuid7)
        (bootPriced e scores) ls ↔
      AllSteps (pricedEngine gates hasUserDb)
        (OnRun (ChargesFairly gates hasUserDb uuid7)) (bootPriced e scores) ls := by
  refine allStates_iff_allSteps
    (I := fun s => ChargedExactly gates uuid7 s ∧
      Annotated EntriesSent KnowsRightly s.forget)
    And.left ?_ ?_ ⟨?_, ?_⟩ hrun
  · rintro s s' l ⟨hs, hsent⟩ hok hfire
    refine ⟨?_, ?_⟩
    · cases l with
      | run i w => exact (chargedExactly_run_iff hs hsent.2 hfire).mpr hok
      | world ev => exact chargedExactly_world hs hfire
    · rcases fire_forget hfire with ⟨l', hl'⟩ | heq
      · exact sentBefore_outline.fire hsent trivial hl'
      · rwa [heq]
  · rintro s s' l ⟨hs, hsent⟩ hfire hs'
    cases l with
    | run i w => exact (chargedExactly_run_iff hs hsent.2 hfire).mp hs'
    | world ev => trivial
  · refine ⟨?_, ?_⟩
    · simp [bootPriced, deducted, deliveredTo, hlog]
    · simp [bootPriced]
  · have hstart : Reachable engine (fun _ _ => True) (boot e) (boot e) := .start
    exact sent_before hacks hstart

/-- One module asks for a price of five. -/
def fivePerMessage : String → Option (ModuleGate Nat) := fun m =>
  if m = "bot" then some { authority := 0, minRank := 0, price := 5 } else none

/-- A user with ten points, known to the user database. -/
def tenPoints : Scores := fun u => if u = "u1" then some 10 else none

/-- The user database finds the sender; the send ends like this. -/
def foundAnd (outcome : SendOutcome) : PricedAnswer Nat where
  answer := { outcome }
  gate := { lookup := some (some ({ username := "ann" }, 0)) }

/-- A message reaches the priced module of the in-process stage. -/
def sendsPriced (outcome : SendOutcome) : List (PricedLabel Nat) :=
  .world (.inl (.ingest { uuid7 := "m", rawMessage := "hi", userUuid7 := "u1" })) ::
    List.replicate 12 (.run 0 (foundAnd outcome))

theorem chargedExactly_iff_chargesFairly_delivered :
    AllStates (pricedEngine fivePerMessage true) (ChargedExactly fivePerMessage "m")
      (bootPriced { config := { inProcessModules := ["bot"] } } tenPoints)
      (sendsPriced .sent) :=
  (chargedExactly_iff_chargesFairly fivePerMessage true "m"
    { config := { inProcessModules := ["bot"] } } rfl rfl tenPoints (sendsPriced .sent)
    (by decide)).mpr (by decide)

/-- A module that is not connected is paid all the same. -/
theorem charged_for_unconnected :
    ¬ ∀ (gates : String → Option (ModuleGate Nat)) (uuid7 : String) (e : Engine)
        (scores : Scores) (ls : List (PricedLabel Nat)) (s : PricedPool),
      e.log = [] →
      e.ackTracker = .new →
      (pricedEngine gates true).exec (bootPriced e scores) ls = some s →
      ChargedExactly gates uuid7 s := by
  intro h
  have hcharged := h fivePerMessage "m"
    { config := { inProcessModules := ["bot"] } } tenPoints
    (sendsPriced .notConnected) _ rfl rfl rfl
  exact absurd hcharged.total (by decide)

end CockatielEngine
