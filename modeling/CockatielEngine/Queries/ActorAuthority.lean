import CockatielEngine.Queries.UserDbQueries

/-!
# Queries: the authority of the actor

Three families of queries change users on behalf of an actor: moderation, the
global block and the chat ratings.

**Main result.**  The engine sends the user database such a change for an
authorised actor only, exactly when no rating names its giver by a uuid that the
user database does not know: a rating looks up a platform handle, but takes a
uuid as it comes.
-/

namespace CockatielEngine

section Defs

/-- The actor of the payload resolves to a moderator, an admin or the owner. -/
def ActorHoldsRole (client : UserDbClient) (payload : Json) : Prop :=
  ∃ actor r user, payload.actor = some actor ∧
    lookupActor client actor = .ok r ∧ r.user = some user ∧
    blockActorHasAuthority user.2 = true

/-- The automated scorer applies one of its two deltas. -/
def ScoresBySystem (queryId requester : String) (payload : Json) : Prop :=
  (queryId = "mod_commend" ∨ queryId = "mod_reprimand") ∧ payload.actor = none ∧
    requester = "score-messages"

/-- The actor of the payload is a user whom the user database holds, and the
rating is given in that user's name. -/
def ActorGives (client : UserDbClient) (payload : Json) (giver : String) : Prop :=
  ∃ actor r user, payload.actor = some actor ∧
    lookupActor client actor = .ok r ∧ r.user = some user ∧
    (giver = actor.text "uuid7" ∨ giver = user.1)

/-- Somebody other than the actor is rated, by the module the rating is reserved
for. -/
def RatesAnother (client : UserDbClient) (queryId requester : String)
    (payload : Json) (m : UserDbMutation) : Prop :=
  requester = ratingModule queryId ∧
    ∃ giver recipient isCommendation platform handle reason,
      m = .rateUser giver recipient isCommendation platform handle reason ∧
      ActorGives client payload giver ∧ recipient ≠ giver

/-- What the family of a query asks of a change that the engine sends for it. -/
def Authorised (client : UserDbClient) (queryId requester : String)
    (payload : Json) (m : UserDbMutation) : Prop :=
  (startsWith queryId "mod_" = true →
    ActorHoldsRole client payload ∨ ScoresBySystem queryId requester payload) ∧
  (queryId = "userdb_block" ∨ queryId = "userdb_unblock" →
    ActorHoldsRole client payload) ∧
  (queryId = "chat_commend" ∨ queryId = "chat_reprimand" →
    RatesAnother client queryId requester payload m)

/-- Every change that the engine sends for the query is authorised. -/
def SendsAuthorised (client : UserDbClient) (parse : ParseJson) (now : Nat)
    (queryId sql requester : String) : Prop :=
  ∀ m, handleQuery client parse now queryId sql requester = some (.sends m) →
    ∃ payload, parse sql = .ok payload ∧
      Authorised client queryId requester payload m

/-- A rating whose giver comes as a uuid, and that has another recipient, names
a user whom the user database holds. -/
def RatesAsKnown (client : UserDbClient) (parse : ParseJson)
    (queryId sql requester : String) : Prop :=
  (queryId = "chat_commend" ∨ queryId = "chat_reprimand") →
    requester = ratingModule queryId →
    ∀ payload actor recipient,
      parse sql = .ok payload →
      payload.actor = some actor →
      actor.text "uuid7" ≠ "" →
      ratingRecipient client payload = .ok recipient →
      recipient ≠ actor.text "uuid7" →
      ∃ r user, client.getUser (actor.text "uuid7") "" "" "" = .ok r ∧
        r.user = some user

end Defs

section Checks

variable {client : UserDbClient} {parse : ParseJson} {now : Nat}
variable {queryId sql requester : String} {payload actor : Json}
variable {m : UserDbMutation}

/-- A handler that sends had its check pass. -/
theorem QueryEnd.after_eq_sends
    {α : Type} {checked : Except QueryError α} {go : α → QueryEnd}
    (h : QueryEnd.after checked go = .sends m) :
    ∃ a, checked = .ok a ∧ go a = .sends m := by
  cases checked with
  | error e => cases h
  | ok a => exact ⟨a, rfl, h⟩

/-- A verified actor was found and holds a role. -/
theorem verifyActor_eq_ok
    {user : String × User}
    (h : verifyActor client actor = .ok user) :
    ∃ r, lookupActor client actor = .ok r ∧ r.user = some user ∧
      blockActorHasAuthority user.2 = true := by
  unfold verifyActor at h
  split at h
  · cases h
  · rename_i r hlookup
    split at h
    · cases h
    · rename_i found hfound
      split at h
      · rename_i hrole
        obtain rfl := Except.ok.inj h
        exact ⟨r, hlookup, hfound, hrole⟩
      · cases h

theorem actorHoldsRole_of_verifyActor
    {user : String × User}
    (hactor : payload.actor = some actor)
    (h : verifyActor client actor = .ok user) :
    ActorHoldsRole client payload := by
  obtain ⟨r, hlookup, hfound, hrole⟩ := verifyActor_eq_ok h
  exact ⟨actor, r, user, hactor, hlookup, hfound, hrole⟩

/-- A moderation query that sends had an actor with a role, or came from the
scorer. -/
theorem modVirtualQuery_authorised
    (h : modVirtualQuery client parse now queryId sql requester = .sends m) :
    ∃ payload, parse sql = .ok payload ∧
      (ActorHoldsRole client payload ∨
        ScoresBySystem queryId requester payload) := by
  unfold modVirtualQuery at h
  split at h
  · cases h
  · rename_i payload hparse
    obtain ⟨who, hwho, -⟩ := QueryEnd.after_eq_sends h
    refine ⟨payload, hparse, ?_⟩
    unfold modActor at hwho
    split at hwho
    · rename_i actor hactor
      cases hverify : verifyActor client actor with
      | error e => simp [hverify, Except.map] at hwho
      | ok user => exact Or.inl (actorHoldsRole_of_verifyActor hactor hverify)
    · rename_i hactor
      split at hwho
      · rename_i hsystem
        exact Or.inr ⟨hsystem.1, hactor, hsystem.2⟩
      · cases hwho

/-- A block query that sends had an actor with a role. -/
theorem blockVirtualQuery_authorised
    (h : blockVirtualQuery client parse queryId sql = .sends m) :
    ∃ payload, parse sql = .ok payload ∧ ActorHoldsRole client payload := by
  unfold blockVirtualQuery at h
  split at h
  · cases h
  · rename_i payload hparse
    obtain ⟨r, hr, -⟩ := QueryEnd.after_eq_sends h
    refine ⟨payload, hparse, ?_⟩
    unfold resolveBlockActor at hr
    split at hr
    · cases hr
    · rename_i actor hactor
      split at hr
      · cases hr
      · rename_i user hverify
        exact actorHoldsRole_of_verifyActor hactor hverify

/-- The giver of a rating comes as a uuid, or was found by platform and
handle. -/
theorem ratingGiver_eq_ok
    {giver : String}
    (h : ratingGiver client actor = .ok giver) :
    (actor.text "uuid7" ≠ "" ∧ giver = actor.text "uuid7") ∨
      ∃ r user, lookupActor client actor = .ok r ∧ r.user = some user ∧
        giver = user.1 := by
  unfold ratingGiver resolveTarget at h
  split at h
  · rename_i huuid
    exact Or.inl ⟨huuid, (Except.ok.inj h).symm⟩
  · rename_i huuid
    split at h
    · right
      have hlookup : lookupActor client actor =
          client.getUser "" (actor.text "platform") (actor.text "handle")
            (actor.text "handle") := by
        simp [lookupActor, huuid]
      rw [hlookup]
      unfold ratedUser at h
      split at h
      · cases h
      · rename_i r hr
        split at h
        · rename_i user _ hfound
          exact ⟨r, user, hr, hfound, (Except.ok.inj h).symm⟩
        · cases h
    · cases h

/-- When a rating is sent, and which. -/
theorem chatRatingVirtualQuery_eq_sends_iff :
    chatRatingVirtualQuery client parse queryId sql requester = .sends m ↔
      requester = ratingModule queryId ∧
      ∃ payload actor giver recipient,
        parse sql = .ok payload ∧ payload.actor = some actor ∧
        ratingGiver client actor = .ok giver ∧
        ratingRecipient client payload = .ok recipient ∧ recipient ≠ giver ∧
        m = .rateUser giver recipient (queryId == "chat_commend")
          (payload.text "platform") (payload.text "handle")
          (payload.text "reason") := by
  constructor
  · intro h
    unfold chatRatingVirtualQuery at h
    split at h
    · cases h
    · rename_i hrequester
      split at h
      · cases h
      · rename_i payload hparse
        split at h
        · cases h
        · rename_i actor hactor
          obtain ⟨giver, hgiver, h⟩ := QueryEnd.after_eq_sends h
          obtain ⟨recipient, hrecipient, h⟩ := QueryEnd.after_eq_sends h
          split at h
          · cases h
          · rename_i hother
            exact ⟨not_not.mp hrequester, payload, actor, giver, recipient, hparse,
              hactor, hgiver, hrecipient, hother, (QueryEnd.sends.inj h).symm⟩
  · rintro ⟨hrequester, payload, actor, giver, recipient, hparse, hactor, hgiver,
      hrecipient, hother, rfl⟩
    simp [chatRatingVirtualQuery, hrequester, hparse, hactor, hgiver, hrecipient,
      hother, QueryEnd.after]

/-- A rating from its module names a known giver or one it was told. -/
theorem ratesAnother_of_sends
    (hrating : queryId = "chat_commend" ∨ queryId = "chat_reprimand")
    (hknown : RatesAsKnown client parse queryId sql requester)
    (h : chatRatingVirtualQuery client parse queryId sql requester = .sends m) :
    ∃ payload, parse sql = .ok payload ∧
      RatesAnother client queryId requester payload m := by
  obtain ⟨hrequester, payload, actor, giver, recipient, hparse, hactor, hgiver,
    hrecipient, hother, rfl⟩ := chatRatingVirtualQuery_eq_sends_iff.mp h
  refine ⟨payload, hparse, hrequester, _, _, _, _, _, _, rfl, ?_, hother⟩
  rcases ratingGiver_eq_ok hgiver with
    ⟨huuid, rfl⟩ | ⟨r, user, hlookup, hfound, rfl⟩
  · obtain ⟨r, user, hr, hfound⟩ := hknown hrating hrequester payload actor
      recipient hparse hactor huuid hrecipient hother
    exact ⟨actor, r, user, hactor, by simpa [lookupActor, huuid] using hr, hfound,
      Or.inl rfl⟩
  · exact ⟨actor, r, user, hactor, hlookup, hfound, Or.inr rfl⟩

end Checks

section Dispatch

variable {client : UserDbClient} {parse : ParseJson} {now : Nat}
variable {queryId sql requester : String} {m : UserDbMutation}

/-- Each family reaches its own handler. -/
theorem handleQuery_cases
    (h : handleQuery client parse now queryId sql requester = some (.sends m)) :
    (startsWith queryId "mod_" = true ∧
      modVirtualQuery client parse now queryId sql requester = .sends m) ∨
    ((queryId = "userdb_block" ∨ queryId = "userdb_unblock") ∧
      blockVirtualQuery client parse queryId sql = .sends m) ∨
    ((queryId = "chat_commend" ∨ queryId = "chat_reprimand") ∧
      chatRatingVirtualQuery client parse queryId sql requester = .sends m) := by
  unfold handleQuery at h
  simp only at h
  split at h
  · cases h
  · split at h
    · rename_i hroute
      exact Or.inl ⟨startsWith_of_modFamily hroute, Option.some.inj h⟩
    · rename_i hroute
      exact Or.inr (Or.inr ⟨Or.inl (eq_of_chatCommend hroute), Option.some.inj h⟩)
    · rename_i hroute
      exact Or.inr (Or.inr ⟨Or.inr (eq_of_chatReprimand hroute), Option.some.inj h⟩)
    · rename_i hroute
      exact Or.inr (Or.inl ⟨eq_of_userdbBlock hroute, Option.some.inj h⟩)
    · cases h

/-- The ratings pass the dispatcher's gate. -/
theorem handleQuery_rating
    (h : queryId = "chat_commend" ∨ queryId = "chat_reprimand") :
    handleQuery client parse now queryId sql requester =
      some (chatRatingVirtualQuery client parse queryId sql requester) := by
  rcases h with rfl | rfl <;> rfl

/-- A rating whose unknown giver is let through is not authorised. -/
theorem SendsAuthorised.ratesAsKnown
    (h : SendsAuthorised client parse now queryId sql requester) :
    RatesAsKnown client parse queryId sql requester := by
  intro hrating hrequester payload actor recipient hparse hactor huuid hrecipient
    hother
  have hgiver : ratingGiver client actor = .ok (actor.text "uuid7") := by
    simp [ratingGiver, resolveTarget, huuid]
  have hsends := chatRatingVirtualQuery_eq_sends_iff.mpr
    ⟨hrequester, payload, actor, _, recipient, hparse, hactor, hgiver, hrecipient,
      hother, rfl⟩
  obtain ⟨payload', hparse', hauthorised⟩ := h _
    ((handleQuery_rating hrating).trans (congrArg some hsends))
  obtain rfl := Except.ok.inj (hparse.symm.trans hparse')
  obtain ⟨-, _, _, _, _, _, _, -, ⟨actor', r, user, hactor', hlookup, hfound, -⟩, -⟩ :=
    hauthorised.2.2 hrating
  obtain rfl := Option.some.inj (hactor.symm.trans hactor')
  exact ⟨r, user, by simpa [lookupActor, huuid] using hlookup, hfound⟩

theorem RatesAsKnown.sendsAuthorised
    (h : RatesAsKnown client parse queryId sql requester) :
    SendsAuthorised client parse now queryId sql requester := by
  intro m hsends
  have hmodBlock : startsWith queryId "mod_" = true →
      ¬ (queryId = "userdb_block" ∨ queryId = "userdb_unblock") ∧
        ¬ (queryId = "chat_commend" ∨ queryId = "chat_reprimand") := by
    intro hprefix
    constructor <;> rintro (rfl | rfl) <;> exact absurd hprefix (by decide)
  rcases handleQuery_cases hsends with
    ⟨hmod, hsends⟩ | ⟨hblock, hsends⟩ | ⟨hrating, hsends⟩
  · obtain ⟨payload, hparse, hactor⟩ := modVirtualQuery_authorised hsends
    obtain ⟨hblock, hrating⟩ := hmodBlock hmod
    exact ⟨payload, hparse, fun _ => hactor, fun h => absurd h hblock,
      fun h => absurd h hrating⟩
  · obtain ⟨payload, hparse, hactor⟩ := blockVirtualQuery_authorised hsends
    refine ⟨payload, hparse, fun hmod => absurd hblock (hmodBlock hmod).1,
      fun _ => hactor, ?_⟩
    rcases hblock with rfl | rfl <;> rintro (h | h) <;> exact absurd h (by decide)
  · obtain ⟨payload, hparse, hrates⟩ := ratesAnother_of_sends hrating h hsends
    refine ⟨payload, hparse, fun hmod => absurd hrating (hmodBlock hmod).2, ?_,
      fun _ => hrates⟩
    rcases hrating with rfl | rfl <;> rintro (h | h) <;> exact absurd h (by decide)

end Dispatch

/-- **Main theorem.**  Every change that the engine sends for a moderation, block
or rating query is authorised, exactly when a rating whose giver comes as a
uuid, and that has another recipient, names a user whom the user database
holds. -/
theorem sendsAuthorised_iff_ratesAsKnown
    (client : UserDbClient) (parse : ParseJson) (now : Nat)
    (queryId sql requester : String) :
    SendsAuthorised client parse now queryId sql requester ↔
      RatesAsKnown client parse queryId sql requester :=
  ⟨SendsAuthorised.ratesAsKnown, RatesAsKnown.sendsAuthorised⟩

/-- An empty user database. -/
def nobodyKnown : UserDbClient where
  getUser _ _ _ _ := .ok { success := false, user := none }

/-- A parser for the text of a rating in the name of a uuid. -/
def ratingText : ParseJson
  | "\x7b\"actor\":\x7b\"uuid7\":\"u1\"\x7d,\"uuid7\":\"u2\"\x7d" =>
      .ok (.obj [("actor", .obj [("uuid7", .str "u1")]), ("uuid7", .str "u2")])
  | _ => .error "expected value"

/-- The rating is sent for an actor who does not exist. -/
theorem rates_as_nobody :
    ¬ ∀ (client : UserDbClient) (parse : ParseJson) (now : Nat)
        (queryId sql requester : String),
      isControlSurface requester = false →
      SendsAuthorised client parse now queryId sql requester := by
  intro h
  have hknown := (h nobodyKnown ratingText 0 "chat_commend"
    "\x7b\"actor\":\x7b\"uuid7\":\"u1\"\x7d,\"uuid7\":\"u2\"\x7d" "commend"
    (by decide)).ratesAsKnown (Or.inl rfl) rfl _ _ "u2" rfl rfl (by decide) rfl
    (by decide)
  obtain ⟨r, user, hr, hfound⟩ := hknown
  cases Except.ok.inj hr
  cases hfound

end CockatielEngine
