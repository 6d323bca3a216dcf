import CockatielEngine.Blocks.CacheCoherence

/-!
# Ingest: the records of chatters

Enriching a message looks its sender up in the user database and, when nobody is
found, creates a record.  These are two requests, and calls for one sender may
run on several tasks at once.  What a call makes of the record (the styling, the
bans) is left out here.

**Main result.**  No sender is ever given two records in a run in which no call
looks a sender up while another one is about to create them, and no identifier
that looks like a uuid is looked up in vain once its record has been created.
-/

namespace CockatielEngine

open TaskPool

/-- A sender as a platform knows them. -/
structure PlatformIdentity where
  platform : String
  identifier : String
deriving DecidableEq, Repr

/-- The sender of a message, with the user name it came with. -/
structure ChatUser where
  identity : PlatformIdentity
  username : String := ""
deriving DecidableEq, Repr

/-- The user holds a channel of the platform under the id or the handle. -/
def User.Holds (user : User) (platform channelId handle : String) : Prop :=
  ∃ ch ∈ user.channels, ch.platform = platform ∧
    (ch.channelId = channelId ∨ ch.handle = handle)

/-- A user database that finds its users by every channel they hold. -/
structure UserService where
  findUser : FindUser
  finds : ∀ (db : UserDb) (platform channelId handle : String),
    (∃ r ∈ db.users, r.2.Holds platform channelId handle) →
      ((findUser db platform channelId handle).bind db.user?).isSome = true

/-- What the calls share: the user database and, as a ghost, the senders that
records have been created for. -/
structure EnrichState where
  db : UserDb := {}
  created : List PlatformIdentity := []
deriving DecidableEq

/-- A call before its lookup, and before its create. -/
inductive EnrichFrame where
  | lookup (chat : ChatUser)
  | create (chat : ChatUser)
deriving DecidableEq, Repr

/-- Whether the request reached the user database, whether its answer came
back, and the uuid of a new user. -/
structure EnrichAnswer where
  reached : Bool := true
  answered : Bool := true
  uuid : UserUuid

/-- A message at ingest, or the owner of one that is read again before the
post-process stage. -/
inductive EnrichEvent where
  | ingest (chat : ChatUser)
  | refresh (platform userUuid7 : String)
deriving DecidableEq, Repr

abbrev EnrichPool := Pool EnrichState EnrichFrame
abbrev EnrichLabel := Label EnrichAnswer EnrichEvent

/-- 36 bytes with four dashes. -/
def looksLikeUuid (uid : String) : Bool :=
  uid.utf8ByteSize = 36 && uid.toList.count '-' = 4

/-- The record that the lookup of a sender finds. -/
def UserService.getUser (service : UserService) (db : UserDb)
    (identity : PlatformIdentity) : Option User :=
  (if looksLikeUuid identity.identifier then db.byUuid identity.identifier
    else
      service.findUser db identity.platform identity.identifier
        identity.identifier).bind db.user?

/-- The name of a new user: the message's, or the identifier. -/
def ChatUser.newUsername (chat : ChatUser) : String :=
  if chat.username = "" then chat.identity.identifier else chat.username

/-- The channel of a new user, which has the identifier as id and as handle. -/
def PlatformIdentity.channel (identity : PlatformIdentity) : ChannelRef where
  platform := identity.platform
  channelId := identity.identifier
  handle := identity.identifier

namespace EnrichFrame

def step (service : UserService) (e : EnrichState) (a : EnrichAnswer) :
    EnrichFrame → Outcome EnrichState EnrichFrame
  | .lookup chat =>
      if a.reached && a.answered then
        match service.getUser e.db chat.identity with
        | some _ => .thenRun e []
        | none => .thenRun e [.create chat]
      else .thenRun e []
  | .create chat =>
      if a.reached then
        .thenRun
          { db := e.db.addUser a.uuid chat.newUsername (some chat.identity.channel)
            created := e.created ++ [chat.identity] }
          []
      else .thenRun e []

/-- The call is about to create a record for the sender. -/
def creates (identity : PlatformIdentity) : EnrichFrame → Bool
  | .create chat => chat.identity = identity
  | .lookup _ => false

end EnrichFrame

/-- A call for a sender; one without an identifier returns at once. -/
def enrichCall (chat : ChatUser) : List (List EnrichFrame) :=
  if chat.identity.identifier = "" then [] else [[.lookup chat]]

/-- The calls as a program. -/
def enrichment (service : UserService) :
    Program EnrichState EnrichFrame EnrichAnswer EnrichEvent where
  step e f a := some (f.step service e a)
  catches _ := false
  event e
    | .ingest chat => some (e, enrichCall chat)
    | .refresh platform userUuid7 =>
        some (e, enrichCall { identity := ⟨platform, userUuid7⟩ })

section Defs

/-- No sender has been given two records. -/
def OneRecord (s : EnrichPool) : Prop :=
  ∀ identity, s.shared.created.count identity ≤ 1

/-- A lookup that is answered comes when no other call is about to create its
sender.  An identifier that looks like a uuid names a user then, or its record
has not been created yet. -/
def LooksUpAlone (s : EnrichPool) (a : EnrichAnswer) : EnrichFrame → Prop
  | .lookup chat =>
      (a.reached && a.answered) = true →
        (∀ f ∈ s.frames, f.creates chat.identity = false) ∧
          (looksLikeUuid chat.identity.identifier = true →
            (s.shared.db.byUuid chat.identity.identifier).isSome = true ∨
              chat.identity ∉ s.shared.created)
  | .create _ => True

instance (s : EnrichPool) (a : EnrichAnswer) (f : EnrichFrame) :
    Decidable (LooksUpAlone s a f) := by
  cases f <;> unfold LooksUpAlone <;> infer_instance

/-- The records of a sender, created or about to be. -/
def recordsOf (identity : PlatformIdentity) (s : EnrichPool) : Nat :=
  s.shared.created.count identity +
    s.total fun f => if f.creates identity then 1 else 0

/-- The invariant of a run: one record for each sender at most, and the
database holds the ones that were created. -/
structure OneRecordEach (s : EnrichPool) : Prop where
  once : ∀ identity, recordsOf identity s ≤ 1
  held : ∀ identity ∈ s.shared.created, ∃ r ∈ s.shared.db.users,
    r.2.Holds identity.platform identity.identifier identity.identifier

end Defs

section Steps

variable {service : UserService} {s s' : EnrichPool} {identity : PlatformIdentity}

theorem holds_channel (identity : PlatformIdentity) (username : String) :
    User.Holds { username := username, channels := [identity.channel] }
      identity.platform identity.identifier identity.identifier :=
  ⟨identity.channel, List.mem_singleton_self _, rfl, Or.inl rfl⟩

/-- A user that is found by a uuid has a record. -/
theorem isSome_user?_byUuid
    {db : UserDb} {uuid7 : String}
    (h : (db.byUuid uuid7).isSome = true) :
    ((db.byUuid uuid7).bind db.user?).isSome = true := by
  obtain ⟨u, hu⟩ := Option.isSome_iff_exists.mp h
  obtain ⟨r, hr, rfl⟩ := Option.map_eq_some_iff.mp hu
  have hmem := List.mem_of_find?_eq_some hr
  rw [hu, Option.bind_some, UserDb.user?, Option.isSome_map,
    List.find?_isSome]
  exact ⟨r, hmem, by simp⟩

/-- Nobody is found only when no record was created. -/
theorem not_created_of_getUser
    (h : OneRecordEach s)
    (huuid : looksLikeUuid identity.identifier = true →
      (s.shared.db.byUuid identity.identifier).isSome = true ∨
        identity ∉ s.shared.created)
    (hnone : service.getUser s.shared.db identity = none) :
    identity ∉ s.shared.created := by
  intro hmem
  unfold UserService.getUser at hnone
  by_cases hlooks : looksLikeUuid identity.identifier = true
  · rw [if_pos hlooks] at hnone
    have hsome := isSome_user?_byUuid ((huuid hlooks).resolve_right (not_not_intro hmem))
    rw [hnone] at hsome
    cases hsome
  · rw [if_neg hlooks] at hnone
    have hsome := service.finds s.shared.db identity.platform identity.identifier
      identity.identifier (h.held identity hmem)
    rw [hnone] at hsome
    cases hsome

/-- A sender whom nobody is about to create has no token. -/
theorem total_creates_eq_zero
    (h : ∀ f ∈ s.frames, f.creates identity = false) :
    (s.total fun f => if f.creates identity then 1 else 0) = 0 := by
  refine List.sum_eq_zero fun n hn => ?_
  obtain ⟨f, hf, rfl⟩ := List.mem_map.mp hn
  rw [h f hf]
  rfl

/-- Everything a step does: nothing, or it comes from a lookup that found nobody
to a create, or it creates. -/
theorem EnrichFrame.step_cases
    (service : UserService) (e : EnrichState) (a : EnrichAnswer) (f : EnrichFrame) :
    ((f.step service e a).shared = e ∧ (f.step service e a).new = []) ∨
    (∃ chat, f = .lookup chat ∧ (a.reached && a.answered) = true ∧
      service.getUser e.db chat.identity = none ∧
      (f.step service e a).shared = e ∧
      (f.step service e a).new = [.create chat]) ∨
    ∃ chat, f = .create chat ∧
      (f.step service e a).shared =
        { db := e.db.addUser a.uuid chat.newUsername (some chat.identity.channel)
          created := e.created ++ [chat.identity] } ∧
      (f.step service e a).new = [] := by
  cases f with
  | lookup chat =>
      simp only [step]
      split
      · rename_i hanswered
        cases hfound : service.getUser e.db chat.identity with
        | some user => exact Or.inl ⟨rfl, rfl⟩
        | none => exact Or.inr (Or.inl ⟨chat, rfl, hanswered, hfound, rfl, rfl⟩)
      · exact Or.inl ⟨rfl, rfl⟩
  | create chat =>
      simp only [step]
      split
      · exact Or.inr (Or.inr ⟨chat, rfl, rfl, rfl⟩)
      · exact Or.inl ⟨rfl, rfl⟩

end Steps

section Runs

variable {service : UserService} {s s' : EnrichPool}

/-- Every step of a run keeps each sender to one record. -/
theorem OneRecordEach.fire
    {l : EnrichLabel}
    (h : OneRecordEach s)
    (hok : OnRun LooksUpAlone s l)
    (hfire : (enrichment service).fire s l = some s') :
    OneRecordEach s' := by
  cases l with
  | run i a =>
      obtain ⟨f, rest, o, hi, ho, rfl⟩ := fire_run_cases hfire
      obtain rfl := Option.some.inj ho
      have htotal (identity : PlatformIdentity) := total_fire_run_le
        (P := enrichment service) (o := f.step service s.shared a)
        (fun f => if f.creates identity then 1 else 0) hi
      rcases f.step_cases service s.shared a with
        ⟨hshared, hnew⟩ | ⟨chat, rfl, hanswered, hnone, hshared, hnew⟩ |
          ⟨chat, rfl, hshared, hnew⟩
      · refine ⟨fun identity => ?_, by rw [hshared]; exact h.held⟩
        have honce := h.once identity
        have hpool := htotal identity
        simp only [recordsOf, hshared, hnew, List.map_nil, List.sum_nil] at *
        omega
      · obtain ⟨halone, huuid⟩ := hok.top hi hanswered
        refine ⟨fun identity => ?_, by rw [hshared]; exact h.held⟩
        have honce := h.once identity
        have hpool := htotal identity
        by_cases hid : chat.identity = identity
        · subst hid
          have hnever := not_created_of_getUser h huuid hnone
          have hnobody := total_creates_eq_zero halone
          have hzero := List.count_eq_zero.mpr hnever
          simp only [recordsOf, hshared, hnew, EnrichFrame.creates, decide_true,
            if_true, List.map_cons, List.map_nil, List.sum_cons, List.sum_nil] at *
          omega
        · simp only [recordsOf, hshared, hnew, EnrichFrame.creates, hid, decide_false,
            Bool.false_eq_true, if_false, List.map_cons, List.map_nil, List.sum_cons,
            List.sum_nil] at *
          omega
      · refine ⟨fun identity => ?_, ?_⟩
        · have honce := h.once identity
          have hpool := htotal identity
          by_cases hid : chat.identity = identity
          · simp only [recordsOf, hshared, hnew, EnrichFrame.creates, hid,
              decide_true, if_true, List.map_nil, List.sum_nil, List.count_append,
              List.count_singleton_self] at *
            omega
          · have hcount : List.count identity [chat.identity] = 0 := by
              simpa [List.count_eq_zero] using fun h => hid h.symm
            simp only [recordsOf, hshared, hnew, EnrichFrame.creates, hid,
              decide_false, Bool.false_eq_true, if_false, List.map_nil,
              List.sum_nil, List.count_append, hcount] at *
            omega
        · rw [hshared]
          intro identity hmem
          rcases List.mem_append.mp hmem with hold | hnow
          · obtain ⟨r, hr, hholds⟩ := h.held identity hold
            exact ⟨r, List.mem_append_left _ hr, hholds⟩
          · obtain rfl := List.mem_singleton.mp hnow
            exact ⟨_, List.mem_append_right _ (List.mem_singleton_self _),
              holds_channel chat.identity chat.newUsername⟩
  | world ev =>
      obtain ⟨r, hr, rfl⟩ := fire_world_cases hfire
      have hcall : ∃ chat, r = (s.shared, enrichCall chat) := by
        cases ev <;> exact ⟨_, (Option.some.inj hr).symm⟩
      obtain ⟨chat, rfl⟩ := hcall
      refine ⟨fun identity => ?_, h.held⟩
      have honce := h.once identity
      have hpool := total_fire_world
        (fun f : EnrichFrame => if f.creates identity then 1 else 0)
        (s := s) (r := (s.shared, enrichCall chat))
      have hstarts : (((enrichCall chat).flatten.map
          fun f => if f.creates identity then 1 else 0)).sum = 0 := by
        unfold enrichCall
        split <;> simp [EnrichFrame.creates]
      simp only [recordsOf] at *
      omega

end Runs

/-- **Main theorem.** In a run from any user database in which every lookup
comes when no other call is about to create its sender, and in which an
identifier that looks like a uuid is not looked up in vain after its record was
created, no sender is given two records. -/
theorem one_record_per_chatter
    (service : UserService) (db : UserDb) (s : EnrichPool)
    (hs : Reachable (enrichment service) (OnRun LooksUpAlone)
      { shared := { db := db }, threads := [] } s) :
    OneRecord s := by
  have h : OneRecordEach s := by
    refine hs.invariant ⟨fun identity => ?_, by simp⟩ OneRecordEach.fire
    simp [recordsOf, Pool.total, Pool.frames]
  intro identity
  exact le_trans (Nat.le_add_right _ _) (h.once identity)

/-- A user database that answers with the first user of the channel. -/
def channelService : UserService where
  findUser := findByChannel
  finds db platform channelId handle := by
    rintro ⟨r, hr, ch, hch, hplatform, hid⟩
    cases hfirst : db.users.find? fun r => r.2.channels.any fun ch =>
        ch.platform = platform && (ch.channelId = channelId || ch.handle = handle) with
    | none =>
        refine absurd (List.find?_eq_none.mp hfirst r hr) (not_not_intro ?_)
        exact List.any_eq_true.mpr ⟨ch, hch, by simpa [hplatform] using hid⟩
    | some first =>
        have hmem := List.mem_of_find?_eq_some hfirst
        simp only [findByChannel, hfirst, Option.map_some, Option.bind_some,
          UserDb.user?, Option.isSome_map, List.find?_isSome]
        exact ⟨first, hmem, by simp⟩

def bobOnTwitch : ChatUser := { identity := ⟨"twitch", "bob"⟩ }

/-- Two messages of one new sender, whose calls take turns as `turns` says. -/
def twoMessages (turns : List Nat) : List EnrichLabel :=
  [.world (.ingest bobOnTwitch), .world (.ingest bobOnTwitch)] ++
    turns.map fun i => .run i { uuid := alice }

theorem one_record_per_chatter_oneAfterTheOther :
    ∃ s, (enrichment channelService).exec { shared := {}, threads := [] }
        (twoMessages [0, 0, 1]) = some s ∧ OneRecord s := by
  refine ⟨_, rfl, ?_⟩
  exact one_record_per_chatter channelService {} _
    (reachable_of_allSteps (twoMessages [0, 0, 1]) .start (by decide) rfl)

/-- Both calls look the sender up before either creates a record. -/
theorem two_records_of_two_lookups :
    ¬ ∀ (service : UserService) (db : UserDb) (ls : List EnrichLabel) (s : EnrichPool),
      (enrichment service).exec { shared := { db := db }, threads := [] } ls = some s →
      OneRecord s := by
  intro h
  have hone := h channelService {} (twoMessages [0, 1, 0, 1]) _ rfl bobOnTwitch.identity
  exact absurd hone (by decide)

end CockatielEngine
