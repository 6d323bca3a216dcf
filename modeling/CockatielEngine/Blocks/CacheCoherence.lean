import CockatielEngine.Blocks.UserDb
import CockatielEngine.Concurrency.TaskPool

/-!
# Blocks: the cache against the user database

Blocks and unblocks change both stores.  Channel edits and audit decisions on
block appeals change the user database alone.

**Main result.**  From coherent stores, the cache answers for every user as the
user's block flag says, after every sequence of requests, exactly when each
request leaves no identifier on the wrong side.
-/

namespace CockatielEngine

open TaskPool

section Defs

/-- The identifier is one of the user's: the uuid on any platform, and the ids
and handles of the channels on theirs. -/
def Identifies (u : UserUuid) (user : User) (platform identifier : String) :
    Prop :=
  trimmed identifier ≠ "" ∧
    (identifier = u.val ∨ ∃ ch ∈ user.channels, platform = ch.platform ∧
      (identifier = ch.channelId ∨ identifier = ch.handle))

/-- Module bans aside, the user's identifiers are blocked when the flag is
set. -/
def CachedAsFlagged (cache : Finset String) (u : UserUuid) (user : User) :
    Prop :=
  ∀ platform identifier, Identifies u user platform identifier →
    (isIdentifierBlocked cache [] platform identifier = true ↔
      user.blocked.isSome = true)

/-- The cache and the user database agree on every user. -/
def Coherent (s : BlockStores) : Prop :=
  ∀ u user, s.db.user? u = some user → CachedAsFlagged s.cache u user

/-- A request to the engine, or a write of the pipeline to the timeline. -/
inductive BlockRequest where
  | block (payload : BlockPayload)
  | unblock (payload : BlockPayload)
  | addChannel (uuid7 : String) (channel : Option ChannelRef)
  | removeChannel (uuid7 platform channelId : String)
  | splitChannel (payload : SplitPayload) (u : UserUuid)
  | auditAction (uuid7 : String) (approve : Bool) (now : Nat)
  | promptDecided (uuid7 reason : String) (approve : Bool) (now : Nat)
  | pipelineWrites (timeline : Timeline)

variable (findUser : FindUser)

/-- The stores after a request; a refused request leaves them alone. -/
def BlockStores.handle (s : BlockStores) : BlockRequest → BlockStores
  | .block payload => (s.userdbBlock findUser payload).toOption.getD s
  | .unblock payload => (s.userdbUnblock findUser payload).toOption.getD s
  | .addChannel uuid7 channel => s.userdbAddChannel uuid7 channel
  | .removeChannel uuid7 platform channelId =>
      s.userdbRemoveChannel uuid7 platform channelId
  | .splitChannel payload u => (s.userdbSplitChannel payload u).toOption.getD s
  | .auditAction uuid7 approve now =>
      (s.auditAction uuid7 approve now).toOption.getD s
  | .promptDecided uuid7 reason approve now =>
      s.decideAudit uuid7 reason approve now
  | .pipelineWrites timeline => { s with timeline := timeline }

/-- The requests as a program without tasks.  The uuid of a new account was not
given out before. -/
def blocks : Program BlockStores Empty Unit BlockRequest where
  step _ f _ := nomatch f
  catches f := nomatch f
  event s r :=
    match r with
    | .splitChannel _ u =>
        if s.db.user? u = none then some (s.handle findUser r, []) else none
    | _ => some (s.handle findUser r, [])

/-- A block of the user: each identifier of the user is blocked already or is
answered for by a key the block adds, and none of these keys answers for a user
who is not blocked. -/
def BlocksCleanly (s : BlockStores) (u : UserUuid) (user : User) : Prop :=
  (∀ platform identifier, Identifies u user platform identifier →
    isIdentifierBlocked s.cache [] platform identifier = true ∨
      ∃ key ∈ blockKeys u.val user.channels,
        KeyAnswers key platform identifier) ∧
  ∀ v other, v ≠ u → s.db.user? v = some other → other.blocked = none →
    ∀ platform identifier, Identifies v other platform identifier →
      ∀ key ∈ blockKeys u.val user.channels,
        ¬ KeyAnswers key platform identifier

/-- An unblock of the user: what answers for the user is removed, and what
answers for another blocked user stays. -/
def UnblocksCleanly (s : BlockStores) (u : UserUuid) (user : User) : Prop :=
  (∀ platform identifier, Identifies u user platform identifier →
    ∀ key ∈ s.cache, KeyAnswers key platform identifier →
      key ∈ unblockKeys u.val user.channels) ∧
  ∀ v other, v ≠ u → s.db.user? v = some other → other.blocked.isSome = true →
    ∀ platform identifier, Identifies v other platform identifier →
      ∃ key ∈ s.cache, KeyAnswers key platform identifier ∧
        key ∉ unblockKeys u.val user.channels

/-- An approved appeal is of a user who is not blocked. -/
def ApprovesIdly (s : BlockStores) (uuid7 reason : String) (approve : Bool) :
    Prop :=
  approve = true → isBlockAppealReason reason = true →
    ∀ u user, u.val = s.timeline.appealUser uuid7 → s.db.user? u = some user →
      user.blocked = none

/-- The requests that leave no identifier on the wrong side.

Blocks and unblocks are clean; a channel goes to a user whose flag says what
the cache says of the channel; a channel that is split off is not in the cache;
and an approved appeal is of a user who is not blocked. -/
def KeepsCoherent (s : BlockStores) : BlockRequest → Prop
  | .block payload =>
      ∀ target actor,
        resolveBlockActorAndTarget findUser s.db "userdb_block" payload =
          .ok (target, actor) →
        ∀ u user, u.val = target → s.db.user? u = some user →
          BlocksCleanly s u user
  | .unblock payload =>
      ∀ target actor,
        resolveBlockActorAndTarget findUser s.db "userdb_unblock" payload =
          .ok (target, actor) →
        ∀ u user, u.val = target → s.db.user? u = some user →
          UnblocksCleanly s u user
  | .addChannel uuid7 channel =>
      ∀ u user, u.val = uuid7 → s.db.user? u = some user →
        ∀ ch ∈ channel, ∀ identifier, trimmed identifier ≠ "" →
          identifier = ch.channelId ∨ identifier = ch.handle →
          (isIdentifierBlocked s.cache [] ch.platform identifier = true ↔
            user.blocked.isSome = true)
  | .removeChannel _ _ _ => True
  | .splitChannel payload u =>
      ∀ uuid7 channel, parseSplitChannelPayload payload = .ok (uuid7, channel) →
        ∀ owner user, owner.val = uuid7 → s.db.user? owner = some user →
        ∀ platform identifier,
          Identifies u { username := "", channels := [channel] } platform
            identifier →
          isIdentifierBlocked s.cache [] platform identifier = false
  | .auditAction uuid7 approve _ =>
      uuid7 ≠ "" → ApprovesIdly s uuid7 (s.timeline.auditReason uuid7) approve
  | .promptDecided uuid7 reason approve _ => ApprovesIdly s uuid7 reason approve
  | .pipelineWrites _ => True

end Defs

section Users

variable {s : BlockStores} {cache : Finset String} {u : UserUuid} {user : User}

/-- The user's uuid is an identifier of the user on every platform. -/
theorem identifies_uuid
    (u : UserUuid) (user : User) (platform : String) :
    Identifies u user platform u.val := by
  refine ⟨?_, Or.inl rfl⟩
  rw [u.canonical]
  exact u.nonempty

theorem cachedAsFlagged_iff :
    CachedAsFlagged cache u user ↔
      ∀ platform identifier, Identifies u user platform identifier →
        ((∃ key ∈ cache, KeyAnswers key platform identifier) ↔
          user.blocked.isSome = true) := by
  refine forall₃_congr fun platform identifier hid => ?_
  rw [isIdentifierBlocked_iff hid.1]

/-- Coherence asks for less of a user with fewer channels. -/
theorem CachedAsFlagged.mono
    {user' : User}
    (h : CachedAsFlagged cache u user)
    (hblocked : user'.blocked = user.blocked)
    (hchannels : ∀ ch ∈ user'.channels, ch ∈ user.channels) :
    CachedAsFlagged cache u user' := by
  intro platform identifier hid
  rw [hblocked]
  refine h platform identifier ⟨hid.1, hid.2.imp_right ?_⟩
  rintro ⟨ch, hch, hrest⟩
  exact ⟨ch, hchannels ch hch, hrest⟩

/-- Coherence after the record of one user and the cache have changed. -/
theorem coherent_update_iff
    {f : User → User} {timeline : Timeline}
    (huser : s.db.user? u = some user) :
    Coherent { db := s.db.update u f, cache := cache, timeline := timeline } ↔
      CachedAsFlagged cache u (f user) ∧
        ∀ v other, v ≠ u → s.db.user? v = some other →
          CachedAsFlagged cache v other := by
  constructor
  · intro h
    refine ⟨h u (f user) (by simp [huser]), fun v other hv hother => ?_⟩
    exact h v other (by simp [hv, hother])
  · rintro ⟨hself, hothers⟩ v other hother
    simp only [UserDb.user?_update] at hother
    by_cases hv : v = u
    · subst hv
      rw [if_pos rfl, huser] at hother
      obtain rfl := Option.some.inj hother
      exact hself
    · rw [if_neg hv] at hother
      exact hothers v other hv hother

end Users

section Requests

variable {s : BlockStores} {u : UserUuid} {user : User} {timeline : Timeline}

/-- Blocking a user keeps the stores coherent exactly when it is clean. -/
theorem Coherent.block_iff
    (h : Coherent s)
    (huser : s.db.user? u = some user)
    (flag : BlockFlag) :
    Coherent
        { db := s.db.update u fun r => { r with blocked := some flag }
          cache := markUserBlocked s.cache u.val user.channels
          timeline := timeline } ↔
      BlocksCleanly s u user := by
  rw [coherent_update_iff huser]
  constructor
  · rintro ⟨hself, hothers⟩
    constructor
    · intro platform identifier hid
      obtain ⟨key, hkey, hanswers⟩ :=
        (cachedAsFlagged_iff.mp hself platform identifier hid).mpr rfl
      rcases mem_markUserBlocked.mp hkey with hkey | hkey
      · exact Or.inl ((isIdentifierBlocked_iff hid.1).mpr ⟨key, hkey, hanswers⟩)
      · exact Or.inr ⟨key, hkey, hanswers⟩
    · intro v other hv hother hunblocked platform identifier hid key hkey hanswers
      have hhit := (cachedAsFlagged_iff.mp (hothers v other hv hother)
        platform identifier hid).mp
        ⟨key, mem_markUserBlocked.mpr (Or.inr hkey), hanswers⟩
      simp [hunblocked] at hhit
  · rintro ⟨hself, hothers⟩
    constructor
    · refine cachedAsFlagged_iff.mpr fun platform identifier hid => ?_
      refine ⟨fun _ => rfl, fun _ => ?_⟩
      rcases hself platform identifier hid with hhit | ⟨key, hkey, hanswers⟩
      · obtain ⟨key, hkey, hanswers⟩ := (isIdentifierBlocked_iff hid.1).mp hhit
        exact ⟨key, mem_markUserBlocked.mpr (Or.inl hkey), hanswers⟩
      · exact ⟨key, mem_markUserBlocked.mpr (Or.inr hkey), hanswers⟩
    · intro v other hv hother
      refine cachedAsFlagged_iff.mpr fun platform identifier hid => ?_
      have hbefore :=
        cachedAsFlagged_iff.mp (h v other hother) platform identifier hid
      constructor
      · rintro ⟨key, hkey, hanswers⟩
        rcases mem_markUserBlocked.mp hkey with hkey | hkey
        · exact hbefore.mp ⟨key, hkey, hanswers⟩
        · by_contra hunblocked
          exact hothers v other hv hother (by simpa using hunblocked) platform
            identifier hid key hkey hanswers
      · intro hblocked
        obtain ⟨key, hkey, hanswers⟩ := hbefore.mpr hblocked
        exact ⟨key, mem_markUserBlocked.mpr (Or.inl hkey), hanswers⟩

/-- Unblocking a user keeps the stores coherent exactly when it is clean. -/
theorem Coherent.unblock_iff
    (h : Coherent s)
    (huser : s.db.user? u = some user) :
    Coherent
        { db := s.db.update u fun r => { r with blocked := none }
          cache := markUserUnblocked s.cache u.val user.channels
          timeline := timeline } ↔
      UnblocksCleanly s u user := by
  rw [coherent_update_iff huser]
  constructor
  · rintro ⟨hself, hothers⟩
    constructor
    · intro platform identifier hid key hkey hanswers
      by_contra hstays
      have hhit := (cachedAsFlagged_iff.mp hself platform identifier hid).mp
        ⟨key, mem_markUserUnblocked.mpr ⟨hkey, hstays⟩, hanswers⟩
      simp at hhit
    · intro v other hv hother hblocked platform identifier hid
      obtain ⟨key, hkey, hanswers⟩ :=
        (cachedAsFlagged_iff.mp (hothers v other hv hother) platform identifier
          hid).mpr hblocked
      obtain ⟨hkey, hstays⟩ := mem_markUserUnblocked.mp hkey
      exact ⟨key, hkey, hanswers, hstays⟩
  · rintro ⟨hself, hothers⟩
    constructor
    · refine cachedAsFlagged_iff.mpr fun platform identifier hid => ?_
      constructor
      · rintro ⟨key, hkey, hanswers⟩
        obtain ⟨hkey, hstays⟩ := mem_markUserUnblocked.mp hkey
        exact absurd (hself platform identifier hid key hkey hanswers) hstays
      · intro hblocked
        cases hblocked
    · intro v other hv hother
      refine cachedAsFlagged_iff.mpr fun platform identifier hid => ?_
      constructor
      · rintro ⟨key, hkey, hanswers⟩
        exact (cachedAsFlagged_iff.mp (h v other hother) platform identifier
          hid).mp ⟨key, (mem_markUserUnblocked.mp hkey).1, hanswers⟩
      · intro hblocked
        obtain ⟨key, hkey, hanswers, hstays⟩ :=
          hothers v other hv hother hblocked platform identifier hid
        exact ⟨key, mem_markUserUnblocked.mpr ⟨hkey, hstays⟩, hanswers⟩

/-- Unblocking a user in the database alone keeps the stores coherent exactly
when the user is not blocked. -/
theorem Coherent.unblock_db_iff
    (h : Coherent s)
    (huser : s.db.user? u = some user) :
    Coherent
        { db := s.db.update u fun r => { r with blocked := none }
          cache := s.cache
          timeline := timeline } ↔
      user.blocked = none := by
  rw [coherent_update_iff huser]
  have hbefore := h u user huser "" u.val (identifies_uuid u user "")
  constructor
  · rintro ⟨hself, -⟩
    have hafter := hself "" u.val (identifies_uuid u _ "")
    simpa using hbefore.symm.trans hafter
  · intro hunblocked
    refine ⟨(h u user huser).mono hunblocked.symm fun ch hch => hch, ?_⟩
    exact fun v other _ hother => h v other hother

/-- Adding a channel keeps the stores coherent exactly when the cache says of
the channel what the flag says of the user. -/
theorem Coherent.addChannel_iff
    {channel : Option ChannelRef}
    (h : Coherent s)
    (huser : s.db.user? u = some user) :
    Coherent
        { db := s.db.update u fun r =>
            { r with channels := r.channels ++ channel.toList }
          cache := s.cache
          timeline := timeline } ↔
      ∀ ch ∈ channel, ∀ identifier, trimmed identifier ≠ "" →
        identifier = ch.channelId ∨ identifier = ch.handle →
        (isIdentifierBlocked s.cache [] ch.platform identifier = true ↔
          user.blocked.isSome = true) := by
  rw [coherent_update_iff huser]
  constructor
  · rintro ⟨hself, -⟩ ch hch identifier hid hnames
    refine hself ch.platform identifier ⟨hid, Or.inr ⟨ch, ?_, rfl, hnames⟩⟩
    exact List.mem_append_right _ (Option.mem_toList.mpr hch)
  · intro hnew
    refine ⟨?_, fun v other _ hother => h v other hother⟩
    rintro platform identifier ⟨hid, hval | ⟨ch, hch, rfl, hnames⟩⟩
    · exact h u user huser platform identifier ⟨hid, Or.inl hval⟩
    · rcases List.mem_append.mp hch with hch | hch
      · exact h u user huser _ identifier ⟨hid, Or.inr ⟨ch, hch, rfl, hnames⟩⟩
      · exact hnew ch (Option.mem_toList.mp hch) identifier hid hnames

/-- Removing a channel keeps the stores coherent. -/
theorem Coherent.removeChannel
    (h : Coherent s)
    (timeline : Timeline) (keep : ChannelRef → Bool)
    (huser : s.db.user? u = some user) :
    Coherent
      { db := s.db.update u fun r => { r with channels := r.channels.filter keep }
        cache := s.cache
        timeline := timeline } := by
  refine (coherent_update_iff huser).mpr ⟨?_, fun v other _ hother => h v other hother⟩
  exact (h u user huser).mono rfl fun ch hch => (List.mem_filter.mp hch).1

/-- A new account keeps the stores coherent exactly when the cache does not
know it. -/
theorem Coherent.addUser_iff
    (username : String) (channel : ChannelRef)
    (h : Coherent s)
    (hnew : s.db.user? u = none) :
    Coherent { s with db := s.db.addUser u username (some channel) } ↔
      ∀ platform identifier,
        Identifies u { username := "", channels := [channel] } platform
          identifier →
        isIdentifierBlocked s.cache [] platform identifier = false := by
  have hlookup (v : UserUuid) := UserDb.user?_addUser (v := v) username
    (some channel) hnew
  constructor
  · intro hafter platform identifier hid
    have hself := hafter u { username, channels := [channel] }
      (by simp [hlookup]) platform identifier hid
    simpa using hself
  · intro hunknown v other hother
    rw [hlookup] at hother
    by_cases hv : v = u
    · subst hv
      rw [if_pos rfl] at hother
      obtain rfl := Option.some.inj hother
      intro platform identifier hid
      simp [hunknown platform identifier hid]
    · rw [if_neg hv] at hother
      exact h v other hother

/-- A request that writes one record keeps the stores coherent exactly when the
write of the record that it finds does. -/
theorem Coherent.write_iff
    {f : User → User} {P : UserUuid → User → Prop}
    (h : Coherent s)
    (uuid7 : String) (cache : UserDbResponse → Finset String)
    (timeline : Timeline)
    (hrefused : cache ⟨false, none⟩ = s.cache)
    (hwritten : ∀ u user, u.val = uuid7 → s.db.user? u = some user →
      (Coherent
          { db := s.db.update u f
            cache := cache ⟨true, some (f user)⟩
            timeline := timeline } ↔
        P u user)) :
    Coherent
        { db := (s.db.write uuid7 f).1
          cache := cache (s.db.write uuid7 f).2
          timeline := timeline } ↔
      ∀ u user, u.val = uuid7 → s.db.user? u = some user → P u user := by
  rcases s.db.write_cases uuid7 f with
    ⟨hnone, hwrite⟩ | ⟨u, user, hval, huser, hwrite⟩
  · rw [hwrite, hrefused]
    refine ⟨fun _ u user hu huser => ?_, fun _ => h⟩
    simp [hnone u hu] at huser
  · rw [hwrite, hwritten u user hval huser]
    refine ⟨fun hP v other hv hother => ?_, fun hall => hall u user hval huser⟩
    obtain rfl : u = v := UserUuid.eq_of_val (hval.trans hv.symm)
    obtain rfl := Option.some.inj (huser.symm.trans hother)
    exact hP

/-- An audit decision keeps the stores coherent exactly when it approves the
appeal of no blocked user. -/
theorem Coherent.decideAudit_iff
    {uuid7 reason : String} {approve : Bool} {now : Nat}
    (h : Coherent s) :
    Coherent (s.decideAudit uuid7 reason approve now) ↔
      ApprovesIdly s uuid7 reason approve := by
  have hreleased : Coherent
      { s with timeline := s.timeline.releaseAudit uuid7 approve now } := h
  unfold BlockStores.decideAudit BlockStores.resolveBlockAppeal ApprovesIdly
  cases happeal : isBlockAppealReason reason with
  | false => simpa using hreleased
  | true =>
      cases approve with
      | false => simpa using hreleased
      | true =>
          by_cases hnamed : s.timeline.appealUser uuid7 = ""
          · refine ⟨fun _ _ _ u user hu => ?_, fun _ => ?_⟩
            · exact absurd (hu.trans hnamed) u.nonempty
            · simpa [hnamed] using hreleased
          · have hwrite := h.write_iff (s.timeline.appealUser uuid7)
              (fun _ => s.cache) (s.timeline.releaseAudit uuid7 true now) rfl
              fun u user _ huser => h.unblock_db_iff huser
            simpa [hnamed, UserDb.unblockUser] using hwrite

/-- Splitting a channel off keeps the stores coherent exactly when the cache
does not know the new account. -/
theorem Coherent.splitChannel_iff
    {payload : SplitPayload}
    (h : Coherent s)
    (hnew : s.db.user? u = none) :
    Coherent ((s.userdbSplitChannel payload u).toOption.getD s) ↔
      ∀ uuid7 channel, parseSplitChannelPayload payload = .ok (uuid7, channel) →
        ∀ owner user, owner.val = uuid7 → s.db.user? owner = some user →
        ∀ platform identifier,
          Identifies u { username := "", channels := [channel] } platform
            identifier →
          isIdentifierBlocked s.cache [] platform identifier = false := by
  unfold BlockStores.userdbSplitChannel
  cases hparse : parseSplitChannelPayload payload with
  | error e => simpa [Except.toOption] using h
  | ok r =>
      obtain ⟨uuid7, channel⟩ := r
      have hremove := s.db.write_cases uuid7 fun user =>
        { user with
          channels := user.channels.filter
            (·.isNot channel.platform channel.channelId) }
      change (_ ∧ s.db.removeChannel uuid7 channel.platform channel.channelId = _) ∨
        (∃ owner user, _ ∧ _ ∧
          s.db.removeChannel uuid7 channel.platform channel.channelId = _) at hremove
      rcases hremove with ⟨hnone, hremove⟩ | ⟨owner, user, hval, huser, hremove⟩
      · simp only [hremove, Bool.false_eq_true, if_false, Except.toOption,
          Option.getD_none]
        refine ⟨fun _ uuid7' channel' hok owner user hval huser => ?_, fun _ => h⟩
        obtain ⟨rfl, rfl⟩ := Prod.mk.inj (Except.ok.inj hok)
        simp [hnone owner hval] at huser
      · simp only [hremove, if_true, Except.toOption, Option.getD_some]
        have hfresh : (s.db.update owner fun user =>
            { user with
              channels := user.channels.filter
                (·.isNot channel.platform channel.channelId) }).user? u = none := by
          simp [hnew]
        have hadded := (h.removeChannel s.timeline
          (·.isNot channel.platform channel.channelId) huser).addUser_iff
            (if channel.handle = "" then channel.channelId else channel.handle)
            channel hfresh
        refine hadded.trans ⟨fun hall uuid7' channel' hok _ _ _ _ => ?_, fun hall => ?_⟩
        · obtain ⟨rfl, rfl⟩ := Prod.mk.inj (Except.ok.inj hok)
          exact hall
        · exact hall uuid7 channel rfl owner user hval huser

/-- A request keeps the stores coherent exactly when it leaves no identifier on
the wrong side. -/
theorem Coherent.handle_iff
    (findUser : FindUser)
    {r : BlockRequest}
    (h : Coherent s)
    (hnew : ∀ payload u, r = .splitChannel payload u → s.db.user? u = none) :
    Coherent (s.handle findUser r) ↔ KeepsCoherent findUser s r := by
  cases r with
  | block payload =>
      simp only [BlockStores.handle, BlockStores.userdbBlock, KeepsCoherent]
      cases hresolve :
          resolveBlockActorAndTarget findUser s.db "userdb_block" payload with
      | error e => simpa [Except.toOption] using h
      | ok r =>
          obtain ⟨target, actor⟩ := r
          have hwrite := h.write_iff target
            (fun r =>
              if r.success then
                markUserBlocked s.cache target ((r.user.map (·.channels)).getD [])
              else s.cache) s.timeline rfl
            (f := fun user => { user with blocked := some ⟨payload.reason, actor⟩ })
            (by
              rintro u user rfl huser
              exact h.block_iff huser _)
          simp only [Except.toOption, Option.getD_some, Except.ok.injEq,
            Prod.mk.injEq, and_imp]
          refine hwrite.trans ⟨fun hall target' actor' ht _ => ?_, fun hall => ?_⟩
          · exact ht ▸ hall
          · exact hall target actor rfl rfl
  | unblock payload =>
      simp only [BlockStores.handle, BlockStores.userdbUnblock, KeepsCoherent]
      cases hresolve :
          resolveBlockActorAndTarget findUser s.db "userdb_unblock" payload with
      | error e => simpa [Except.toOption] using h
      | ok r =>
          obtain ⟨target, actor⟩ := r
          have hwrite := h.write_iff target
            (fun r =>
              if r.success then
                markUserUnblocked s.cache target
                  ((r.user.map (·.channels)).getD [])
              else s.cache) s.timeline rfl
            (f := fun user => { user with blocked := none })
            (by
              rintro u user rfl huser
              exact h.unblock_iff huser)
          simp only [Except.toOption, Option.getD_some, Except.ok.injEq,
            Prod.mk.injEq, and_imp]
          refine hwrite.trans ⟨fun hall target' actor' ht _ => ?_, fun hall => ?_⟩
          · exact ht ▸ hall
          · exact hall target actor rfl rfl
  | addChannel uuid7 channel =>
      exact h.write_iff uuid7 (fun _ => s.cache) s.timeline rfl
        fun u user _ huser => h.addChannel_iff huser
  | removeChannel uuid7 platform channelId =>
      have hwrite := h.write_iff uuid7 (fun _ => s.cache) s.timeline
        (f := fun r =>
          { r with channels := r.channels.filter (·.isNot platform channelId) })
        (P := fun _ _ => True) rfl
        fun u user _ huser => iff_of_true (h.removeChannel _ _ huser) trivial
      exact ⟨fun _ => trivial, fun _ => hwrite.mpr fun _ _ _ _ => trivial⟩
  | splitChannel payload u => exact h.splitChannel_iff (hnew payload u rfl)
  | auditAction uuid7 approve now =>
      simp only [BlockStores.handle, BlockStores.auditAction, KeepsCoherent]
      by_cases hnamed : uuid7 = ""
      · simpa [hnamed, Except.toOption] using h
      · simpa [hnamed, Except.toOption] using h.decideAudit_iff
  | promptDecided uuid7 reason approve now => exact h.decideAudit_iff
  | pipelineWrites timeline => exact ⟨fun _ => trivial, fun _ => h⟩

/-- Ids without white space around them are found under the keys of a block. -/
theorem blocksCleanly_of_plain
    (hplain : ∀ ch ∈ user.channels,
      trimmed ch.channelId = ch.channelId ∧ trimmed ch.handle = ch.handle)
    (hothers : ∀ v other, v ≠ u → s.db.user? v = some other →
      other.blocked.isSome = true) :
    BlocksCleanly s u user := by
  have hnonempty : trimmed u.val ≠ "" := by
    rw [u.canonical]
    exact u.nonempty
  constructor
  · rintro platform identifier ⟨hid, rfl | ⟨ch, hch, rfl, hnames⟩⟩
    · refine Or.inr ⟨u.val, ?_, Or.inl u.canonical.symm⟩
      simp [blockKeys, hnonempty]
    · obtain ⟨hchannelId, hhandle⟩ := hplain ch hch
      have hsame : trimmed identifier = identifier := by
        rcases hnames with rfl | rfl
        · exact hchannelId
        · exact hhandle
      refine Or.inr ⟨blockedAliasKey ch.platform identifier, ?_,
        Or.inr (by rw [hsame])⟩
      rw [blockKeys, if_neg hnonempty]
      refine List.mem_cons_of_mem _ (List.mem_flatMap.mpr ⟨ch, hch, ?_⟩)
      rcases hnames with rfl | rfl <;> simp [ChannelRef.blockKeys, hid]
  · intro v other hv hother hunblocked
    have hblocked := hothers v other hv hother
    simp [hunblocked] at hblocked

/-- Everything a request does as an event. -/
theorem blocks_event_cases
    {findUser : FindUser} {r : BlockRequest}
    {result : BlockStores × List (List Empty)}
    (h : (blocks findUser).event s r = some result) :
    result = (s.handle findUser r, []) ∧
      ∀ payload u, r = .splitChannel payload u → s.db.user? u = none := by
  cases r with
  | splitChannel payload u =>
      simp only [blocks] at h
      split at h
      · rename_i hnew
        refine ⟨(Option.some.inj h).symm, ?_⟩
        rintro _ _ ⟨⟩
        exact hnew
      · cases h
  | _ => exact ⟨(Option.some.inj h).symm, by rintro _ _ ⟨⟩⟩

/-- An empty cache is coherent while no user is blocked. -/
theorem coherent_of_unblocked
    (hcache : s.cache = ∅)
    (hnone : ∀ u user, s.db.user? u = some user → user.blocked = none) :
    Coherent s := by
  intro u user huser
  refine cachedAsFlagged_iff.mpr fun platform identifier _ => ?_
  simp [hcache, hnone u user huser]

end Requests

/-- The condition on the requests of a run. -/
def CleanRequests (findUser : FindUser) (s : Pool BlockStores Empty) :
    Label Unit BlockRequest → Prop
  | .world r => KeepsCoherent findUser s.shared r
  | .run _ _ => True

/-- **Main theorem.**  From coherent stores, the cache and the user database
agree on every user in each state of a run, module bans aside, exactly when
every request of the run leaves no identifier on the wrong side. -/
theorem cache_coherent_iff
    (findUser : FindUser) (s₀ : BlockStores)
    (h₀ : Coherent s₀)
    (ls : List (Label Unit BlockRequest))
    (hrun : ((blocks findUser).exec { shared := s₀, threads := [] } ls).isSome) :
    AllStates (blocks findUser) (fun s => Coherent s.shared)
        { shared := s₀, threads := [] } ls ↔
      AllSteps (blocks findUser) (CleanRequests findUser)
        { shared := s₀, threads := [] } ls := by
  refine allStates_iff_allSteps (I := fun s => Coherent s.shared) id ?_ ?_ h₀ hrun
  · rintro s s' (⟨i, a⟩ | r) h hok hfire
    · obtain ⟨f, -⟩ := fire_run_cases hfire
      exact f.elim
    · obtain ⟨result, hevent, rfl⟩ := fire_world_cases hfire
      obtain ⟨rfl, hnew⟩ := blocks_event_cases hevent
      exact (h.handle_iff findUser hnew).mpr hok
  · rintro s s' (⟨i, a⟩ | r) h hfire hafter
    · trivial
    · obtain ⟨result, hevent, rfl⟩ := fire_world_cases hfire
      obtain ⟨rfl, hnew⟩ := blocks_event_cases hevent
      exact (h.handle_iff findUser hnew).mp hafter

section Runs

/-- A database that finds a user by the id or the handle of a channel. -/
def findByChannel : FindUser := fun db platform channelId handle =>
  (db.users.find? fun r => r.2.channels.any fun ch =>
    ch.platform = platform && (ch.channelId = channelId || ch.handle = handle)).map
    (·.1)

def alice : UserUuid := ⟨"u1", by decide, by decide, by decide⟩

/-- Alice is a moderator with a channel; her block appeal is held. -/
def aliceAppeals : BlockStores where
  db := { users := [(alice,
    { username := "alice", channels := [⟨"twitch", "a1", "alice"⟩]
      isModerator := true })] }
  timeline := { rows := [("m1",
    { eventType := 1, platform := "twitch", rawMessage := "!appeal", command := ""
      flags := some "block appeal a1", userUuid7 := some "u1"
      pipelineStatus := .audit })] }

def asAlice (uuid7 : String) : BlockPayload where
  actor := some ⟨"u1", "twitch", "alice"⟩
  uuid7 := uuid7

theorem user?_aliceAppeals
    {s : BlockStores} {user : User} {v : UserUuid} {other : User}
    (hdb : s.db = { users := [(alice, user)] })
    (hother : s.db.user? v = some other) :
    v = alice ∧ other = user := by
  rw [hdb] at hother
  simp only [UserDb.user?, List.find?_cons, List.find?_nil] at hother
  split at hother
  · rename_i hv
    exact ⟨(of_decide_eq_true hv).symm, (Option.some.inj hother).symm⟩
  · cases hother

theorem coherent_aliceAppeals : Coherent aliceAppeals := by
  refine coherent_of_unblocked rfl fun u user huser => ?_
  rw [(user?_aliceAppeals rfl huser).2]

/-- Alice is blocked and unblocked. -/
def blockedAndUnblocked : List (Label Unit BlockRequest) :=
  [.world (.block (asAlice "u1")), .world (.unblock (asAlice "u1"))]

theorem cache_coherent_iff_blockedAndUnblocked :
    AllStates (blocks findByChannel) (fun s => Coherent s.shared)
      { shared := aliceAppeals, threads := [] } blockedAndUnblocked := by
  refine (cache_coherent_iff findByChannel aliceAppeals coherent_aliceAppeals
    blockedAndUnblocked rfl).mpr ⟨?_, ?_⟩
  · intro target actor hresolve u user hu huser
    obtain ⟨rfl, rfl⟩ := user?_aliceAppeals rfl huser
    refine blocksCleanly_of_plain (by decide) fun v other hv hother => ?_
    exact absurd (user?_aliceAppeals rfl hother).1 hv
  · intro s hs
    obtain rfl := Option.some.inj hs
    refine ⟨?_, fun _ _ => trivial⟩
    intro target actor hresolve u user hu huser
    obtain ⟨rfl, rfl⟩ := user?_aliceAppeals rfl huser
    constructor
    · exact fun _ _ _ key hkey _ => (by decide :
        ∀ key ∈ markUserBlocked ∅ "u1" [⟨"twitch", "a1", "alice"⟩],
          key ∈ unblockKeys "u1" [⟨"twitch", "a1", "alice"⟩]) key hkey
    · intro v other hv hother
      exact absurd (user?_aliceAppeals rfl hother).1 hv

/-- Alice is blocked, and her appeal is approved. -/
def blockedAndForgiven : List (Label Unit BlockRequest) :=
  [.world (.block (asAlice "u1")), .world (.auditAction "m1" true 0)]

/-- The approved appeal clears Alice's flag and leaves her in the cache. -/
theorem cached_after_appeal :
    ¬ ∀ (findUser : FindUser) (s₀ : BlockStores)
        (ls : List (Label Unit BlockRequest)) (s : Pool BlockStores Empty),
      Coherent s₀ →
      (blocks findUser).exec { shared := s₀, threads := [] } ls = some s →
      Coherent s.shared := by
  intro h
  have hcoherent := h findByChannel aliceAppeals blockedAndForgiven _
    coherent_aliceAppeals rfl
  have hsame := hcoherent alice
    { username := "alice", channels := [⟨"twitch", "a1", "alice"⟩]
      isModerator := true } rfl "twitch" "u1" (identifies_uuid alice _ "twitch")
  exact absurd hsame (by decide)

end Runs

end CockatielEngine
