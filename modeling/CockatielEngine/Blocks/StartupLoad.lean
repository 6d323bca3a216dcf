import CockatielEngine.Blocks.UserDb
import CockatielEngine.Concurrency.TaskPool

/-!
# Blocks: the startup load of the cache

`load_blocked_users` reads the user database page by page and installs what it
has collected in place of the whole cache.  Blocks and unblocks that complete
in between are in the cache it replaces, and not in what it has collected.

**Main result.**  Over a run of loads, blocks and unblocks in any interleaving,
the cache holds for each user the outcome of the latest of them, or else the
flag that the load read, from the end of the load on, exactly when the load
installs no flag that an operation has overtaken.
-/

namespace CockatielEngine

open TaskPool

/-- The size of a page. -/
def loadPage : Nat := 500

/-- The users of the database with their channels, in listing order. -/
def UserDb.roster (db : UserDb) : List (UserUuid × List ChannelRef) :=
  db.users.map fun r => (r.1, r.2.channels)

/-- The keys that the load collects from a page. -/
def pageKeys (page : List (UserUuid × User)) : List String :=
  page.flatMap fun r =>
    if r.2.blocked.isSome then
      r.1.val :: r.2.channels.flatMap ChannelRef.blockKeys
    else []

/-- What the load and the two queries share.  `read` and `latest` are ghosts:
the flag that the load read for a user, and the outcome of the last block or
unblock of a user to complete. -/
structure LoadState where
  db : UserDb
  cache : Finset String := ∅
  loading : Bool := false
  loaded : Bool := false
  read : UserUuid → Bool := fun _ => false
  latest : UserUuid → Option Bool := fun _ => none

/-- The load and the queries at their await points.

`listUsers` is about to be served by the user database and `collect` has its
page; `write` is about to be served and `mark` has the record that it answered
with. -/
inductive LoadFrame where
  | listUsers (offset : Nat) (keys : Finset String)
  | collect (offset : Nat) (page : List (UserUuid × User)) (keys : Finset String)
  | write (u : UserUuid) (flag : Option BlockFlag)
  | mark (u : UserUuid) (blocked : Bool) (channels : List ChannelRef)
deriving DecidableEq

/-- The world starts the load, until it has succeeded once, and starts blocks
and unblocks: a query sets the flag of a user or clears it. -/
inductive LoadEvent where
  | load
  | query (u : UserUuid) (flag : Option BlockFlag)
deriving DecidableEq

abbrev LoadPool := Pool LoadState LoadFrame
abbrev LoadLabel := Label Bool LoadEvent

namespace LoadFrame

/-- The user database serves a page. -/
def listUsersStep (e : LoadState) (offset : Nat) (keys : Finset String) :
    Outcome LoadState LoadFrame :=
  let page := (e.db.users.drop offset).take loadPage
  .thenRun
    { e with
      read := fun u =>
        match page.find? fun r => r.1 = u with
        | some r => r.2.blocked.isSome
        | none => e.read u }
    [.collect offset page keys]

/-- The load takes a page up; a short one is the last. -/
def collectStep (e : LoadState) (offset : Nat) (page : List (UserUuid × User))
    (keys : Finset String) : Outcome LoadState LoadFrame :=
  let keys := keys ∪ (pageKeys page).toFinset
  if page.length < loadPage then
    .thenRun { e with cache := keys, loading := false, loaded := true } []
  else .thenRun e [.listUsers (offset + loadPage) keys]

/-- The user database serves a block or an unblock. -/
def writeStep (e : LoadState) (u : UserUuid) (flag : Option BlockFlag) :
    Outcome LoadState LoadFrame :=
  let r :=
    match flag with
    | some f => e.db.blockUser u.val f.reason f.blockedBy
    | none => e.db.unblockUser u.val
  if r.2.success then
    .thenRun { e with db := r.1 }
      [.mark u flag.isSome ((r.2.user.map (·.channels)).getD [])]
  else .thenRun e []

/-- The query keeps the cache in step. -/
def markStep (e : LoadState) (u : UserUuid) (blocked : Bool)
    (channels : List ChannelRef) : Outcome LoadState LoadFrame :=
  .thenRun
    { e with
      cache :=
        if blocked then markUserBlocked e.cache u.val channels
        else markUserUnblocked e.cache u.val channels
      latest := Function.update e.latest u (some blocked) }
    []

/-- A request to the user database that fails ends its task. -/
def step (e : LoadState) (answered : Bool) :
    LoadFrame → Outcome LoadState LoadFrame
  | .listUsers offset keys =>
      if answered then listUsersStep e offset keys
      else .thenRun { e with loading := false } []
  | .collect offset page keys => collectStep e offset page keys
  | .write u flag =>
      if answered then writeStep e u flag else .thenRun e []
  | .mark u blocked channels => markStep e u blocked channels

/-- The frame is the load's. -/
def loads : LoadFrame → Nat
  | .listUsers _ _ => 1
  | .collect _ _ _ => 1
  | _ => 0

/-- The frame has yet to bring the cache in step for the user. -/
def marks (u : UserUuid) : LoadFrame → Bool
  | .mark v _ _ => v = u
  | _ => false

end LoadFrame

/-- The load and the queries as a program. -/
def startupLoad : Program LoadState LoadFrame Bool LoadEvent where
  step e f answered := some (f.step e answered)
  catches _ := false
  event e
    | .load =>
        if e.loaded || e.loading then none
        else some ({ e with loading := true }, [[.listUsers 0 ∅]])
    | .query u flag => some (e, [[.write u flag]])

section Defs

/-- The key is among those of the user and of no other user. -/
def Owns (roster : List (UserUuid × List ChannelRef)) (u : UserUuid)
    (key : String) : Prop :=
  (∃ channels, (u, channels) ∈ roster ∧ key ∈ blockKeys u.val channels) ∧
    ∀ v channels, (v, channels) ∈ roster → v ≠ u →
      key ∉ unblockKeys v.val channels

/-- No operation on the user has changed the database and not yet the cache. -/
def InStep (s : LoadPool) (u : UserUuid) : Prop :=
  ∀ f ∈ s.frames, f.marks u = false

instance (s : LoadPool) (u : UserUuid) : Decidable (InStep s u) :=
  inferInstanceAs (Decidable (∀ f ∈ s.frames, f.marks u = false))

/-- The state that the cache should hold for the user: the outcome of the
latest operation, or the flag that the load read. -/
def LoadState.expected (e : LoadState) (u : UserUuid) : Bool :=
  (e.latest u).getD (e.read u)

/-- Once the load has finished, the cache holds for each user the state it
should, under the uuid and under every alias that is the user's alone. -/
def KeepsBlocks (s : LoadPool) : Prop :=
  s.shared.loaded = true →
    ∀ u key, Owns s.shared.db.roster u key → InStep s u →
      (key ∈ s.shared.cache ↔ s.shared.expected u = true)

/-- The load installs no flag that an operation has overtaken: the latest block
or unblock to complete on a user had the outcome that the load has read. -/
def InstallsCurrent (s : LoadPool) (_ : Bool) : LoadFrame → Prop
  | .collect _ page _ =>
      page.length < loadPage →
        ∀ r ∈ s.shared.db.roster, InStep s r.1 →
          ∀ outcome ∈ s.shared.latest r.1, s.shared.read r.1 = outcome
  | _ => True

instance (s : LoadPool) (a : Bool) (f : LoadFrame) :
    Decidable (InstallsCurrent s a f) := by
  unfold InstallsCurrent
  split <;> infer_instance

/-- The keys are those of the users before the offset that were read blocked. -/
def Collected (roster : List (UserUuid × List ChannelRef)) (e : LoadState)
    (offset : Nat) (keys : Finset String) : Prop :=
  ∀ u key, Owns roster u key →
    (key ∈ keys ↔ u ∈ (roster.take offset).map (·.1) ∧ e.read u = true)

/-- The page starts at the offset and is as it was read. -/
def PageAt (roster : List (UserUuid × List ChannelRef)) (e : LoadState)
    (offset : Nat) (page : List (UserUuid × User)) : Prop :=
  page.map (fun r => (r.1, r.2.channels)) =
      (roster.drop offset).take loadPage ∧
    ∀ r ∈ page, e.read r.1 = r.2.blocked.isSome

/-- The assertion of a frame. -/
def LoadFrame.holds (roster : List (UserUuid × List ChannelRef))
    (e : LoadState) : LoadFrame → Prop
  | .listUsers offset keys => Collected roster e offset keys
  | .collect offset page keys =>
      Collected roster e offset keys ∧ PageAt roster e offset page
  | .write _ _ => True
  | .mark u _ channels => (u, channels) ∈ roster

/-- The invariant of a run: one load at a time, and every frame as it should
be. -/
structure LoadsOnce (roster : List (UserUuid × List ChannelRef))
    (s : LoadPool) : Prop where
  fixed : s.shared.db.roster = roster
  single : s.total LoadFrame.loads ≤ s.shared.loading.toNat
  once : s.shared.loaded = true → s.shared.loading = false
  frames : ∀ f ∈ s.frames, f.holds roster s.shared

end Defs

section Roster

variable {db : UserDb} {u v : UserUuid} {key : String}
variable {roster : List (UserUuid × List ChannelRef)}

/-- Only the flags change while the load runs. -/
theorem roster_update
    {f : User → User}
    (hchannels : ∀ user, (f user).channels = user.channels) :
    (db.update u f).roster = db.roster := by
  simp only [UserDb.roster, UserDb.update, List.map_map]
  refine List.map_congr_left fun r _ => ?_
  simp only [Function.comp_apply]
  split <;> simp [hchannels]

theorem mem_roster_of_user?
    {user : User}
    (huser : db.user? u = some user) :
    (u, user.channels) ∈ db.roster := by
  obtain ⟨r, hr, rfl⟩ := Option.map_eq_some_iff.mp huser
  have hu : r.1 = u := by simpa using List.find?_some hr
  exact List.mem_map.mpr ⟨r, List.mem_of_find?_eq_some hr, by rw [hu]⟩

theorem blockKeys_subset_unblockKeys
    {channels : List ChannelRef}
    (h : key ∈ blockKeys u.val channels) :
    key ∈ unblockKeys u.val channels := by
  unfold blockKeys at h
  split at h
  · cases h
  · rcases List.mem_cons.mp h with rfl | h
    · exact List.mem_cons_self
    · obtain ⟨ch, hch, hkey⟩ := List.mem_flatMap.mp h
      refine List.mem_cons_of_mem _ (List.mem_flatMap.mpr ⟨ch, hch, ?_⟩)
      simp only [ChannelRef.blockKeys, List.mem_append] at hkey
      rcases hkey with hkey | hkey <;> split at hkey <;>
        simp_all [ChannelRef.unblockKeys]

/-- A user's uuid is the user's alone. -/
theorem owns_uuid
    {channels : List ChannelRef}
    (hu : (u, channels) ∈ roster) :
    Owns roster u u.val := by
  refine ⟨⟨channels, hu, (u.mem_blockKeys_iff u).mpr rfl⟩, ?_⟩
  intro v channels' _ hne hmem
  exact hne ((u.mem_unblockKeys_iff v).mp hmem).symm

variable (hnodup : (roster.map (·.1)).Nodup)

include hnodup in
theorem roster_unique
    {channels channels' : List ChannelRef}
    (h : (u, channels) ∈ roster)
    (h' : (u, channels') ∈ roster) :
    channels = channels' := by
  have hinj := List.inj_on_of_nodup_map hnodup h h' rfl
  exact (Prod.mk.inj hinj).2

include hnodup in
/-- A key of one user alone is added by blocks of that user. -/
theorem Owns.mem_blockKeys_iff
    {channels : List ChannelRef}
    (h : Owns roster u key)
    (hv : (v, channels) ∈ roster) :
    key ∈ blockKeys v.val channels ↔ v = u := by
  constructor
  · intro hkey
    by_contra hne
    exact h.2 v channels hv hne (blockKeys_subset_unblockKeys hkey)
  · rintro rfl
    obtain ⟨channels', hmem, hkey⟩ := h.1
    rwa [roster_unique hnodup hv hmem]

include hnodup in
/-- A key of one user alone is removed by unblocks of that user. -/
theorem Owns.mem_unblockKeys_iff
    {channels : List ChannelRef}
    (h : Owns roster u key)
    (hv : (v, channels) ∈ roster) :
    key ∈ unblockKeys v.val channels ↔ v = u := by
  constructor
  · intro hkey
    by_contra hne
    exact h.2 v channels hv hne hkey
  · rintro rfl
    exact blockKeys_subset_unblockKeys ((h.mem_blockKeys_iff hnodup hv).mpr rfl)

theorem mem_pageKeys
    {page : List (UserUuid × User)} :
    key ∈ pageKeys page ↔
      ∃ r ∈ page, r.2.blocked.isSome = true ∧
        key ∈ blockKeys r.1.val r.2.channels := by
  simp only [pageKeys, List.mem_flatMap]
  refine exists_congr fun r => and_congr_right fun _ => ?_
  have hnonempty : trimmed r.1.val ≠ "" := by
    rw [r.1.canonical]
    exact r.1.nonempty
  rw [blockKeys, if_neg hnonempty]
  split <;> simp_all

end Roster

section Load

variable {roster : List (UserUuid × List ChannelRef)} {e e' : LoadState}
variable {offset : Nat} {keys : Finset String} {page : List (UserUuid × User)}

/-- What was collected depends on what was read, and on nothing else. -/
theorem Collected.congr
    (h : Collected roster e offset keys)
    (hread : ∀ u ∈ (roster.take offset).map (·.1), e'.read u = e.read u) :
    Collected roster e' offset keys := by
  intro u key hown
  rw [h u key hown]
  refine and_congr_right fun hu => ?_
  rw [hread u hu]

theorem map_fst_page
    (h : PageAt roster e offset page) :
    page.map (·.1) = ((roster.drop offset).take loadPage).map (·.1) := by
  rw [← h.1, List.map_map]
  rfl

/-- Taking a page up brings the keys to the next offset. -/
theorem Collected.nextPage
    (hnodup : (roster.map (·.1)).Nodup)
    (h : Collected roster e offset keys)
    (hpage : PageAt roster e offset page) :
    Collected roster e (offset + loadPage) (keys ∪ (pageKeys page).toFinset) := by
  intro u key hown
  have hmem : key ∈ pageKeys page ↔
      u ∈ ((roster.drop offset).take loadPage).map (·.1) ∧ e.read u = true := by
    have hlisted {r : UserUuid × User} (hr : r ∈ page) :
        (r.1, r.2.channels) ∈ roster := by
      have hslice : (r.1, r.2.channels) ∈ (roster.drop offset).take loadPage := by
        rw [← hpage.1]
        exact List.mem_map_of_mem (f := fun r => (r.1, r.2.channels)) hr
      exact List.mem_of_mem_drop (List.mem_of_mem_take hslice)
    rw [mem_pageKeys, ← map_fst_page hpage]
    constructor
    · rintro ⟨r, hr, hblocked, hkey⟩
      obtain rfl := (hown.mem_blockKeys_iff hnodup (hlisted hr)).mp hkey
      exact ⟨List.mem_map_of_mem hr, (hpage.2 r hr).trans hblocked⟩
    · rintro ⟨hu, hread⟩
      obtain ⟨r, hr, rfl⟩ := List.mem_map.mp hu
      exact ⟨r, hr, (hpage.2 r hr).symm.trans hread,
        (hown.mem_blockKeys_iff hnodup (hlisted hr)).mpr rfl⟩
  rw [Finset.mem_union, List.mem_toFinset, h u key hown, hmem, List.take_add,
    List.map_append, List.mem_append, or_and_right]

/-- After a short page the keys are those of all users read blocked. -/
theorem Collected.complete
    (hnodup : (roster.map (·.1)).Nodup)
    (h : Collected roster e offset keys)
    (hpage : PageAt roster e offset page)
    (hshort : page.length < loadPage)
    {u : UserUuid} {key : String}
    (hown : Owns roster u key) :
    key ∈ keys ∪ (pageKeys page).toFinset ↔ e.read u = true := by
  rw [h.nextPage hnodup hpage u key hown]
  have hall : roster.take (offset + loadPage) = roster := by
    have hlength := congrArg List.length hpage.1
    simp only [List.length_map, List.length_take, List.length_drop] at hlength
    exact List.take_of_length_le (by omega)
  rw [hall]
  obtain ⟨channels, hu, -⟩ := hown.1
  exact and_iff_right (List.mem_map_of_mem (f := (·.1)) hu)

end Load

section Steps

variable {roster : List (UserUuid × List ChannelRef)} {e : LoadState}
variable {f : LoadFrame} {answered : Bool} {u : UserUuid}

/-- Everything a write does. -/
theorem LoadFrame.writeStep_cases
    (e : LoadState) (u : UserUuid) (flag : Option BlockFlag) :
    writeStep e u flag = .thenRun e [] ∨
    ∃ db channels, db.roster = e.db.roster ∧ (u, channels) ∈ e.db.roster ∧
      writeStep e u flag =
        .thenRun { e with db := db } [.mark u flag.isSome channels] := by
  have hcases (f : User → User) (hchannels : ∀ user, (f user).channels = user.channels) :
      e.db.write u.val f = (e.db, ⟨false, none⟩) ∨
      ∃ db user, db.roster = e.db.roster ∧
        (u, (f user).channels) ∈ e.db.roster ∧
        e.db.write u.val f = (db, ⟨true, some (f user)⟩) := by
    rcases e.db.write_cases u.val f with ⟨-, hwrite⟩ | ⟨v, user, hval, huser, hwrite⟩
    · exact Or.inl hwrite
    · obtain rfl : v = u := UserUuid.eq_of_val hval
      refine Or.inr ⟨_, user, roster_update hchannels, ?_, hwrite⟩
      rw [hchannels]
      exact mem_roster_of_user? huser
  cases flag with
  | none =>
      rcases hcases (fun user => { user with blocked := none }) (fun _ => rfl) with
        hwrite | ⟨db, user, hroster, hmem, hwrite⟩
      · exact Or.inl (by simp [writeStep, UserDb.unblockUser, hwrite])
      · exact Or.inr ⟨db, _, hroster, hmem,
          by simp [writeStep, UserDb.unblockUser, hwrite]⟩
  | some flag =>
      rcases hcases
          (fun user => { user with blocked := some ⟨flag.reason, flag.blockedBy⟩ })
          (fun _ => rfl) with hwrite | ⟨db, user, hroster, hmem, hwrite⟩
      · exact Or.inl (by simp [writeStep, UserDb.blockUser, hwrite])
      · exact Or.inr ⟨db, _, hroster, hmem,
          by simp [writeStep, UserDb.blockUser, hwrite]⟩

/-- No step fails or starts a task. -/
theorem LoadFrame.step_quiet
    (f : LoadFrame) (e : LoadState) (answered : Bool) :
    ∃ e' fs, f.step e answered = .thenRun e' fs := by
  cases f with
  | listUsers offset keys =>
      cases answered <;> exact ⟨_, _, rfl⟩
  | collect offset page keys =>
      simp only [step, collectStep]
      split <;> exact ⟨_, _, rfl⟩
  | write u flag =>
      cases answered with
      | false => exact ⟨_, _, rfl⟩
      | true =>
          rcases writeStep_cases e u flag with h | ⟨db, channels, -, -, h⟩
          · exact ⟨_, _, h⟩
          · exact ⟨_, _, h⟩
  | mark u blocked channels => exact ⟨_, _, rfl⟩

/-- A page is read as the database has it, and what was read of the users
before it stays. -/
theorem LoadFrame.listUsers_reads
    (offset : Nat) (keys : Finset String)
    (hnodup : (roster.map (·.1)).Nodup)
    (hfixed : e.db.roster = roster) :
    PageAt roster (listUsersStep e offset keys).shared offset
        ((e.db.users.drop offset).take loadPage) ∧
      ∀ u ∈ (roster.take offset).map (·.1),
        (listUsersStep e offset keys).shared.read u = e.read u := by
  have husers : (e.db.users.map (·.1)).Nodup := by
    rw [← hfixed, UserDb.roster, List.map_map] at hnodup
    exact hnodup
  refine ⟨⟨?_, fun r hr => ?_⟩, fun u hu => ?_⟩
  · rw [← hfixed, UserDb.roster, List.map_take, List.map_drop]
  · have hsome : (((e.db.users.drop offset).take loadPage).find?
        fun r' => r'.1 = r.1).isSome := by
      rw [List.find?_isSome]
      exact ⟨r, hr, by simp⟩
    obtain ⟨r', hr'⟩ := Option.isSome_iff_exists.mp hsome
    have hkey : r'.1 = r.1 := by simpa using List.find?_some hr'
    have hlisted {x} (hx : x ∈ (e.db.users.drop offset).take loadPage) :
        x ∈ e.db.users :=
      List.mem_of_mem_drop (List.mem_of_mem_take hx)
    obtain rfl := List.inj_on_of_nodup_map husers
      (hlisted (List.mem_of_find?_eq_some hr')) (hlisted hr) hkey
    simp [listUsersStep, hr']
  · -- no user is on two pages
    have hnone : ((e.db.users.drop offset).take loadPage).find?
        (fun r => r.1 = u) = none := by
      rw [List.find?_eq_none]
      intro r hr hru
      have hbefore : u ∈ (e.db.users.map (·.1)).take offset := by
        rw [← hfixed, UserDb.roster, ← List.map_take, List.map_map] at hu
        rw [← List.map_take]
        exact hu
      have hafter : u ∈ (e.db.users.map (·.1)).drop offset := by
        rw [← List.map_drop]
        exact List.mem_map.mpr ⟨r, List.mem_of_mem_take hr, by simpa using hru⟩
      exact List.disjoint_take_drop husers (le_refl offset) hbefore hafter
    simp [listUsersStep, hnone]

/-- What a step of the load leaves behind is as it should be. -/
theorem LoadFrame.holds_new
    (answered : Bool)
    (hnodup : (roster.map (·.1)).Nodup)
    (hfixed : e.db.roster = roster)
    (hf : f.holds roster e) :
    (f.step e answered).shared.db.roster = roster ∧
      ∀ g ∈ (f.step e answered).new, g.holds roster (f.step e answered).shared := by
  cases f with
  | listUsers offset keys =>
      cases answered with
      | false => exact ⟨hfixed, by simp [step]⟩
      | true =>
          obtain ⟨hpage, hread⟩ :=
            listUsers_reads offset keys hnodup hfixed
          refine ⟨hfixed, ?_⟩
          intro g hg
          obtain rfl := List.mem_singleton.mp
            ((Outcome.new_thenRun (σ := LoadState) _ _) ▸ hg)
          exact ⟨hf.congr hread, hpage⟩
  | collect offset page keys =>
      simp only [step, collectStep]
      split
      · exact ⟨hfixed, by simp⟩
      · refine ⟨hfixed, ?_⟩
        simp only [Outcome.new_thenRun, Outcome.shared_thenRun,
          List.mem_singleton, forall_eq]
        exact hf.1.nextPage hnodup hf.2
  | write u flag =>
      cases answered with
      | false => exact ⟨hfixed, by simp [step]⟩
      | true =>
          simp only [step, if_true]
          rcases writeStep_cases e u flag with h | ⟨db, channels, hroster, hmem, h⟩
          · rw [h]
            exact ⟨hfixed, by simp⟩
          · rw [h]
            refine ⟨hroster.trans hfixed, ?_⟩
            simp only [Outcome.new_thenRun, List.mem_singleton, forall_eq]
            exact hfixed ▸ hmem
  | mark u blocked channels => exact ⟨hfixed, by simp [step, markStep]⟩

/-- The assertion of a frame depends on the flags read only in the load. -/
theorem LoadFrame.holds_congr
    {e' : LoadState}
    (hf : f.holds roster e)
    (hread : f.loads = 0 ∨ e'.read = e.read) :
    f.holds roster e' := by
  cases f with
  | listUsers offset keys =>
      obtain hread := hread.resolve_left (by simp [loads])
      exact Collected.congr hf fun u _ => by rw [hread]
  | collect offset page keys =>
      obtain hread := hread.resolve_left (by simp [loads])
      refine ⟨hf.1.congr fun u _ => by rw [hread], hf.2.1, fun r hr => ?_⟩
      rw [hread]
      exact hf.2.2 r hr
  | write u flag => trivial
  | mark u blocked channels => exact hf

/-- What a step does to the two flags of the load and to its frame. -/
theorem LoadFrame.step_loads
    (f : LoadFrame) (e : LoadState) (answered : Bool) :
    ((f.step e answered).new.map loads).sum + e.loading.toNat ≤
        f.loads + (f.step e answered).shared.loading.toNat ∧
      (f.loads = 0 → (f.step e answered).shared.read = e.read) ∧
      ((f.step e answered).shared.loaded = true →
        (f.step e answered).shared.loading = e.loading ∧ e.loaded = true ∨
          (f.step e answered).shared.loading = false) := by
  cases f with
  | listUsers offset keys =>
      cases answered with
      | false =>
          refine ⟨?_, fun h => absurd h (by simp [loads]), fun _ => Or.inr rfl⟩
          simpa [step, loads] using Bool.toNat_le e.loading
      | true =>
          refine ⟨?_, fun h => absurd h (by simp [loads]), fun h => Or.inl ⟨rfl, h⟩⟩
          simp [step, listUsersStep, loads]
  | collect offset page keys =>
      simp only [step, collectStep]
      split
      · refine ⟨?_, fun h => absurd h (by simp [loads]), fun _ => Or.inr rfl⟩
        simpa [loads] using Bool.toNat_le e.loading
      · refine ⟨?_, fun h => absurd h (by simp [loads]), fun h => Or.inl ⟨rfl, h⟩⟩
        simp [loads]
  | write u flag =>
      cases answered with
      | false => exact ⟨by simp [step, loads], fun _ => rfl, fun h => Or.inl ⟨rfl, h⟩⟩
      | true =>
          simp only [step, if_true]
          rcases writeStep_cases e u flag with h | ⟨db, channels, -, -, h⟩
          all_goals
            rw [h]
            exact ⟨by simp [loads], fun _ => rfl, fun h => Or.inl ⟨rfl, h⟩⟩
  | mark u blocked channels =>
      exact ⟨by simp [step, markStep, loads], fun _ => rfl, fun h => Or.inl ⟨rfl, h⟩⟩

end Steps

section Runs

variable {roster : List (UserUuid × List ChannelRef)}
variable {s : LoadPool} {i : Nat} {f : LoadFrame} {rest : List LoadFrame}
variable {answered : Bool}

/-- The pool after a step of the task. -/
def LoadPool.after (s : LoadPool) (i : Nat) (f : LoadFrame)
    (rest : List LoadFrame) (answered : Bool) : LoadPool :=
  { shared := (f.step s.shared answered).shared
    threads :=
      s.threads.set i
        (startupLoad.unwind (f.step s.shared answered).next rest) ++
        (f.step s.shared answered).spawned }

theorem LoadsOnce.run
    (answered : Bool)
    (hnodup : (roster.map (·.1)).Nodup)
    (h : LoadsOnce roster s)
    (hi : s.threads[i]? = some (f :: rest)) :
    LoadsOnce roster (LoadPool.after s i f rest answered) := by
  have hf : f ∈ s.frames := mem_frames_of_getElem? hi List.mem_cons_self
  obtain ⟨hweight, hread, hloaded⟩ := f.step_loads s.shared answered
  obtain ⟨hfixed, hnew⟩ :=
    LoadFrame.holds_new answered hnodup h.fixed (h.frames f hf)
  have hone : s.total LoadFrame.loads ≤ 1 :=
    h.single.trans (Bool.toNat_le s.shared.loading)
  refine ⟨hfixed, ?_, fun hl => ?_, fun g hg => ?_⟩
  · have htotal := total_fire_run_le (P := startupLoad) LoadFrame.loads
      (o := f.step s.shared answered) hi
    have hsingle := h.single
    simp only [LoadPool.after]
    omega
  · rcases hloaded hl with ⟨hsame, hbefore⟩ | hdone
    · exact hsame.trans (h.once hbefore)
    · exact hdone
  · rcases weight_after_run LoadFrame.loads hi hg with hg | ⟨hg, hbeside⟩
    · exact hnew g hg
    · refine LoadFrame.holds_congr (h.frames g hg) ?_
      rcases Nat.eq_zero_or_pos f.loads with hzero | hpos
      · exact Or.inr (hread hzero)
      · exact Or.inl (by omega)

theorem LoadsOnce.world
    {ev : LoadEvent} {r : LoadState × List (List LoadFrame)}
    (h : LoadsOnce roster s)
    (hr : startupLoad.event s.shared ev = some r) :
    LoadsOnce roster { shared := r.1, threads := s.threads ++ r.2 } := by
  cases ev with
  | load =>
      simp only [startupLoad] at hr
      split at hr
      · cases hr
      · rename_i hidle
        obtain rfl := Option.some.inj hr
        simp only [Bool.or_eq_true, not_or, Bool.not_eq_true] at hidle
        have hnone := h.single
        rw [hidle.2, Bool.toNat_false] at hnone
        refine ⟨h.fixed, ?_, fun hl => ?_, fun g hg => ?_⟩
        · rw [total_fire_world]
          simp [LoadFrame.loads]
          omega
        · exact absurd (hl.symm.trans hidle.1) (by decide)
        · rcases mem_frames_after_world hg with hg | hg
          · exact LoadFrame.holds_congr (h.frames g hg) (Or.inr rfl)
          · obtain rfl : g = .listUsers 0 ∅ := by simpa using hg
            intro u key _
            simp
  | query u flag =>
      obtain rfl := Option.some.inj hr
      refine ⟨h.fixed, ?_, h.once, fun g hg => ?_⟩
      · rw [total_fire_world]
        simpa [LoadFrame.loads] using h.single
      · rcases mem_frames_after_world hg with hg | hg
        · exact h.frames g hg
        · obtain rfl : g = .write u flag := by simpa using hg
          trivial

/-- A load that goes on has not finished. -/
theorem LoadsOnce.not_loaded
    (h : LoadsOnce roster s)
    (hf : f ∈ s.frames)
    (hload : f.loads = 1) :
    s.shared.loaded = false := by
  by_contra hl
  have hdone := h.once (by simpa using hl)
  have hle := le_total LoadFrame.loads hf
  have hsingle := h.single
  rw [hdone] at hsingle
  simp only [Bool.toNat_false] at hsingle
  omega

/-- What is in step after a step was in step before, unless the step is the
operation's own last one. -/
theorem InStep.before
    {u : UserUuid}
    (h : InStep (LoadPool.after s i f rest answered) u)
    (hi : s.threads[i]? = some (f :: rest))
    (hf : f.marks u = false) :
    InStep s u := by
  intro g hg
  by_cases hgf : g = f
  · exact hgf ▸ hf
  · obtain ⟨e', fs, hstep⟩ := f.step_quiet s.shared answered
    refine h g (mem_frames_of_ne hi ?_ hg hgf)
    simp [hstep, Outcome.thenRun]

/-- A step that finds no overtaken flag keeps every user's state. -/
theorem KeepsBlocks.run
    (hnodup : (roster.map (·.1)).Nodup)
    (h : LoadsOnce roster s)
    (hkeeps : KeepsBlocks s)
    (hok : InstallsCurrent s answered f)
    (hi : s.threads[i]? = some (f :: rest)) :
    KeepsBlocks (LoadPool.after s i f rest answered) := by
  have hf : f ∈ s.frames := mem_frames_of_getElem? hi List.mem_cons_self
  intro hloaded u key hown hinstep
  have hroster := (h.run answered hnodup hi).fixed
  rw [hroster] at hown
  have hbefore (hl : s.shared.loaded = true) (hmarks : f.marks u = false) :
      key ∈ s.shared.cache ↔ s.shared.expected u = true :=
    hkeeps hl u key (h.fixed ▸ hown) (hinstep.before hi hmarks)
  cases f with
  | listUsers offset keys =>
      have hnot := h.not_loaded hf rfl
      cases answered with
      | false => simp [LoadPool.after, LoadFrame.step, hnot] at hloaded
      | true =>
          simp [LoadPool.after, LoadFrame.step, LoadFrame.listUsersStep, hnot] at hloaded
  | collect offset page keys =>
      have hnot := h.not_loaded hf rfl
      by_cases hshort : page.length < loadPage
      · have hstep : LoadFrame.step s.shared answered (.collect offset page keys) =
            .thenRun
              { s.shared with
                cache := keys ∪ (pageKeys page).toFinset
                loading := false, loaded := true } [] := by
          simp [LoadFrame.step, LoadFrame.collectStep, hshort]
        obtain ⟨hkeys, hpage⟩ := h.frames _ hf
        simp only [LoadPool.after, hstep, Outcome.shared_thenRun]
        rw [hkeys.complete hnodup hpage hshort hown]
        obtain ⟨channels, hu, -⟩ := hown.1
        -- the flag read is the expected state, overtaken by nothing
        have hcurrent := hok hshort (u, channels) (h.fixed.symm ▸ hu)
          (hinstep.before hi rfl)
        simp only [LoadState.expected]
        cases hlatest : s.shared.latest u with
        | none => rfl
        | some outcome => rw [hcurrent outcome hlatest]; rfl
      · simp [LoadPool.after, LoadFrame.step, LoadFrame.collectStep, hshort, hnot]
          at hloaded
  | write v flag =>
      cases answered with
      | false => exact hbefore hloaded rfl
      | true =>
          have hstep : LoadFrame.step s.shared true (.write v flag) =
              LoadFrame.writeStep s.shared v flag := rfl
          rcases LoadFrame.writeStep_cases s.shared v flag with
            hw | ⟨db, channels, -, -, hw⟩
          all_goals
            simp only [LoadPool.after, hstep, hw, Outcome.shared_thenRun] at hloaded ⊢
            exact hbefore hloaded rfl
  | mark v blocked channels =>
      have hlisted : (v, channels) ∈ roster := h.frames _ hf
      have hblock := hown.mem_blockKeys_iff hnodup hlisted
      have hunblock := hown.mem_unblockKeys_iff hnodup hlisted
      simp only [LoadPool.after, LoadFrame.step, LoadFrame.markStep,
        Outcome.shared_thenRun, LoadState.expected]
      by_cases hu : v = u
      · subst hu
        cases blocked <;> simp [hblock, hunblock]
      · have hsame := hbefore hloaded (by simp [LoadFrame.marks, hu])
        simp only [LoadState.expected] at hsame
        rw [Function.update_of_ne (Ne.symm hu)]
        cases blocked <;> simp [hblock, hunblock, hu, hsame]

theorem KeepsBlocks.world
    {ev : LoadEvent} {r : LoadState × List (List LoadFrame)}
    (hkeeps : KeepsBlocks s)
    (hr : startupLoad.event s.shared ev = some r) :
    KeepsBlocks { shared := r.1, threads := s.threads ++ r.2 } := by
  have hinstep {u : UserUuid}
      (h : InStep { shared := r.1, threads := s.threads ++ r.2 } u) :
      InStep s u := fun g hg => by
    refine h g ?_
    simp only [Pool.frames, List.flatten_append]
    exact List.mem_append_left _ hg
  cases ev with
  | load =>
      simp only [startupLoad] at hr
      split at hr
      · cases hr
      · obtain rfl := Option.some.inj hr
        exact fun hl u key hown h => hkeeps hl u key hown (hinstep h)
  | query u flag =>
      obtain rfl := Option.some.inj hr
      exact fun hl u key hown h => hkeeps hl u key hown (hinstep h)

/-- A load that keeps every user's state has installed no overtaken flag. -/
theorem KeepsBlocks.installsCurrent
    (hnodup : (roster.map (·.1)).Nodup)
    (h : LoadsOnce roster s)
    (hi : s.threads[i]? = some (f :: rest))
    (hafter : KeepsBlocks (LoadPool.after s i f rest answered)) :
    InstallsCurrent s answered f := by
  have hf : f ∈ s.frames := mem_frames_of_getElem? hi List.mem_cons_self
  cases f with
  | collect offset page keys =>
      intro hshort r hr hinstep outcome hlatest
      have hstep : LoadFrame.step s.shared answered (.collect offset page keys) =
          .thenRun
            { s.shared with
              cache := keys ∪ (pageKeys page).toFinset
              loading := false, loaded := true } [] := by
        simp [LoadFrame.step, LoadFrame.collectStep, hshort]
      have hlisted : (r.1, r.2) ∈ roster := h.fixed ▸ hr
      have hown : Owns roster r.1 r.1.val := owns_uuid hlisted
      obtain ⟨hkeys, hpage⟩ := h.frames _ hf
      have hread := hkeys.complete hnodup hpage hshort hown
      have hkept := hafter
        (by simp [LoadPool.after, hstep]) r.1 r.1.val
        (by simpa [LoadPool.after, hstep, h.fixed] using hown)
        (fun g hg => by
          rcases mem_frames_after_run hi hg with hg | hg
          · simp [hstep] at hg
          · exact hinstep g hg)
      simp only [LoadPool.after, hstep, Outcome.shared_thenRun,
        LoadState.expected, Option.mem_def.mp hlatest, Option.getD_some] at hkept
      exact Bool.eq_iff_iff.mpr (hread.symm.trans hkept)
  | _ => trivial

end Runs

/-- **Main theorem.**  For every set of users, a run of loads, blocks and
unblocks keeps every user's cached state in each of its states exactly when no
load installs a flag that an operation has overtaken. -/
theorem blocks_kept_iff
    (db : UserDb)
    (hset : (db.users.map (·.1)).Nodup)
    (cache : Finset String) (ls : List LoadLabel)
    (hrun : (startupLoad.exec { shared := { db, cache }, threads := [] } ls).isSome) :
    AllStates startupLoad KeepsBlocks { shared := { db, cache }, threads := [] } ls ↔
      AllSteps startupLoad (OnRun InstallsCurrent)
        { shared := { db, cache }, threads := [] } ls := by
  have hnodup : (db.roster.map (·.1)).Nodup := by
    rw [UserDb.roster, List.map_map]
    exact hset
  refine allStates_iff_allSteps
    (I := fun s => LoadsOnce db.roster s ∧ KeepsBlocks s) (fun h => h.2) ?_ ?_ ?_ hrun
  · rintro s s' (⟨i, answered⟩ | ev) ⟨h, hkeeps⟩ hok hfire
    · obtain ⟨f, rest, o, hi, ho, rfl⟩ := fire_run_cases hfire
      obtain rfl := Option.some.inj ho
      exact ⟨h.run _ hnodup hi, hkeeps.run hnodup h (hok.top hi) hi⟩
    · obtain ⟨r, hr, rfl⟩ := fire_world_cases hfire
      exact ⟨h.world hr, hkeeps.world hr⟩
  · rintro s s' (⟨i, answered⟩ | ev) ⟨h, -⟩ hfire hafter
    · obtain ⟨f, rest, o, hi, ho, rfl⟩ := fire_run_cases hfire
      obtain rfl := Option.some.inj ho
      intro g hg
      obtain rfl : f = g := by simpa [Pool.top, hi] using hg
      exact KeepsBlocks.installsCurrent hnodup h hi hafter
    · trivial
  · refine ⟨⟨rfl, ?_, ?_, ?_⟩, ?_⟩
    · simp [Pool.total, Pool.frames]
    · intro _
      rfl
    · simp [Pool.frames]
    · intro hl
      cases hl

def bob : UserUuid := ⟨"u2", by decide, by decide, by decide⟩

/-- One user, who is not blocked. -/
def onlyBob : UserDb where
  users := [(bob, { username := "bob", channels := [⟨"kick", "b2", "bob"⟩] })]

def spamFlag : BlockFlag := ⟨"spam", ⟨"u1", "twitch", "alice"⟩⟩

/-- Bob is blocked after the load has finished. -/
def blockedAfterLoad : List LoadLabel :=
  [.world .load, .run 0 true, .run 0 true, .world (.query bob (some spamFlag)),
    .run 1 true, .run 1 true]

theorem blocks_kept_iff_blockedAfterLoad :
    AllStates startupLoad KeepsBlocks { shared := { db := onlyBob }, threads := [] }
      blockedAfterLoad :=
  (blocks_kept_iff onlyBob (by decide) ∅ blockedAfterLoad rfl).mpr (by decide)

/-- Bob is blocked after his page has been read and before the load takes it
up. -/
def blockedDuringLoad : List LoadLabel :=
  [.world .load, .run 0 true, .world (.query bob (some spamFlag)), .run 1 true,
    .run 1 true, .run 0 true]

/-- The load wipes the block of Bob out of the cache. -/
theorem block_lost_to_load :
    ¬ ∀ (db : UserDb) (cache : Finset String) (ls : List LoadLabel) (s : LoadPool),
      (db.users.map (·.1)).Nodup →
      startupLoad.exec { shared := { db, cache }, threads := [] } ls = some s →
      KeepsBlocks s := by
  intro h
  have hkept := h onlyBob ∅ blockedDuringLoad _ (by decide) rfl rfl bob "u2"
    (owns_uuid (by decide : (bob, [⟨"kick", "b2", "bob"⟩]) ∈ onlyBob.roster))
    (by decide)
  exact absurd (hkept.mpr rfl) (by decide)

end CockatielEngine
