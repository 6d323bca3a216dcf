import CockatielEngine.Database.QueryTimeline

/-!
# Database: which filters of a `TimelineQuery` are kept

An id that cannot be read becomes no filter at all, and a kind or a prefix
becomes a pattern, in which some letters stand for others.

**Main result.**  Every row of a reply meets every filter of its query, whatever
the table holds, exactly when the query's id can be read and every letter of its
kind and of its prefix stands for itself alone.
-/

namespace CockatielEngine

section Filters

variable (fold : Char → Char) (uuid : UuidText)

/-- The key is the uuid that the text names; a text that names none can only be
the key itself. -/
def NamesKey (id : String) (key : SqlValue) : Prop :=
  match uuid.parseStr id with
  | some u => key = .blob u.1
  | none => key = .blob (uuid7StringToBytes id) ∨ key = .text id

instance (id : String) (key : SqlValue) : Decidable (NamesKey uuid id key) := by
  unfold NamesKey
  split <;> infer_instance

/-- The row satisfies every filter that the query supplies. -/
structure MeetsFilters (q : TimelineQuery) (row : TimelineRow) : Prop where
  id : q.timelineIdUuid7 ≠ "" → NamesKey uuid q.timelineIdUuid7 row.uuid7
  eventType : q.eventType ≠ 0 → row.eventType = q.eventType
  platform : q.platform ≠ "" → row.platform = some q.platform
  user : q.userUuid7 ≠ "" → row.userUuid7 = some q.userUuid7
  kind : q.kind ≠ "" → ∃ flags, row.flags = some flags ∧
    q.kind.toList <:+: flags.toList
  rawPrefix : q.rawPrefix ≠ "" → q.rawPrefix.toList <+: row.rawMessage.toList
  since : q.sinceMs ≠ 0 → ∃ persisted, row.persistedAt = some persisted ∧
    q.sinceMs ≤ persisted
  pipelineStatus : q.pipelineStatus ≠ "" → row.pipelineStatus = q.pipelineStatus

/-- The id can be read, and the letters of the texts that become patterns stand
for themselves. -/
structure FiltersRead (q : TimelineQuery) : Prop where
  id : q.timelineIdUuid7 = "" ∨ (uuid.parseStr q.timelineIdUuid7).isSome = true
  kind : ∀ c ∈ q.kind.toList, (sqlLike fold).Rigid c
  rawPrefix : ∀ c ∈ q.rawPrefix.toList, (sqlLike fold).Rigid c

/-- What each clause of the statement asks of a row. -/
structure MeetsClauses (q : TimelineQuery) (row : TimelineRow) : Prop where
  id : ∀ u, q.timelineIdUuid7 ≠ "" → uuid.parseStr q.timelineIdUuid7 = some u →
    row.uuid7 = .blob u.1
  eventType : q.eventType ≠ 0 → row.eventType = q.eventType
  platform : q.platform ≠ "" → row.platform = some q.platform
  user : q.userUuid7 ≠ "" → row.userUuid7 = some q.userUuid7
  kind : q.kind ≠ "" → ∃ flags, row.flags = some flags ∧
    (sqlLike fold).like ('%' :: (q.kind.toList ++ ['%'])) flags.toList = true
  rawPrefix : q.rawPrefix ≠ "" →
    (sqlLike fold).like (q.rawPrefix.toList ++ ['%']) row.rawMessage.toList = true
  since : q.sinceMs ≠ 0 → ∃ persisted, row.persistedAt = some persisted ∧
    q.sinceMs ≤ persisted
  pipelineStatus : q.pipelineStatus ≠ "" → row.pipelineStatus = q.pipelineStatus

end Filters

section Selection

variable {fold : Char → Char} {uuid : UuidText}
variable {q : TimelineQuery} {row : TimelineRow} {t : TimelineTable}

@[simp] theorem meets_nonEmpty_iff
    {s : String} {check : String → Bool} :
    meets (nonEmpty s) check = true ↔ (s ≠ "" → check s = true) := by
  by_cases hs : s = "" <;> simp [meets, nonEmpty, hs]

@[simp] theorem meets_nonZero_iff
    {n : Int} {check : Int → Bool} :
    meets (nonZero n) check = true ↔ (n ≠ 0 → check n = true) := by
  by_cases hn : n = 0 <;> simp [meets, nonZero, hn]

theorem meets_id_iff :
    meets (q.filter uuid).timelineIdUuid7 (fun id => row.uuid7 = .blob id) = true ↔
      ∀ u, q.timelineIdUuid7 ≠ "" → uuid.parseStr q.timelineIdUuid7 = some u →
        row.uuid7 = .blob u.1 := by
  by_cases hid : q.timelineIdUuid7 = ""
  · simp [meets, TimelineQuery.filter, hid]
  · cases hparse : uuid.parseStr q.timelineIdUuid7 with
    | none => simp [meets, TimelineQuery.filter, hid, hparse]
    | some u => simp [meets, TimelineQuery.filter, hid, hparse]

/-- The statement admits the rows that meet its clauses. -/
theorem admits_filter_iff :
    (q.filter uuid).admits fold row = true ↔ MeetsClauses fold uuid q row := by
  simp only [TimelineFilter.admits, Bool.and_eq_true, meets_id_iff]
  simp only [TimelineQuery.filter, meets_nonEmpty_iff, meets_nonZero_iff, likeColumn,
    Option.any_eq_true, decide_eq_true_eq, Option.some.injEq, exists_eq_left']
  constructor
  · rintro ⟨⟨⟨⟨⟨⟨⟨hid, het⟩, hp⟩, hu⟩, hk⟩, hraw⟩, hts⟩, hps⟩
    exact ⟨hid, het, hp, hu, hk, hraw, hts, hps⟩
  · rintro ⟨hid, het, hp, hu, hk, hraw, hts, hps⟩
    exact ⟨⟨⟨⟨⟨⟨⟨hid, het⟩, hp⟩, hu⟩, hk⟩, hraw⟩, hts⟩, hps⟩

/-- A row of a reply is a row of the table that meets the clauses. -/
theorem mem_repliedRows
    (h : row ∈ repliedRows fold uuid t q) :
    row ∈ t.rows ∧ MeetsClauses fold uuid q row := by
  have hsorted := List.mem_of_mem_drop (List.mem_of_mem_take h)
  rw [List.mem_insertionSort] at hsorted
  obtain ⟨hmem, hadmits⟩ := List.mem_filter.mp hsorted
  exact ⟨hmem, admits_filter_iff.mp hadmits⟩

/-- Enough rows reach behind the offset. -/
theorem exists_mem_take_drop
    {α : Type} {l : List α} {n k : Nat}
    (hn : n < l.length) (hk : 0 < k) :
    ∃ x, x ∈ (l.drop n).take k := by
  refine List.exists_mem_of_length_pos ?_
  rw [List.length_take, List.length_drop]
  omega

theorem limitRows_pos
    (f : TimelineFilter) :
    0 < f.limitRows := by
  unfold TimelineFilter.limitRows
  split
  · exact Nat.one_pos
  · split <;> omega

/-- A key that the id of the query admits: its own, or one that is no text of
it. -/
def sampleKey (uuid : UuidText) (q : TimelineQuery) (i : Nat) : SqlValue :=
  match (q.filter uuid).timelineIdUuid7 with
  | some b => .blob b
  | none =>
      .blob (List.replicate ((uuid7StringToBytes q.timelineIdUuid7).length + 1 + i) 0)

/-- Copies of a row under those keys, so many that one of them is behind the
offset. -/
def sampleTable (uuid : UuidText) (q : TimelineQuery) (row : TimelineRow) :
    TimelineTable where
  rows := (List.range ((q.filter uuid).offsetRows + 1)).map fun i =>
    { row with uuid7 := sampleKey uuid q i }
  unique := by
    refine List.Nodup.filter _ ?_
    rw [List.map_map]
    refine List.nodup_range.map_on fun i hi j hj h => ?_
    rw [List.mem_range] at hi hj
    cases hid : (q.filter uuid).timelineIdUuid7 with
    | some b =>
        have hoffset : (q.filter uuid).offsetRows = 0 := by
          simp [TimelineFilter.offsetRows, hid]
        omega
    | none =>
        simp only [Function.comp_apply, sampleKey, hid, SqlValue.blob.injEq] at h
        have hlen := congrArg List.length h
        simp only [List.length_replicate] at hlen
        omega

theorem sampleKey_of_parse
    {u : Uuid} {i : Nat}
    (hid : q.timelineIdUuid7 ≠ "")
    (hparse : uuid.parseStr q.timelineIdUuid7 = some u) :
    sampleKey uuid q i = .blob u.1 := by
  simp [sampleKey, TimelineQuery.filter, hid, hparse]

theorem not_namesKey_sampleKey
    {i : Nat}
    (hparse : uuid.parseStr q.timelineIdUuid7 = none) :
    ¬ NamesKey uuid q.timelineIdUuid7 (sampleKey uuid q i) := by
  have hkey : sampleKey uuid q i = .blob (List.replicate
      ((uuid7StringToBytes q.timelineIdUuid7).length + 1 + i) 0) := by
    simp [sampleKey, TimelineQuery.filter, hparse]
  rw [NamesKey, hparse, hkey]
  rintro (hblob | htext)
  · have hlen := congrArg List.length (SqlValue.blob.inj hblob)
    rw [List.length_replicate] at hlen
    omega
  · cases htext

/-- A row that meets the other clauses is replied under one of those keys. -/
theorem exists_reply
    (hrow : ∀ i, MeetsClauses fold uuid q { row with uuid7 := sampleKey uuid q i }) :
    ∃ i, { row with uuid7 := sampleKey uuid q i } ∈
      repliedRows fold uuid (sampleTable uuid q row) q := by
  have hall : (sampleTable uuid q row).rows.filter ((q.filter uuid).admits fold) =
      (sampleTable uuid q row).rows := by
    refine List.filter_eq_self.mpr fun r hr => ?_
    obtain ⟨i, _, rfl⟩ := List.mem_map.mp hr
    exact admits_filter_iff.mpr (hrow i)
  obtain ⟨r, hr⟩ : ∃ r, r ∈ repliedRows fold uuid (sampleTable uuid q row) q := by
    refine exists_mem_take_drop ?_ (limitRows_pos _)
    rw [List.length_insertionSort, hall]
    simp [sampleTable]
  obtain ⟨i, _, rfl⟩ := List.mem_map.mp (mem_repliedRows hr).1
  exact ⟨i, hr⟩

/-- A row with the values that the filters of a query ask for. -/
def sampleRow (q : TimelineQuery) (rawMessage flags : List Char) : TimelineRow where
  uuid7 := .null
  eventType := q.eventType
  platform := some q.platform
  rawMessage := String.ofList rawMessage
  flags := some (String.ofList flags)
  userUuid7 := some q.userUuid7
  persistedAt := some q.sinceMs
  pipelineStatus := q.pipelineStatus

theorem meetsClauses_sampleRow
    {rawMessage flags : List Char} {i : Nat}
    (hraw : (sqlLike fold).like (q.rawPrefix.toList ++ ['%']) rawMessage = true)
    (hflags : (sqlLike fold).like ('%' :: (q.kind.toList ++ ['%'])) flags = true) :
    MeetsClauses fold uuid q
      { sampleRow q rawMessage flags with uuid7 := sampleKey uuid q i } where
  id _ hid hparse := sampleKey_of_parse hid hparse
  eventType _ := rfl
  platform _ := rfl
  user _ := rfl
  kind _ := ⟨_, rfl, by rwa [String.toList_ofList]⟩
  rawPrefix _ := by
    change (sqlLike fold).like _ (String.ofList rawMessage).toList = true
    rwa [String.toList_ofList]
  since _ := ⟨_, rfl, le_rfl⟩
  pipelineStatus _ := rfl

/-- A text that is like its own patterns. -/
theorem like_own_start
    (s : String) :
    (sqlLike fold).like (s.toList ++ ['%']) s.toList = true :=
  LikeRules.like_append_many LikeRules.like_self

theorem like_own_text
    (s : String) :
    (sqlLike fold).like ('%' :: (s.toList ++ ['%'])) s.toList = true :=
  LikeRules.like_many_cons_iff.mpr ⟨s.toList, List.suffix_rfl, like_own_start s⟩

end Selection

section Kept

instance nontrivialChar : Nontrivial Char :=
  ⟨'a', 'b', by decide⟩

variable {fold : Char → Char} {uuid : UuidText} {q : TimelineQuery}
variable {row : TimelineRow}

/-- When the filters are read as they stand, the clauses are the filters. -/
theorem MeetsClauses.meetsFilters
    (h : MeetsClauses fold uuid q row)
    (hread : FiltersRead fold uuid q) :
    MeetsFilters uuid q row where
  id hid := by
    obtain ⟨u, hparse⟩ := Option.isSome_iff_exists.mp (hread.id.resolve_left hid)
    rw [NamesKey, hparse]
    exact h.id u hid hparse
  eventType := h.eventType
  platform := h.platform
  user := h.user
  kind hkind := by
    obtain ⟨flags, hflags, hlike⟩ := h.kind hkind
    exact ⟨flags, hflags, (LikeRules.like_infix_iff hread.kind).mp hlike⟩
  rawPrefix hraw := (LikeRules.like_prefix_iff hread.rawPrefix).mp (h.rawPrefix hraw)
  since := h.since
  pipelineStatus := h.pipelineStatus

/-- When every reply meets the filters, they are read as they stand. -/
theorem filtersRead_of_kept
    (h : ∀ t : TimelineTable, ∀ row ∈ repliedRows fold uuid t q,
      MeetsFilters uuid q row) :
    FiltersRead fold uuid q := by
  -- a row that the patterns let pass is replied under some key
  have hreply {rawMessage flags : List Char}
      (hraw : (sqlLike fold).like (q.rawPrefix.toList ++ ['%']) rawMessage = true)
      (hflags : (sqlLike fold).like ('%' :: (q.kind.toList ++ ['%'])) flags = true) :
      ∃ i, MeetsFilters uuid q
        { sampleRow q rawMessage flags with uuid7 := sampleKey uuid q i } := by
    obtain ⟨i, hi⟩ := exists_reply fun i => meetsClauses_sampleRow hraw hflags
    exact ⟨i, h _ _ hi⟩
  have hne {s : String} (hs : ¬ ∀ c ∈ s.toList, (sqlLike fold).Rigid c) : s ≠ "" := by
    rintro rfl
    exact hs (by simp)
  refine ⟨?_, ?_, ?_⟩
  · by_contra hid
    rw [not_or, Option.not_isSome_iff_eq_none] at hid
    obtain ⟨i, hmeets⟩ := hreply (like_own_start _) (like_own_text _)
    exact not_namesKey_sampleKey hid.2 (hmeets.id hid.1)
  · by_contra hkind
    obtain ⟨flags, hlike, hnot⟩ := LikeRules.exists_like_not_contains hkind
    obtain ⟨i, hmeets⟩ := hreply (like_own_start _) hlike
    obtain ⟨flags', hflags, hwithin⟩ := hmeets.kind (hne hkind)
    obtain rfl : String.ofList flags = flags' := Option.some.inj hflags
    rw [String.toList_ofList] at hwithin
    exact hnot hwithin
  · by_contra hraw
    obtain ⟨rawMessage, hlike, hnot⟩ := LikeRules.exists_like_not_startsWith hraw
    obtain ⟨i, hmeets⟩ := hreply hlike (like_own_text _)
    have hstarts := hmeets.rawPrefix (hne hraw)
    change _ <+: (String.ofList rawMessage).toList at hstarts
    rw [String.toList_ofList] at hstarts
    exact hnot hstarts

/-- **Main theorem.**  Whatever the table holds, every row of a reply meets every
filter of the query, exactly when the id can be read and the letters of the kind
and of the prefix stand for themselves alone. -/
theorem filters_kept_iff
    (fold : Char → Char) (uuid : UuidText) (q : TimelineQuery) :
    (∀ t : TimelineTable, ∀ row ∈ repliedRows fold uuid t q,
        MeetsFilters uuid q row) ↔
      FiltersRead fold uuid q :=
  ⟨filtersRead_of_kept, fun hread _ _ hrow =>
    (mem_repliedRows hrow).2.meetsFilters hread⟩

/-- An id that is no uuid. -/
def unreadableId : TimelineQuery where
  timelineIdUuid7 := "no-such-id"

/-- The engine's own row of a log line. -/
def logRow : TimelineRow where
  uuid7 := .blob (List.replicate 16 7)
  platform := some "engine"
  rawMessage := "started"

/-- It is answered with a row that it does not name. -/
theorem unreadableId_ignored :
    ¬ ∀ (fold : Char → Char) (uuid : UuidText) (q : TimelineQuery)
      (t : TimelineTable), ∀ row ∈ repliedRows fold uuid t q,
        MeetsFilters uuid q row := by
  intro h
  have hmeets := h id hyphenated unreadableId ⟨[logRow], by decide⟩ logRow (by decide)
  have hnames := hmeets.id (by decide)
  exact absurd hnames (by decide)

end Kept

end CockatielEngine
