import CockatielEngine.Database.Timeline

/-!
# Database: how the keys of the timeline are stored

The key column of `timeline_events` holds whatever was bound to the insert: the
pipeline binds a uuid as bytes, older writers bound it as text, and a byte key
never equals a text key.  `StoredTimeline` is the table under its stored keys;
`StoredTimeline.timeline` is what the pipeline's statements, which all bind
bytes, can reach of it.

**Main result.**  Once the text keys have been rewritten, the keys read back for
recovery are exactly those under which the byte lookup finds a queued row, each
of them once.
-/

namespace CockatielEngine

/-- `uuid7_string_to_bytes`. -/
def uuid7StringToBytes (s : String) : Bytes :=
  s.toByteArray.data.toList

section Lossy

/-- `U+FFFD`, which stands for what is not UTF-8. -/
def replacementCharacter : Char :=
  Char.ofNat 0xFFFD

/-- A sequence that has begun: how many bytes it still needs, between which
bounds the next of them lies, and the bits read so far. -/
structure Utf8Pending where
  owed : Nat
  lo : UInt8
  hi : UInt8
  bits : Nat

/-- What a byte at the start of a sequence yields. -/
def beginUtf8 (b : UInt8) : List Char × Option Utf8Pending :=
  let lead (owed : Nat) (lo hi : UInt8) (mask : Nat) :=
    (([] : List Char), some { owed, lo, hi, bits := b.toNat % mask })
  if b < 0x80 then ([Char.ofNat b.toNat], none)
  else if b < 0xC2 then ([replacementCharacter], none)
  else if b < 0xE0 then lead 1 0x80 0xBF 0x20
  else if b = 0xE0 then lead 2 0xA0 0xBF 0x10
  else if b = 0xED then lead 2 0x80 0x9F 0x10
  else if b < 0xF0 then lead 2 0x80 0xBF 0x10
  else if b = 0xF0 then lead 3 0x90 0xBF 0x08
  else if b < 0xF4 then lead 3 0x80 0xBF 0x08
  else if b = 0xF4 then lead 3 0x80 0x8F 0x08
  else ([replacementCharacter], none)

/-- The text of bytes that need not be UTF-8: each longest beginning of a
sequence that breaks off is replaced by one character. -/
def repairUtf8 : Option Utf8Pending → Bytes → List Char
  | none, [] => []
  | some _, [] => [replacementCharacter]
  | none, b :: bs => (beginUtf8 b).1 ++ repairUtf8 (beginUtf8 b).2 bs
  | some p, b :: bs =>
      if p.lo ≤ b ∧ b ≤ p.hi then
        let bits := p.bits * 0x40 + b.toNat % 0x40
        if p.owed = 1 then Char.ofNat bits :: repairUtf8 none bs
        else repairUtf8 (some { owed := p.owed - 1, lo := 0x80, hi := 0xBF, bits })
          bs
      else
        replacementCharacter ::
          ((beginUtf8 b).1 ++ repairUtf8 (beginUtf8 b).2 bs)

/-- `String::from_utf8_lossy`. -/
def fromUtf8Lossy (b : Bytes) : String :=
  match String.fromUTF8? ⟨b.toArray⟩ with
  | some s => s
  | none => String.ofList (repairUtf8 none b)

/-- The bytes are those of the string. -/
theorem fromUTF8?_eq_some_iff
    (b : Bytes) (s : String) :
    String.fromUTF8? ⟨b.toArray⟩ = some s ↔ b = uuid7StringToBytes s := by
  constructor
  · intro h
    unfold String.fromUTF8? at h
    split at h
    · cases h
      rfl
    · cases h
  · rintro rfl
    have hbytes : (⟨(uuid7StringToBytes s).toArray⟩ : ByteArray) =
        s.toByteArray := by
      simp [uuid7StringToBytes]
    rw [hbytes]
    simp [String.fromUTF8?, s.isValidUTF8, String.fromUTF8]

@[simp] theorem fromUtf8Lossy_uuid7StringToBytes
    (s : String) :
    fromUtf8Lossy (uuid7StringToBytes s) = s := by
  simp [fromUtf8Lossy, (fromUTF8?_eq_some_iff _ s).mpr rfl]

theorem uuid7StringToBytes_injective :
    Function.Injective uuid7StringToBytes := by
  intro s t h
  rw [← fromUtf8Lossy_uuid7StringToBytes s, h, fromUtf8Lossy_uuid7StringToBytes]

@[simp] theorem uuid7StringToBytes_inj
    (s t : String) :
    uuid7StringToBytes s = uuid7StringToBytes t ↔ s = t :=
  uuid7StringToBytes_injective.eq_iff

end Lossy

/-- A stored key, with its storage class. -/
inductive SqlValue where
  | null
  | integer (n : Int)
  | text (s : String)
  | blob (bytes : Bytes)
deriving DecidableEq, Repr

namespace SqlValue

/-- The order of the storage classes. -/
def rank : SqlValue → Nat
  | .null => 0
  | .integer _ => 1
  | .text _ => 2
  | .blob _ => 3

/-- `ORDER BY … ASC`: by storage class, then by value. -/
def le : SqlValue → SqlValue → Bool
  | .integer m, .integer n => decide (m ≤ n)
  | .text s, .text t => decide (uuid7StringToBytes s ≤ uuid7StringToBytes t)
  | .blob b, .blob c => decide (b ≤ c)
  | x, y => decide (x.rank ≤ y.rank)

/-- The uuid that a stored key is read back as. -/
def uuid7? : SqlValue → Option String
  | .text s => some s
  | .blob b => some (fromUtf8Lossy b)
  | _ => none

/-- A text key as the bytes of its text. -/
def asBlob : SqlValue → SqlValue
  | .text s => .blob (uuid7StringToBytes s)
  | v => v

end SqlValue

/-- The table `timeline_events` with its keys as they are stored. -/
structure StoredTimeline where
  rows : List (SqlValue × Row)
  unique : (rows.map (·.1)).Nodup

namespace StoredTimeline

section Statements

/-- `SELECT … WHERE uuid7 = ?`, the key compared with its storage class. -/
def row? (t : StoredTimeline) (key : SqlValue) : Option Row :=
  (t.rows.find? fun r => r.1 = key).map (·.2)

/-- `UPDATE timeline_events SET … WHERE uuid7 = ?`, bound as bytes. -/
def update (t : StoredTimeline) (key : Bytes) (f : Row → Row) :
    StoredTimeline where
  rows := t.rows.map fun r => if r.1 = .blob key then (r.1, f r.2) else r
  unique := by
    have hkeys : (fun r : SqlValue × Row =>
          (if r.1 = .blob key then (r.1, f r.2) else r).1) = (·.1) := by
      funext r
      split <;> rfl
    simpa [Function.comp_def, hkeys] using t.unique

/-- Load a queued row's content by its key, if it is still `queued`. -/
def loadQueuedMessage (t : StoredTimeline) (uuid7 : Bytes) :
    Option QueuedMessage :=
  (t.row? (.blob uuid7)).bind fun r =>
    if r.pipelineStatus = .queued then
      some { eventType := r.eventType
             platform := r.platform
             rawMessage := r.rawMessage
             command := r.command
             flags := r.flags.getD ""
             userUuid7 := r.userUuid7.getD "" }
    else none

/-- Every uuid whose row is `queued`; a key of another storage class is
skipped. -/
def getQueuedUuids (t : StoredTimeline) : List String :=
  (((t.rows.filter fun r => r.2.pipelineStatus = .queued).map
    (·.1)).insertionSort fun k l => k.le l = true).filterMap SqlValue.uuid7?

/-- The uuids of the rows stored as text. -/
def textUuids (t : StoredTimeline) : List String :=
  t.rows.filterMap fun r =>
    match r.1 with
    | .text u => some u
    | _ => none

/-- The text key `u` with its bytes in its place. -/
def rekey (u : String) (k : SqlValue) : SqlValue :=
  if k = .text u then .blob (uuid7StringToBytes u) else k

theorem rekey_injOn
    {u : String} {keys : List SqlValue}
    (hfree : SqlValue.blob (uuid7StringToBytes u) ∉ keys) :
    ∀ k ∈ keys, ∀ l ∈ keys, rekey u k = rekey u l → k = l := by
  intro k hk l hl h
  unfold rekey at h
  split at h <;> split at h
  · rename_i hku hlu
    rw [hku, hlu]
  · exact absurd (h ▸ hl) hfree
  · exact absurd (h ▸ hk) hfree
  · exact h

/-- Rewrite one text key as bytes; a row that has those bytes for its key
already violates the primary key. -/
def normalizeKey (t : StoredTimeline) (u : String) : Option StoredTimeline :=
  if hfree : SqlValue.blob (uuid7StringToBytes u) ∉ t.rows.map (·.1) then
    some {
      rows := t.rows.map fun r => (rekey u r.1, r.2)
      unique := by
        have hmap := List.Nodup.map_on
          (fun k hk l hl => rekey_injOn hfree k hk l hl) t.unique
        simpa [Function.comp_def] using hmap }
  else none

/-- The rows normalized and the table after it; `none` when a rewrite fails. -/
def normalizeUuidStorage (t : StoredTimeline) :
    Option (Nat × StoredTimeline) :=
  (t.textUuids.foldlM normalizeKey t).map fun t' => (t.textUuids.length, t')

/-- What statements that bind bytes reach of the table. -/
def timeline (t : StoredTimeline) : Timeline where
  rows := t.rows.filterMap fun r =>
    match r.1 with
    | .blob b => (String.fromUTF8? ⟨b.toArray⟩).map fun u => (u, r.2)
    | _ => none

/-- The keys of the queued rows are uuid strings, as bytes or as text. -/
def UuidKeyed (t : StoredTimeline) : Prop :=
  ∀ r ∈ t.rows, r.2.pipelineStatus = .queued →
    ∃ u, r.1 = .text u ∨ r.1 = .blob (uuid7StringToBytes u)

/-- The key is a uuid string. -/
def isUuidKey : SqlValue → Bool
  | .text _ => true
  | .blob b => (String.fromUTF8? ⟨b.toArray⟩).isSome
  | _ => false

theorem isUuidKey_iff (k : SqlValue) :
    isUuidKey k = true ↔
      ∃ u, k = .text u ∨ k = .blob (uuid7StringToBytes u) := by
  cases k with
  | blob b => simp [isUuidKey, Option.isSome_iff_exists, fromUTF8?_eq_some_iff]
  | _ => simp [isUuidKey]

instance (t : StoredTimeline) : Decidable t.UuidKeyed :=
  decidable_of_iff
    (∀ r ∈ t.rows, r.2.pipelineStatus = .queued → isUuidKey r.1 = true)
    (forall₂_congr fun _ _ => imp_congr_right fun _ => isUuidKey_iff _)

end Statements

section Reach

variable {t : StoredTimeline}

/-- The key a uuid is bound as. -/
abbrev blobKey (u : String) : SqlValue :=
  .blob (uuid7StringToBytes u)

/-- The reachable rows, one stored row at a time. -/
def reach (r : SqlValue × Row) : Option (String × Row) :=
  match r.1 with
  | .blob b => (String.fromUTF8? ⟨b.toArray⟩).map fun u => (u, r.2)
  | _ => none

theorem reach_eq_some_iff
    (r : SqlValue × Row) (u : String) (row : Row) :
    reach r = some (u, row) ↔ r = (blobKey u, row) := by
  obtain ⟨key, row'⟩ := r
  cases key with
  | blob b =>
      simp only [reach, Option.map_eq_some_iff, fromUTF8?_eq_some_iff,
        Prod.mk.injEq, SqlValue.blob.injEq]
      constructor
      · rintro ⟨v, rfl, rfl, rfl⟩
        exact ⟨rfl, rfl⟩
      · rintro ⟨rfl, rfl⟩
        exact ⟨u, rfl, rfl, rfl⟩
  | _ => simp [reach]

theorem rows_timeline (t : StoredTimeline) :
    t.timeline.rows = t.rows.filterMap reach :=
  rfl

theorem mem_rows_timeline_iff
    (u : String) (r : Row) :
    (u, r) ∈ t.timeline.rows ↔ (blobKey u, r) ∈ t.rows := by
  rw [rows_timeline, List.mem_filterMap]
  constructor
  · rintro ⟨x, hx, hreach⟩
    rwa [(reach_eq_some_iff x u r).mp hreach] at hx
  · intro h
    exact ⟨_, h, (reach_eq_some_iff _ u r).mpr rfl⟩

/-- A lookup by uuid is the lookup of its bytes. -/
theorem row?_timeline
    (t : StoredTimeline) (u : String) :
    t.timeline.row? u = t.row? (blobKey u) := by
  simp only [Timeline.row?, row?, rows_timeline]
  generalize t.rows = rows
  induction rows with
  | nil => rfl
  | cons x rest ih =>
      by_cases hx : x.1 = blobKey u
      · have hreach : reach x = some (u, x.2) :=
          (reach_eq_some_iff x u x.2).mpr (Prod.ext hx rfl)
        simp [hreach, hx]
      · rw [List.find?_cons_of_neg (by simpa using hx), ← ih]
        cases hreach : reach x with
        | none => simp [hreach]
        | some y =>
            have hne : y.1 ≠ u := by
              rintro rfl
              exact hx (congrArg (·.1) ((reach_eq_some_iff x y.1 y.2).mp hreach))
            simp [hreach, hne]

/-- The recovery reads the row that is stored under the bytes of the uuid. -/
theorem loadQueuedMessage_timeline
    (t : StoredTimeline) (u : String) :
    t.timeline.loadQueuedMessage u =
      t.loadQueuedMessage (uuid7StringToBytes u) := by
  simp only [Timeline.loadQueuedMessage, loadQueuedMessage, row?_timeline]

/-- A statement that binds the bytes of a uuid updates what is reached by it. -/
theorem timeline_update
    (t : StoredTimeline) (u : String) (f : Row → Row) :
    (t.update (uuid7StringToBytes u) f).timeline = t.timeline.update u f := by
  have hreach (x : SqlValue × Row) :
      reach (if x.1 = blobKey u then (x.1, f x.2) else x) =
        (reach x).map fun y => if y.1 = u then (y.1, f y.2) else y := by
    obtain ⟨key, row⟩ := x
    cases key with
    | blob b =>
        cases hdec : String.fromUTF8? ⟨b.toArray⟩ with
        | none =>
            have hne : b ≠ uuid7StringToBytes u := fun h => by
              simp [(fromUTF8?_eq_some_iff b u).mpr h] at hdec
            simp [reach, hdec, hne]
        | some v =>
            obtain rfl := (fromUTF8?_eq_some_iff b v).mp hdec
            by_cases hv : v = u
            · subst hv
              simp [reach, hdec]
            · simp [reach, hdec, hv]
    | _ => simp [reach]
  have hrows : (t.update (uuid7StringToBytes u) f).timeline.rows =
      (t.timeline.update u f).rows := by
    simp only [rows_timeline, Timeline.update, update, List.filterMap_map,
      List.map_filterMap]
    exact List.filterMap_congr fun x _ => hreach x
  exact congrArg Timeline.mk hrows

/-- No two reachable rows share a uuid. -/
theorem nodup_timeline (t : StoredTimeline) :
    (t.timeline.rows.map (·.1)).Nodup := by
  have hkeys : t.timeline.rows.map (fun r => blobKey r.1) =
      (t.rows.filter fun r => (reach r).isSome).map (·.1) := by
    rw [rows_timeline]
    generalize t.rows = rows
    induction rows with
    | nil => rfl
    | cons x rest ih =>
        cases hreach : reach x with
        | none => simp [hreach, ih]
        | some y =>
            have hkey : blobKey y.1 = x.1 :=
              congrArg (·.1) ((reach_eq_some_iff x y.1 y.2).mp hreach).symm
            simp [hreach, ih, hkey]
  have hnodup : (t.timeline.rows.map (fun r => blobKey r.1)).Nodup := by
    rw [hkeys]
    exact t.unique.sublist (List.filter_sublist.map _)
  have hcomp : t.timeline.rows.map (fun r => blobKey r.1) =
      (t.timeline.rows.map (·.1)).map blobKey := by
    simp
  rw [hcomp] at hnodup
  exact hnodup.of_map _

theorem row?_timeline_eq_some_iff
    (u : String) (r : Row) :
    t.timeline.row? u = some r ↔ (u, r) ∈ t.timeline.rows := by
  have hnodup := t.nodup_timeline
  unfold Timeline.row?
  generalize t.timeline.rows = rows at hnodup
  induction rows with
  | nil => simp
  | cons x rest ih =>
      obtain ⟨hx, hrest⟩ := List.nodup_cons.mp hnodup
      by_cases hu : x.1 = u
      · have hnot : (u, r) ∉ rest := fun hmem =>
          hx (List.mem_map.mpr ⟨(u, r), hmem, hu.symm⟩)
        rw [List.find?_cons_of_pos (by simpa using hu), List.mem_cons,
          or_iff_left hnot]
        constructor
        · intro h
          exact Prod.ext hu.symm (Option.some.inj h).symm
        · rintro rfl
          rfl
      · have hne : (u, r) ≠ x := by
          rintro rfl
          exact hu rfl
        rw [List.find?_cons_of_neg (by simpa using hu), List.mem_cons,
          or_iff_right hne]
        exact ih hrest

end Reach

section Normalize

variable {t t' : StoredTimeline} {n : Nat}

theorem rows_foldlM_normalizeKey
    {us : List String}
    (h : us.foldlM normalizeKey t = some t') :
    t'.rows =
      t.rows.map fun r => (us.foldl (fun k u => rekey u k) r.1, r.2) := by
  induction us generalizing t with
  | nil =>
      obtain rfl : t = t' := by simpa using h
      simp
  | cons u us ih =>
      rw [List.foldlM_cons] at h
      obtain ⟨t₁, hfirst, hrest⟩ := Option.bind_eq_some_iff.mp h
      unfold normalizeKey at hfirst
      split at hfirst
      · obtain rfl := Option.some.inj hfirst
        rw [ih hrest]
        simp
      · cases hfirst

/-- Rewriting all text keys turns a text key into its bytes. -/
theorem foldl_rekey
    {us : List String} {k : SqlValue}
    (hk : ∀ u, k = .text u → u ∈ us) :
    us.foldl (fun k u => rekey u k) k = k.asBlob := by
  have hother : ∀ (us : List String) (k : SqlValue),
      (∀ u, k ≠ .text u) → us.foldl (fun k u => rekey u k) k = k := by
    intro us
    induction us with
    | nil => exact fun _ _ => rfl
    | cons u us ih =>
        intro k hk
        rw [List.foldl_cons, rekey, if_neg (hk u)]
        exact ih k hk
  cases k with
  | text v =>
      have hv := hk v rfl
      induction us with
      | nil => simp at hv
      | cons u us ih =>
          rw [List.foldl_cons]
          by_cases hvu : v = u
          · subst hvu
            rw [rekey, if_pos rfl]
            exact hother us _ (by simp)
          · rw [rekey, if_neg (by simpa using hvu)]
            have hmem : v ∈ us := (List.mem_cons.mp hv).resolve_left hvu
            exact ih (by rintro u ⟨⟩; exact hmem) hmem
  | _ => exact hother us _ (by simp)

/-- A table that has been normalized is the table with its text keys as
bytes. -/
theorem rows_normalizeUuidStorage
    (h : t.normalizeUuidStorage = some (n, t')) :
    t'.rows = t.rows.map fun r => (r.1.asBlob, r.2) := by
  obtain ⟨t₁, hfold, heq⟩ := Option.map_eq_some_iff.mp h
  obtain ⟨-, rfl⟩ := Prod.mk.inj heq
  rw [rows_foldlM_normalizeKey hfold]
  refine List.map_congr_left fun r hr => Prod.ext (foldl_rekey ?_) rfl
  intro u hu
  exact List.mem_filterMap.mpr ⟨r, hr, by simp [hu]⟩

/-- Every queued row of a normalized table can be reached by its uuid. -/
theorem keys_normalizeUuidStorage
    (hkeyed : t.UuidKeyed)
    (h : t.normalizeUuidStorage = some (n, t')) :
    ∀ r ∈ t'.rows, r.2.pipelineStatus = .queued → ∃ u, r.1 = blobKey u := by
  intro r hr hqueued
  rw [rows_normalizeUuidStorage h] at hr
  obtain ⟨r₀, hr₀, rfl⟩ := List.mem_map.mp hr
  obtain ⟨u, hu | hu⟩ := hkeyed r₀ hr₀ hqueued
  · exact ⟨u, by simp [hu, SqlValue.asBlob]⟩
  · exact ⟨u, by simp [hu, SqlValue.asBlob]⟩

/-- A stored key read back and bound again finds its row: the uuids considered
by the recovery are those of the queued rows it can reach. -/
theorem getQueuedUuids_perm
    (hkeys : ∀ r ∈ t.rows, r.2.pipelineStatus = .queued → ∃ u, r.1 = blobKey u) :
    t.getQueuedUuids.Perm
      ((t.timeline.rows.filter fun r => r.2.pipelineStatus = .queued).map
        (·.1)) := by
  have hsort := (List.perm_insertionSort (fun k l : SqlValue => k.le l = true)
    ((t.rows.filter fun r => r.2.pipelineStatus = .queued).map
      (·.1))).filterMap SqlValue.uuid7?
  refine hsort.trans (List.Perm.of_eq ?_)
  rw [rows_timeline]
  generalize t.rows = rows at hkeys
  induction rows with
  | nil => rfl
  | cons x rest ih =>
      have hrest := ih fun r hr => hkeys r (List.mem_cons_of_mem _ hr)
      by_cases hqueued : x.2.pipelineStatus = .queued
      · obtain ⟨u, hu⟩ := hkeys x (List.mem_cons_self ..) hqueued
        have hreach : reach x = some (u, x.2) :=
          (reach_eq_some_iff x u x.2).mpr (Prod.ext hu rfl)
        have hread : x.1.uuid7? = some u := by simp [hu, SqlValue.uuid7?]
        simpa [hqueued, hreach, hread] using hrest
      · cases hreach : reach x with
        | none => simpa [hqueued, hreach] using hrest
        | some y =>
            have hy : y.2 = x.2 :=
              (congrArg (·.2) ((reach_eq_some_iff x y.1 y.2).mp hreach)).symm
            simpa [hqueued, hreach, hy] using hrest

end Normalize

section Recovery

variable {t t' : StoredTimeline} {n : Nat}

theorem nodup_getQueuedUuids
    (hkeyed : t.UuidKeyed)
    (h : t.normalizeUuidStorage = some (n, t')) :
    t'.getQueuedUuids.Nodup := by
  rw [(getQueuedUuids_perm (keys_normalizeUuidStorage hkeyed h)).nodup_iff]
  exact t'.nodup_timeline.sublist (List.filter_sublist.map _)

theorem mem_getQueuedUuids_iff
    (hkeyed : t.UuidKeyed)
    (h : t.normalizeUuidStorage = some (n, t'))
    (u : String) :
    u ∈ t'.getQueuedUuids ↔
      ∃ r, t'.timeline.row? u = some r ∧ r.pipelineStatus = .queued := by
  rw [(getQueuedUuids_perm (keys_normalizeUuidStorage hkeyed h)).mem_iff]
  simp only [List.mem_map, List.mem_filter, decide_eq_true_eq,
    row?_timeline_eq_some_iff]
  constructor
  · rintro ⟨⟨v, r⟩, ⟨hmem, hqueued⟩, rfl⟩
    exact ⟨r, hmem, hqueued⟩
  · rintro ⟨r, hmem, hqueued⟩
    exact ⟨(u, r), ⟨hmem, hqueued⟩, rfl⟩

/-- A row that was queued under a text or a byte key is reached, as it was, by
the bytes of its uuid. -/
theorem row?_normalizeUuidStorage
    (h : t.normalizeUuidStorage = some (n, t'))
    {u : String} {key : SqlValue} {r : Row}
    (hkey : key = .text u ∨ key = blobKey u)
    (hr : (key, r) ∈ t.rows) :
    t'.timeline.row? u = some r := by
  rw [row?_timeline_eq_some_iff, mem_rows_timeline_iff,
    rows_normalizeUuidStorage h, List.mem_map]
  refine ⟨(key, r), hr, ?_⟩
  rcases hkey with rfl | rfl <;> rfl

end Recovery

end StoredTimeline
end CockatielEngine
