import CockatielEngine.Database.TimelineFilters
import CockatielEngine.Pipeline.Ingest

/-!
# Database: the ids of the timeline's rows, there and back

The key of a row is written by the pipeline, shown by `query_timeline` and read
again from a `TimelineQuery`.  The pipeline binds the text of the uuid as bytes;
the other two take the key for the sixteen bytes of the uuid itself.

**Main result.**  The rows that `insert_and_start` has stored are shown under
ids that are not empty, differ and lead back to them exactly when the texts they
are keyed by are sixteen bytes long.
-/

namespace CockatielEngine

open StoredTimeline (blobKey)

section Insert

/-- The status as the column has it. -/
def PipelineStatus.text : PipelineStatus → String
  | .queued => "queued"
  | .processing => "processing"
  | .complete => "complete"
  | .failed => "failed"
  | .dropped => "dropped"
  | .audit => "audit"

/-- A row of the pipeline with the key it is stored under. -/
def TimelineRow.ofRow (key : SqlValue) (row : Row) : TimelineRow where
  uuid7 := key
  eventType := row.eventType
  platform := some row.platform
  rawMessage := row.rawMessage
  command := some row.command
  flags := row.flags
  dataBlob := row.dataBlob
  userUuid7 := row.userUuid7
  processedMessage := row.processedMessage
  errorMessage := row.errorMessage
  persistedAt := row.persistedAt.map Int.ofNat
  pipelineStatus := row.pipelineStatus.text

/-- The row of a message once its command and its user have been set. -/
def startedRow (msg : PipelineMessage) : Row :=
  let inserted := IngestFrame.row msg
  let commanded :=
    match msg.command with
    | some command => inserted.setCommand command
    | none => inserted
  if msg.userUuid7 = "" then commanded else commanded.setUserUuid msg.userUuid7

namespace TimelineTable

variable (t : TimelineTable)

def keys : List SqlValue :=
  t.rows.map (·.uuid7)

/-- Insert a row; a key that is already there violates the primary key. -/
def insert (row : TimelineRow) : Option TimelineTable :=
  if hfree : row.uuid7 ∉ t.keys then
    some {
      rows := t.rows ++ [row]
      unique := by
        rw [List.map_append, List.filter_append]
        refine List.Nodup.append t.unique (List.Nodup.filter _ (by simp)) ?_
        intro key hold hnew
        have hkey : key = row.uuid7 := by
          simpa using List.mem_of_mem_filter hnew
        exact hfree (hkey ▸ List.mem_of_mem_filter hold) }
  else none

/-- What `insert_and_start` leaves in the table. -/
def insertAndStart (msg : PipelineMessage) : Option TimelineTable :=
  t.insert (.ofRow (.blob (uuid7StringToBytes msg.uuid7)) (startedRow msg))

variable {t} {t' : TimelineTable} {row row' : TimelineRow}

theorem keys_insert
    (h : t.insert row = some t') :
    t'.keys = t.keys ++ [row.uuid7] := by
  unfold insert at h
  split at h
  · obtain rfl := Option.some.inj h
    simp [keys]
  · cases h

/-- The rows that have a key have it alone. -/
theorem keyed_nodup (t : TimelineTable) :
    ((t.rows.filter fun r => r.uuid7 ≠ .null).map (·.uuid7)).Nodup := by
  have hunique := t.unique
  rwa [List.filter_map] at hunique

theorem eq_of_uuid7_eq
    (hrow : row ∈ t.rows) (hrow' : row' ∈ t.rows)
    (hkey : row.uuid7 ≠ .null)
    (heq : row'.uuid7 = row.uuid7) :
    row' = row := by
  refine List.inj_on_of_nodup_map t.keyed_nodup ?_ ?_ heq
  · exact List.mem_filter.mpr ⟨hrow', by simpa [heq] using hkey⟩
  · exact List.mem_filter.mpr ⟨hrow, by simpa using hkey⟩

end TimelineTable

/-- The messages that `insert_and_start` has stored, in a table that other
statements may have changed, too, as long as they keep those messages' keys. -/
inductive Stores (t₀ : TimelineTable) : List PipelineMessage → TimelineTable → Prop
  | start : Stores t₀ [] t₀
  | insertAndStart {msgs : List PipelineMessage} {t t' : TimelineTable}
      {msg : PipelineMessage} :
      Stores t₀ msgs t →
      t.insertAndStart msg = some t' →
      Stores t₀ (msgs ++ [msg]) t'
  | other {msgs : List PipelineMessage} {t t' : TimelineTable} :
      Stores t₀ msgs t →
      (∀ msg ∈ msgs, blobKey msg.uuid7 ∈ t.keys → blobKey msg.uuid7 ∈ t'.keys) →
      Stores t₀ msgs t'

/-- Every message that was stored has a row under its key. -/
theorem Stores.mem_keys
    {t₀ t : TimelineTable} {msgs : List PipelineMessage}
    (h : Stores t₀ msgs t) :
    ∀ msg ∈ msgs, blobKey msg.uuid7 ∈ t.keys := by
  induction h with
  | start =>
      intro msg hmsg
      cases hmsg
  | insertAndStart _ hinsert ih =>
      intro msg hmsg
      rw [TimelineTable.keys_insert hinsert]
      rcases List.mem_append.mp hmsg with hold | hnew
      · exact List.mem_append_left _ (ih msg hold)
      · obtain rfl := List.mem_singleton.mp hnew
        exact List.mem_append_right _ (List.mem_singleton.mpr rfl)
  | other _ hkeep ih => exact fun msg hmsg => hkeep msg hmsg (ih msg hmsg)

end Insert

section RoundTrip

variable (fold : Char → Char) (uuid : UuidText)

/-- The id shown for a row is not empty, is shown for no other row and fetches
that row. -/
structure RoundTrips (t : TimelineTable) (row : TimelineRow) : Prop where
  shown : idHex uuid row ≠ ""
  distinct : ∀ row' ∈ t.rows, row' ≠ row → idHex uuid row' ≠ idHex uuid row
  fetched : ∀ limit offset requestId,
    timelineQueryArm fold uuid (some t)
        { timelineIdUuid7 := idHex uuid row, limit, offset, requestId } =
      .reply { events := [(row.json uuid).event], requestId }

variable {fold uuid}
variable {t : TimelineTable} {row row' : TimelineRow} {u : Uuid}

theorem idHex_of_blob
    (hkey : row.uuid7 = .blob u.1) :
    idHex uuid row = uuid.toStr u := by
  rw [idHex, hkey]
  simp [Uuid.fromSlice_eq_some_iff.mpr rfl]

/-- A row that is shown under the text of a uuid has its bytes for a key. -/
theorem uuid7_of_idHex
    (h : idHex uuid row = uuid.toStr u) :
    row.uuid7 = .blob u.1 := by
  cases hkey : row.uuid7 with
  | blob b =>
      simp only [idHex, hkey] at h
      cases hslice : Uuid.fromSlice b with
      | none =>
          rw [hslice] at h
          exact absurd h.symm (uuid.toStr_ne_empty u)
      | some v =>
          rw [hslice] at h
          obtain rfl : v = u := uuid.toStr_injective h
          rw [Uuid.fromSlice_eq_some_iff.mp hslice]
  | _ =>
      rw [idHex, hkey] at h
      exact absurd h.symm (uuid.toStr_ne_empty u)

theorem eq_singleton_of_nodup
    {α : Type} {l : List α} {a : α}
    (hnodup : l.Nodup)
    (hmem : a ∈ l)
    (hall : ∀ x ∈ l, x = a) :
    l = [a] := by
  cases l with
  | nil => cases hmem
  | cons x rest =>
      obtain rfl := hall x List.mem_cons_self
      cases rest with
      | nil => rfl
      | cons y rest =>
          obtain rfl := hall y (by simp)
          simp at hnodup

/-- Only the id filters a query that carries nothing else. -/
theorem admits_idQuery
    {q : TimelineQuery} {limit offset : Int} {requestId : String}
    (hq : q = { timelineIdUuid7 := uuid.toStr u, limit, offset, requestId }) :
    (q.filter uuid).admits fold row = true ↔ row.uuid7 = .blob u.1 := by
  subst hq
  rw [admits_filter_iff]
  constructor
  · exact fun h => h.id u (uuid.toStr_ne_empty u) (uuid.parseStr_toStr u)
  · intro hkey
    constructor
    · intro v _ hparse
      obtain rfl : u = v := Option.some.inj ((uuid.parseStr_toStr u).symm.trans hparse)
      exact hkey
    all_goals exact fun h => absurd rfl h

/-- The row under a uuid's bytes is the one that its text fetches. -/
theorem repliedRows_idQuery
    {q : TimelineQuery} {limit offset : Int} {requestId : String}
    (hq : q = { timelineIdUuid7 := uuid.toStr u, limit, offset, requestId })
    (hrow : row ∈ t.rows)
    (hkey : row.uuid7 = .blob u.1) :
    repliedRows fold uuid t q = [row] := by
  have hfilter : t.rows.filter ((q.filter uuid).admits fold) = [row] := by
    refine eq_singleton_of_nodup ?_ ?_ fun r hr => ?_
    · have hsub : t.rows.filter ((q.filter uuid).admits fold) =
          (t.rows.filter fun r => r.uuid7 ≠ .null).filter
            ((q.filter uuid).admits fold) := by
        rw [List.filter_filter]
        refine List.filter_congr fun r _ => ?_
        by_cases hadmits : (q.filter uuid).admits fold r = true
        · simp [hadmits, (admits_idQuery hq).mp hadmits]
        · simp [hadmits]
      rw [hsub]
      exact (List.Nodup.of_map _ t.keyed_nodup).filter _
    · exact List.mem_filter.mpr ⟨hrow, (admits_idQuery hq).mpr hkey⟩
    · obtain ⟨hmem, hadmits⟩ := List.mem_filter.mp hr
      exact TimelineTable.eq_of_uuid7_eq hrow hmem (by simp [hkey])
        (((admits_idQuery hq).mp hadmits).trans hkey.symm)
  have hid : (q.filter uuid).timelineIdUuid7 = some u.1 := by
    simp [TimelineQuery.filter, hq, uuid.toStr_ne_empty, uuid.parseStr_toStr]
  simp [repliedRows, selectRows, hfilter, TimelineFilter.offsetRows,
    TimelineFilter.limitRows, hid]

/-- A row under the bytes of a uuid makes the round trip. -/
theorem roundTrips_of_uuid
    (hrow : row ∈ t.rows)
    (hkey : row.uuid7 = .blob u.1) :
    RoundTrips fold uuid t row where
  shown := by
    rw [idHex_of_blob hkey]
    exact uuid.toStr_ne_empty u
  distinct row' hrow' hne heq := by
    rw [idHex_of_blob hkey] at heq
    exact hne (TimelineTable.eq_of_uuid7_eq hrow hrow' (by simp [hkey])
      ((uuid7_of_idHex heq).trans hkey.symm))
  fetched limit offset requestId := by
    rw [timelineQueryArm_some, repliedRows_idQuery (u := u) (by rw [idHex_of_blob hkey])
      hrow hkey]
    rfl

/-- **Main theorem.**  The rows that `insert_and_start` has stored make the round
trip exactly when the texts they are keyed by have the length of a uuid. -/
theorem stored_roundTrips_iff
    {t₀ : TimelineTable} {msgs : List PipelineMessage}
    (h : Stores t₀ msgs t) :
    (∀ msg ∈ msgs, ∀ row ∈ t.rows, row.uuid7 = blobKey msg.uuid7 →
        RoundTrips fold uuid t row) ↔
      ∀ msg ∈ msgs, (uuid7StringToBytes msg.uuid7).length = 16 := by
  constructor
  · intro hround msg hmsg
    obtain ⟨row, hrow, hkey⟩ := List.mem_map.mp (h.mem_keys msg hmsg)
    have hshown := (hround msg hmsg row hrow hkey).shown
    by_contra hlen
    exact hshown (by simp [idHex, hkey, blobKey, Uuid.fromSlice, hlen])
  · intro hlen msg hmsg row hrow hkey
    exact roundTrips_of_uuid (u := ⟨_, hlen msg hmsg⟩) hrow hkey

end RoundTrip

/-- A message under the text of a uuid, as ingest makes it. -/
def textKey : PipelineMessage where
  uuid7 := "0192f0c1-2b3a-7c4d-8e5f-60718293a4b5"
  rawMessage := "hello"

/-- The table with its row alone. -/
def textKeyed : TimelineTable where
  rows := [.ofRow (blobKey textKey.uuid7) (startedRow textKey)]
  unique := List.Nodup.filter _ (List.nodup_singleton _)

theorem stores_textKey :
    Stores ⟨[], List.nodup_nil⟩ [textKey] textKeyed :=
  .insertAndStart .start rfl

theorem stored_roundTrips_iff_textKey :
    (∀ msg ∈ [textKey], ∀ row ∈ textKeyed.rows,
        row.uuid7 = blobKey msg.uuid7 → RoundTrips id hyphenated textKeyed row) ↔
      ∀ msg ∈ [textKey], (uuid7StringToBytes msg.uuid7).length = 16 :=
  stored_roundTrips_iff stores_textKey

/-- Its row is shown with an empty id. -/
theorem textKey_without_id :
    ¬ ∀ (fold : Char → Char) (uuid : UuidText) (t₀ t : TimelineTable)
      (msgs : List PipelineMessage), Stores t₀ msgs t →
      ∀ msg ∈ msgs, ∀ row ∈ t.rows, row.uuid7 = blobKey msg.uuid7 →
        RoundTrips fold uuid t row := by
  intro h
  have hround := h id hyphenated _ textKeyed [textKey] stores_textKey textKey
    (List.mem_singleton.mpr rfl) _ (List.mem_singleton.mpr rfl) rfl
  exact hround.shown (by decide)

end CockatielEngine
