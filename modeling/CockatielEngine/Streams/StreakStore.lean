import CockatielEngine.Streams.StreakMeaning

/-!
# Streams: the persisted streaks

The engine hears of the streams' boundaries from log lines.  A line that ends a
stream persists the rows that the close returned; a line that starts one while
another is open closes the open one inside the tracker, and its rows go nowhere.

**Main result.**  The persisted streaks are those of the tracker after every
line exactly when no stream that somebody has been seen in is closed by the
start of the next.
-/

namespace CockatielEngine

/-- A row of `stream_streaks`; the stream may be missing. -/
abbrev StreakTable := AList fun _ : String => Option String × Int

/-- The tracker beside the table. -/
structure StreakStore where
  tracker : StreamTracker := {}
  rows : StreakTable := ∅

/-- The row as start-up reads it. -/
def readStreak (row : Option String × Int) : String × Int :=
  (row.1.getD "", row.2)

def loadStreamStreaks (rows : StreakTable) : List StreakRow :=
  rows.entries.map fun e => (e.1, readStreak e.2)

/-- A delete and an insert. -/
def upsertStreamStreak (rows : StreakTable) (row : StreakRow) : StreakTable :=
  (rows.erase row.1).insert row.1 (some row.2.1, row.2.2)

/-- The pattern occurs in the text. -/
def contains (text pattern : String) : Bool :=
  decide (pattern.toList <:+: text.toList)

def startsStream (log : String) : Bool :=
  contains log "[stream-start]"

def endsStream (log : String) : Bool :=
  contains log "[stream-end]" || contains log "Live chat closed" ||
    contains log "Stream ended"

namespace StreakStore

/-- Start-up: a new tracker with the streaks of the table. -/
def boot (rows : StreakTable) : StreakStore :=
  { tracker := StreamTracker.loadStreaks {} (loadStreamStreaks rows), rows := rows }

/-- Close the stream and persist the rows that the close returned. -/
def endStream (s : StreakStore) : StreakStore :=
  { tracker := s.tracker.closeStream.1
    rows := s.tracker.closeStream.2.foldl upsertStreamStreak s.rows }

/-- A log line; `uuid` is the id of the stream it may open. -/
def logLine (s : StreakStore) (log uuid : String) (now : Int) : StreakStore :=
  if startsStream log then { s with tracker := s.tracker.openStream uuid now }
  else if endsStream log then s.endStream
  else s

end StreakStore

/-- What the store goes through while the engine runs. -/
inductive StreakEvent where
  | log (line uuid : String) (now : Int)
  | noteAttendance (user : String) (now : Int)
  | multiplier (user : String) (now : Int)
deriving DecidableEq, Repr

namespace StreakStore

def apply (s : StreakStore) : StreakEvent → StreakStore
  | .log line uuid now => s.logLine line uuid now
  | .noteAttendance user now => { s with tracker := s.tracker.noteAttendance user now }
  | .multiplier user now => { s with tracker := (s.tracker.multiplier user now).1 }

def run (s : StreakStore) (evs : List StreakEvent) : StreakStore :=
  evs.foldl apply s

/-- The table holds the tracker's streaks. -/
def Persisted (s : StreakStore) : Prop :=
  ∀ user, (s.rows.lookup user).map readStreak = s.tracker.streaks.lookup user

/-- The next event does not start a stream over one that somebody has been seen
in. -/
def StartsAfterEnd (s : StreakStore) : StreakEvent → Prop
  | .log line _ _ =>
      startsStream line = true → s.tracker.currentStreamUuid ≠ none →
        s.tracker.attendance = ∅
  | _ => True

end StreakStore

/-- The operation of the tracker that an event comes to. -/
def StreakEvent.op : StreakEvent → Option StreamOp
  | .log line uuid now =>
      if startsStream line then some (.openStream uuid now)
      else if endsStream line then some .closeStream
      else none
  | .noteAttendance user now => some (.noteAttendance user now)
  | .multiplier user now => some (.multiplier user now)

section Tables

theorem lookup_upsertStreamStreak
    (rows : StreakTable) (row : StreakRow) (user : String) :
    ((upsertStreamStreak rows row).lookup user).map readStreak =
      if user = row.1 then some row.2 else (rows.lookup user).map readStreak := by
  unfold upsertStreamStreak
  split
  · rename_i h
    subst h
    rw [AList.lookup_insert]
    rfl
  · rename_i h
    rw [AList.lookup_insert_ne h, AList.lookup_erase_ne h]

/-- What a table holds after the rows of a close, one for each user. -/
theorem lookup_foldl_upsert
    {cur : String} {count : String → Int} {users : List String}
    (husers : users.Nodup) (rows : StreakTable) (user : String) :
    (((users.map fun u => (u, cur, count u)).foldl upsertStreamStreak rows).lookup
        user).map readStreak =
      if user ∈ users then some (cur, count user)
      else (rows.lookup user).map readStreak := by
  induction users generalizing rows with
  | nil => rfl
  | cons u users ih =>
      obtain ⟨hu, hrest⟩ := List.nodup_cons.mp husers
      rw [List.map_cons, List.foldl_cons, ih hrest, lookup_upsertStreamStreak]
      by_cases hmem : user ∈ users
      · simp [hmem]
      · by_cases heq : user = u <;> simp [hmem, heq, hu]

theorem lookup_foldl_insert
    (entries : List (Sigma fun _ : String => Option String × Int))
    (hkeys : entries.NodupKeys) (streaks : Streaks) (user : String) :
    ((entries.map fun e => ((e.1, readStreak e.2) : StreakRow)).foldl
        (fun streaks r => streaks.insert r.1 r.2) streaks).lookup user =
      ((entries.dlookup user).map readStreak).or (streaks.lookup user) := by
  induction entries generalizing streaks with
  | nil => rfl
  | cons e entries ih =>
      obtain ⟨he, hrest⟩ := List.nodupKeys_cons.mp hkeys
      obtain ⟨k, row⟩ := e
      rw [List.map_cons, List.foldl_cons, ih hrest]
      by_cases hu : user = k
      · subst hu
        simp [List.dlookup_eq_none.mpr he, List.dlookup_cons_eq]
      · rw [AList.lookup_insert_ne hu, List.dlookup_cons_ne _ _ hu]

/-- Start-up finds what the table holds. -/
theorem StreakStore.persisted_boot (rows : StreakTable) :
    (StreakStore.boot rows).Persisted := by
  intro user
  simp only [boot, StreamTracker.loadStreaks, loadStreamStreaks]
  rw [lookup_foldl_insert rows.entries rows.nodupKeys]
  simp [AList.lookup]

end Tables

namespace StreakStore

variable {s : StreakStore} {ev : StreakEvent}

/-- The store's tracker goes through the operations of the events. -/
theorem tracker_apply (s : StreakStore) (ev : StreakEvent) :
    (s.apply ev).tracker = s.tracker.run ev.op.toList := by
  cases ev with
  | log line uuid now =>
      simp only [apply, logLine, StreakEvent.op]
      split
      · rfl
      · split <;> rfl
  | _ => rfl

theorem tracker_run (s : StreakStore) (evs : List StreakEvent) :
    (s.run evs).tracker = s.tracker.run (evs.filterMap StreakEvent.op) := by
  induction evs generalizing s with
  | nil => rfl
  | cons ev evs ih =>
      change ((s.apply ev).run evs).tracker = _
      rw [ih, tracker_apply]
      cases hop : ev.op <;> simp [hop, StreamTracker.run]

/-- A line that ends a stream persists what it changes. -/
theorem persisted_endStream (h : s.Persisted) : s.endStream.Persisted := by
  intro user
  cases hcur : s.tracker.currentStreamUuid with
  | none =>
      simp only [endStream, StreamTracker.closeStream_of_none hcur]
      exact h user
  | some cur =>
      obtain ⟨streaks, hclose, hlookup⟩ := StreamTracker.closeStream_of_some hcur
      simp only [endStream, StreamTracker.rows_closeStream hcur]
      rw [lookup_foldl_upsert s.tracker.attendance.keys_nodup, h user, hclose,
        hlookup user]
      simp only [AList.mem_keys]

/-- The streaks after a stream has been opened: those of the close of a stream
that was still open. -/
theorem lookup_openStream
    (t : StreamTracker) (uuid : String) (now : Int) (user : String) :
    (t.openStream uuid now).streaks.lookup user =
      match t.currentStreamUuid with
      | none => t.streaks.lookup user
      | some cur =>
          if user ∈ t.attendance then
            some (cur, continuedCount t.previousStreamUuid t.streaks user)
          else t.streaks.lookup user := by
  unfold StreamTracker.openStream
  cases hcur : t.currentStreamUuid with
  | none => simp
  | some cur =>
      obtain ⟨streaks, hclose, hlookup⟩ := StreamTracker.closeStream_of_some hcur
      simp [hclose, hlookup]

/-- The ids of the open stream and of those that the events open. -/
def idsAhead (s : StreakStore) (evs : List StreakEvent) : List String :=
  s.tracker.currentStreamUuid.toList ++ opened (evs.filterMap StreakEvent.op)

/-- The tracker or the table has this streak for the user. -/
def Knows (s : StreakStore) (user : String) (streak : String × Int) : Prop :=
  s.tracker.streaks.lookup user = some streak ∨
    (s.rows.lookup user).map readStreak = some streak

/-- The streams ahead have ids of their own, which no streak knows yet. -/
structure Fresh (s : StreakStore) (evs : List StreakEvent) : Prop where
  nodup : (s.idsAhead evs).Nodup
  unused : ∀ user streak, s.Knows user streak → streak.1 ∉ s.idsAhead evs

/-- A later store is fresh when its streaks are known, or of streams that are no
longer ahead. -/
theorem Fresh.of_sublist
    {s' : StreakStore} {evs evs' : List StreakEvent}
    (h : s.Fresh evs)
    (hids : (s'.idsAhead evs').Sublist (s.idsAhead evs))
    (hnew : ∀ user streak, s'.Knows user streak →
      s.Knows user streak ∨ streak.1 ∉ s'.idsAhead evs') :
    s'.Fresh evs' where
  nodup := h.nodup.sublist hids
  unused user streak hknows := by
    rcases hnew user streak hknows with hold | hgone
    · exact fun hmem => h.unused user streak hold (hids.subset hmem)
    · exact hgone

theorem idsAhead_cons
    (s : StreakStore) (ev : StreakEvent) (evs : List StreakEvent) :
    s.idsAhead (ev :: evs) = s.tracker.currentStreamUuid.toList ++
      ((ev.op.bind StreamOp.opens).toList ++
        opened (evs.filterMap StreakEvent.op)) := by
  unfold idsAhead opened
  cases hop : ev.op with
  | none => simp [hop]
  | some op => cases hopens : op.opens <;> simp [hop, hopens]

/-- What a store knows after a line that ends a stream. -/
theorem knows_endStream
    {cur user : String} {streak : String × Int}
    (hcur : s.tracker.currentStreamUuid = some cur)
    (h : s.endStream.Knows user streak) :
    s.Knows user streak ∨ streak.1 = cur := by
  obtain ⟨streaks, hclose, hlookup⟩ := StreamTracker.closeStream_of_some hcur
  unfold Knows endStream at h
  rw [StreamTracker.rows_closeStream hcur,
    lookup_foldl_upsert s.tracker.attendance.keys_nodup, hclose] at h
  simp only [hlookup] at h
  rcases h with h | h
  · split at h
    · exact Or.inr (by rw [← Option.some.inj h])
    · exact Or.inl (Or.inl h)
  · split at h
    · exact Or.inr (by rw [← Option.some.inj h])
    · exact Or.inl (Or.inr h)

/-- What a store knows after a line that starts a stream. -/
theorem knows_openStream
    {uuid user : String} {now : Int} {streak : String × Int}
    (h : Knows { s with tracker := s.tracker.openStream uuid now } user streak) :
    s.Knows user streak ∨ s.tracker.currentStreamUuid = some streak.1 := by
  unfold Knows at h
  rw [lookup_openStream] at h
  cases hcur : s.tracker.currentStreamUuid with
  | none =>
      simp only [hcur] at h
      exact Or.inl h
  | some cur =>
      simp only [hcur] at h
      rcases h with h | h
      · split at h
        · exact Or.inr (by rw [← Option.some.inj h])
        · exact Or.inl (Or.inl h)
      · exact Or.inl (Or.inr h)

/-- Every event uses the ids it finds ahead. -/
theorem Fresh.apply
    {evs : List StreakEvent}
    (h : s.Fresh (ev :: evs)) :
    (s.apply ev).Fresh evs := by
  cases ev with
  | log line uuid now =>
      simp only [StreakStore.apply, logLine]
      split
      · rename_i hstart
        have hahead : s.idsAhead (.log line uuid now :: evs) =
            s.tracker.currentStreamUuid.toList ++
              idsAhead { s with tracker := s.tracker.openStream uuid now } evs := by
          rw [idsAhead_cons]
          simp [idsAhead, StreakEvent.op, hstart, StreamOp.opens,
            StreamTracker.openStream]
        refine h.of_sublist (hahead ▸ List.sublist_append_right _ _) ?_
        intro user streak hknows
        refine (knows_openStream hknows).imp_right fun hcur hmem => ?_
        have hnodup := h.nodup
        rw [hahead, hcur] at hnodup
        exact (List.nodup_cons.mp hnodup).1 hmem
      · rename_i hstart
        split
        · rename_i hend
          cases hcur : s.tracker.currentStreamUuid with
          | none =>
              have heq : s.endStream = s := by
                simp [endStream, StreamTracker.closeStream_of_none hcur]
              rw [heq]
              refine h.of_sublist ?_ fun _ _ => Or.inl
              rw [idsAhead_cons]
              simp [idsAhead, StreakEvent.op, hstart, hend, StreamOp.opens]
          | some cur =>
              obtain ⟨streaks, hclose, -⟩ := StreamTracker.closeStream_of_some hcur
              have hahead : s.idsAhead (.log line uuid now :: evs) =
                  cur :: s.endStream.idsAhead evs := by
                rw [idsAhead_cons]
                simp [idsAhead, StreakEvent.op, hstart, hend, StreamOp.opens, hcur,
                  endStream, hclose]
              refine h.of_sublist (hahead ▸ List.sublist_cons_self _ _) ?_
              intro user streak hknows
              refine (knows_endStream hcur hknows).imp_right fun hid hmem => ?_
              have hnodup := h.nodup
              rw [hahead, ← hid] at hnodup
              exact (List.nodup_cons.mp hnodup).1 hmem
        · rename_i hend
          refine h.of_sublist ?_ fun _ _ => Or.inl
          simp [idsAhead, StreakEvent.op, hstart, hend]
  | noteAttendance user now =>
      have hduring : StreamOp.DuringStream (.noteAttendance user now) := trivial
      obtain ⟨hcur, -, hstreaks⟩ := kept_during (t := s.tracker) hduring
      simp only [StreamTracker.apply] at hcur hstreaks
      refine h.of_sublist ?_ fun u streak hknows => Or.inl ?_
      · rw [idsAhead_cons]
        simp [idsAhead, StreakStore.apply, hcur, StreakEvent.op, StreamOp.opens]
      · simpa [Knows, StreakStore.apply, hstreaks] using hknows
  | multiplier user now =>
      have hduring : StreamOp.DuringStream (.multiplier user now) := trivial
      obtain ⟨hcur, -, hstreaks⟩ := kept_during (t := s.tracker) hduring
      simp only [StreamTracker.apply] at hcur hstreaks
      refine h.of_sublist ?_ fun u streak hknows => Or.inl ?_
      · rw [idsAhead_cons]
        simp [idsAhead, StreakStore.apply, hcur, StreakEvent.op, StreamOp.opens]
      · simpa [Knows, StreakStore.apply, hstreaks] using hknows

theorem Fresh.run
    {before after : List StreakEvent}
    (h : s.Fresh (before ++ after)) :
    (s.run before).Fresh after := by
  induction before generalizing s with
  | nil => exact h
  | cons ev before ih => exact ih h.apply

/-- A start over a stream that somebody has been seen in loses what its close
made of the streaks, and no other event loses anything. -/
theorem persisted_apply_iff
    {evs : List StreakEvent}
    (h : s.Persisted)
    (hfresh : s.Fresh (ev :: evs)) :
    (s.apply ev).Persisted ↔ s.StartsAfterEnd ev := by
  cases ev with
  | log line uuid now =>
      simp only [apply, logLine, StartsAfterEnd]
      by_cases hstart : startsStream line = true
      · simp only [hstart, if_true, true_imp_iff]
        cases hcur : s.tracker.currentStreamUuid with
        | none =>
            refine ⟨fun _ hne => absurd rfl hne, fun _ user => ?_⟩
            simp only [lookup_openStream, hcur]
            exact h user
        | some cur =>
            constructor
            · intro hkept _
              by_contra hattended
              obtain ⟨user, huser⟩ : ∃ user, user ∈ s.tracker.attendance := by
                by_contra hnone
                refine hattended (AList.ext (List.eq_nil_iff_forall_not_mem.mpr ?_))
                exact fun e he => hnone ⟨e.1, List.mem_keys_of_mem he⟩
              have hlost := hkept user
              simp only [lookup_openStream, hcur, huser, if_true] at hlost
              refine hfresh.unused user _ (Or.inr hlost) ?_
              rw [idsAhead, hcur]
              exact List.mem_cons_self
            · intro hnobody user
              simp only [lookup_openStream, hcur, hnobody (by simp),
                AList.notMem_empty, if_false]
              exact h user
      · rw [if_neg hstart]
        refine iff_of_true ?_ fun hstart' => absurd hstart' hstart
        split
        · exact persisted_endStream h
        · exact h
  | noteAttendance user now =>
      have hduring : StreamOp.DuringStream (.noteAttendance user now) := trivial
      obtain ⟨-, -, hstreaks⟩ := kept_during (t := s.tracker) hduring
      exact iff_of_true (fun u => (h u).trans (by rw [← hstreaks]; rfl)) trivial
  | multiplier user now =>
      have hduring : StreamOp.DuringStream (.multiplier user now) := trivial
      obtain ⟨-, -, hstreaks⟩ := kept_during (t := s.tracker) hduring
      exact iff_of_true (fun u => (h u).trans (by rw [← hstreaks]; rfl)) trivial

end StreakStore

/-- A store that start-up makes of a table is fresh when the table knows none of
the ids to come. -/
theorem StreakStore.fresh_boot
    {rows : StreakTable} {evs : List StreakEvent}
    (hnodup : (opened (evs.filterMap StreakEvent.op)).Nodup)
    (hnew : ∀ e ∈ rows.entries,
      (readStreak e.2).1 ∉ opened (evs.filterMap StreakEvent.op)) :
    (StreakStore.boot rows).Fresh evs where
  nodup := hnodup
  unused user streak hknows := by
    have hrow : (rows.lookup user).map readStreak = some streak := by
      rcases hknows with h | h
      · exact (StreakStore.persisted_boot rows user).trans h
      · exact h
    obtain ⟨row, hlookup, rfl⟩ := Option.map_eq_some_iff.mp hrow
    exact hnew ⟨user, row⟩ (AList.mem_lookup_iff.mp hlookup)

/-- **Main theorem.** Start the engine on any table and let every stream get an
id that is new.  The table holds the tracker's streaks after every event of a
run exactly when no line of the run starts a stream over an open one that
somebody has been seen in. -/
theorem streaks_persisted_iff
    (rows : StreakTable) (evs : List StreakEvent)
    (hnodup : (opened (evs.filterMap StreakEvent.op)).Nodup)
    (hnew : ∀ e ∈ rows.entries,
      (readStreak e.2).1 ∉ opened (evs.filterMap StreakEvent.op)) :
    (∀ before after, evs = before ++ after →
      ((StreakStore.boot rows).run before).Persisted) ↔
    ∀ before ev after, evs = before ++ ev :: after →
      ((StreakStore.boot rows).run before).StartsAfterEnd ev := by
  have hfresh := StreakStore.fresh_boot hnodup hnew
  have hrun (before ev) : (StreakStore.boot rows).run (before ++ [ev]) =
      ((StreakStore.boot rows).run before).apply ev := by
    simp [StreakStore.run]
  constructor
  · rintro hall before ev after rfl
    refine (StreakStore.persisted_apply_iff (hall before (ev :: after) rfl)
      hfresh.run).mp ?_
    rw [← hrun]
    exact hall (before ++ [ev]) after (by simp)
  · intro hall before
    induction before using List.reverseRecOn with
    | nil => exact fun _ _ => StreakStore.persisted_boot rows
    | append_singleton before ev ih =>
        rintro after rfl
        have hmid : before ++ [ev] ++ after = before ++ ev :: after := by simp
        rw [hmid] at hfresh hall ih
        rw [hrun]
        exact (StreakStore.persisted_apply_iff (ih _ rfl) hfresh.run).mpr
          (hall before ev after rfl)

/-- A stream that starts over an open one: alice's streak is in the tracker
alone. -/
def startOverOpen : List StreakEvent :=
  [.log "[stream-start]" "one" 0, .noteAttendance "alice" 1,
    .log "[stream-start]" "two" 2]

theorem streaks_persisted_iff_startOverOpen :
    ¬ ∀ before after, startOverOpen = before ++ after →
      ((StreakStore.boot ∅).run before).Persisted :=
  fun hall => absurd
    ((streaks_persisted_iff ∅ startOverOpen (by decide) (by simp)).mp hall
      [.log "[stream-start]" "one" 0, .noteAttendance "alice" 1] _ [] rfl
      (by decide) (by decide))
    fun hnobody => absurd (congrArg (AList.lookup "alice") hnobody) (by decide)

theorem startOverOpen_not_persisted :
    ¬ ((StreakStore.boot ∅).run startOverOpen).Persisted :=
  fun hkept => absurd (hkept "alice") (by decide)

end CockatielEngine
