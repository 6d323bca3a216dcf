import CockatielEngine.Streams.StreamTracker

/-!
# Streams: what a streak counts

The history of a run of operations is the list of the streams that were closed,
each with the users who were seen in it, and the open stream.  The tracker keeps
of that history, for every user, the last attended stream and the run of
consecutive streams that ends with it.

**Main result.**  After any operations in which each stream gets an id of its
own, the stored count of a user is the length of that run, and the count shown
during an open stream is the one that its close stores for a user who attended
it.
-/

namespace CockatielEngine

open Sessions

/-- The streams of a run so far. -/
structure StreamHistory where
  closed : List (Session String String) := []
  current : Option (Session String String) := none
deriving DecidableEq

namespace StreamHistory

def close (h : StreamHistory) : StreamHistory :=
  match h.current with
  | none => h
  | some s => { closed := s :: h.closed, current := none }

def apply (h : StreamHistory) : StreamOp → StreamHistory
  | .openStream uuid _ => { h.close with current := some ⟨uuid, ∅⟩ }
  | .noteAttendance user _ =>
      if user = "" then h
      else
        { h with
          current := h.current.map fun s =>
            { s with attendees := insert user s.attendees } }
  | .multiplier _ _ => h
  | .closeStream => h.close

def run (h : StreamHistory) (ops : List StreamOp) : StreamHistory :=
  ops.foldl apply h

/-- The ids of the streams, newest first. -/
def ids (h : StreamHistory) : List String :=
  h.current.toList.map (·.id) ++ h.closed.map (·.id)

end StreamHistory

/-- The id of the stream that an operation opens. -/
def StreamOp.opens : StreamOp → Option String
  | .openStream uuid _ => some uuid
  | _ => none

/-- The ids of the streams that the operations open. -/
def opened (ops : List StreamOp) : List String :=
  ops.filterMap StreamOp.opens

theorem opened_append (ops ops' : List StreamOp) :
    opened (ops ++ ops') = opened ops ++ opened ops' :=
  List.filterMap_append

/-- What somebody does while a stream is open. -/
def StreamOp.DuringStream : StreamOp → Prop
  | .noteAttendance _ _ => True
  | .multiplier _ _ => True
  | _ => False

/-- The tracker keeps what it needs of the history. -/
structure TracksHistory (t : StreamTracker) (h : StreamHistory) : Prop where
  current : t.currentStreamUuid = h.current.map (·.id)
  attendance : ∀ s ∈ h.current, ∀ u, u ∈ t.attendance ↔ u ∈ s.attendees
  previous : t.previousStreamUuid = h.closed.head?.map (·.id)
  streaks : ∀ u, t.streaks.lookup u =
    (sinceLast u h.closed).head?.map fun s => (s.id, (lastRun u h.closed : Int))
  cache : ∀ u, ∀ c ∈ t.streamStreakCache.lookup u,
    c = continuedCount t.previousStreamUuid t.streaks u

section Loop

variable {previous : Option String} {cur u : String} {streaks streaks' : Streaks}

theorem continuedCount_congr
    (h : streaks.lookup u = streaks'.lookup u) :
    continuedCount previous streaks u = continuedCount previous streaks' u := by
  unfold continuedCount
  rw [h]

/-- The loop of a close sets the streak of every user it is given, and of no
other. -/
theorem lookup_advanceStreaks
    {users : List String} (husers : users.Nodup) :
    (advanceStreaks previous cur users streaks).1.lookup u =
      if u ∈ users then some (cur, continuedCount previous streaks u)
      else streaks.lookup u := by
  induction users generalizing streaks with
  | nil => rfl
  | cons user users ih =>
      obtain ⟨huser, hrest⟩ := List.nodup_cons.mp husers
      simp only [advanceStreaks]
      rw [ih hrest]
      by_cases hu : u = user
      · subst hu
        simp [huser]
      · have hother : (streaks.insert user
            (cur, continuedCount previous streaks user)).lookup u =
              streaks.lookup u :=
          AList.lookup_insert_ne hu
        simp [hu, hother, continuedCount_congr hother]

/-- The rows of a close are those of the users it is given. -/
theorem rows_advanceStreaks
    {users : List String} (husers : users.Nodup) :
    (advanceStreaks previous cur users streaks).2 =
      users.map fun u => (u, cur, continuedCount previous streaks u) := by
  induction users generalizing streaks with
  | nil => rfl
  | cons user users ih =>
      obtain ⟨huser, hrest⟩ := List.nodup_cons.mp husers
      simp only [advanceStreaks, List.map_cons]
      rw [ih hrest]
      congr 1
      refine List.map_congr_left fun u hu => ?_
      have hne : u ≠ user := fun h => huser (h ▸ hu)
      rw [continuedCount_congr (AList.lookup_insert_ne hne)]

end Loop

namespace StreamTracker

variable {t : StreamTracker} {cur u user : String} {now : Int}

theorem closeStream_of_none
    (h : t.currentStreamUuid = none) :
    t.closeStream = (t, []) := by
  simp [closeStream, h]

/-- Everything a close does to the tracker. -/
theorem closeStream_of_some
    (h : t.currentStreamUuid = some cur) :
    ∃ streaks : Streaks,
      t.closeStream.1 =
        { t with
          currentStreamUuid := none
          previousStreamUuid := some cur
          attendance := ∅
          streaks := streaks
          streamStreakCache := ∅ } ∧
      ∀ u, streaks.lookup u =
        if u ∈ t.attendance then
          some (cur, continuedCount t.previousStreamUuid t.streaks u)
        else t.streaks.lookup u := by
  refine ⟨(advanceStreaks t.previousStreamUuid cur t.attendance.keys t.streaks).1,
    by simp [closeStream, h], fun u => ?_⟩
  simpa only [AList.mem_keys] using lookup_advanceStreaks t.attendance.keys_nodup

theorem rows_closeStream
    (h : t.currentStreamUuid = some cur) :
    t.closeStream.2 = t.attendance.keys.map fun u =>
      (u, cur, continuedCount t.previousStreamUuid t.streaks u) := by
  simp only [closeStream, h]
  exact rows_advanceStreaks t.attendance.keys_nodup

/-- An attendance note changes who has been seen, and nothing else. -/
theorem noteAttendance_cases
    (t : StreamTracker) (user : String) (now : Int) :
    ((t.currentStreamUuid = none ∨ user = "") ∧ t.noteAttendance user now = t) ∨
      (t.currentStreamUuid ≠ none ∧ user ≠ "" ∧
        ∃ attendance, t.noteAttendance user now = { t with attendance := attendance } ∧
          ∀ u, u ∈ attendance ↔ u = user ∨ u ∈ t.attendance) := by
  unfold noteAttendance
  split
  · rename_i h
    exact Or.inl ⟨h, rfl⟩
  · rename_i h
    obtain ⟨hopen, huser⟩ := not_or.mp h
    refine Or.inr ⟨hopen, huser, ?_⟩
    split
    · rename_i hlookup
      have hmem : user ∈ t.attendance :=
        AList.lookup_isSome.mp (by simp [hlookup])
      split
      · exact ⟨_, rfl, fun u => AList.mem_insert _⟩
      · refine ⟨t.attendance, rfl, fun u => ⟨Or.inr, ?_⟩⟩
        rintro (rfl | hu)
        · exact hmem
        · exact hu
    · exact ⟨_, rfl, fun u => AList.mem_insert _⟩

/-- Asking for a multiplier changes the cache, and nothing else. -/
theorem multiplier_cases
    (t : StreamTracker) (user : String) (now : Int) :
    ∃ cache, (t.multiplier user now).1 = { t with streamStreakCache := cache } ∧
      ∀ u, ∀ c ∈ cache.lookup u,
        t.streamStreakCache.lookup u = some c ∨ (u = user ∧ c = t.streakCount u) := by
  unfold multiplier
  split
  · exact ⟨_, rfl, fun u c hc => Or.inl hc⟩
  · refine ⟨_, rfl, fun u c hc => ?_⟩
    split at hc
    · exact Or.inl hc
    · by_cases hu : u = user
      · subst hu
        simp only [AList.lookup_insert, Option.mem_def, Option.some.injEq] at hc
        exact Or.inr ⟨rfl, hc.symm⟩
      · rw [AList.lookup_insert_ne hu] at hc
        exact Or.inl hc

end StreamTracker

section Histories

variable {h : StreamHistory}

theorem StreamHistory.ids_close (h : StreamHistory) : h.close.ids = h.ids := by
  unfold close ids
  cases hcur : h.current <;> simp [hcur]

theorem StreamHistory.current_close (h : StreamHistory) :
    h.close.current = none := by
  cases hcur : h.current with
  | none => rw [close, hcur]; exact hcur
  | some s => rw [close, hcur]

theorem StreamHistory.ids_apply
    (h : StreamHistory) (op : StreamOp) :
    (h.apply op).ids = op.opens.toList ++ h.ids := by
  cases op with
  | openStream uuid now =>
      rw [← ids_close h]
      simp [apply, ids, StreamOp.opens, current_close]
  | noteAttendance user now =>
      simp only [apply, StreamOp.opens, Option.toList_none, List.nil_append]
      split
      · rfl
      · cases hc : h.current <;> simp [ids, hc]
  | multiplier user now => rfl
  | closeStream => exact ids_close h

theorem StreamHistory.ids_run
    (h : StreamHistory) (ops : List StreamOp) :
    (h.run ops).ids = (opened ops).reverse ++ h.ids := by
  induction ops generalizing h with
  | nil => rfl
  | cons op ops ih =>
      change ((h.apply op).run ops).ids = _
      rw [ih, ids_apply]
      cases hop : op.opens <;> simp [opened, hop]

theorem StreamHistory.nodup_closed
    (hids : h.ids.Nodup) :
    (h.closed.map (·.id)).Nodup :=
  hids.of_append_right

end Histories

namespace TracksHistory

variable {t : StreamTracker} {h : StreamHistory}

theorem empty : TracksHistory {} {} where
  current := rfl
  attendance := by simp
  previous := rfl
  streaks := by simp
  cache := by simp

/-- The streams continue a streak exactly as the history does. -/
theorem continuedCount_eq
    (hf : TracksHistory t h) (hids : h.ids.Nodup) (u : String) :
    continuedCount t.previousStreamUuid t.streaks u =
      currentRun u h.closed + 1 := by
  rw [currentRun_eq_ite_last (StreamHistory.nodup_closed hids)]
  unfold continuedCount
  rw [hf.streaks u, hf.previous]
  cases hs : (sinceLast u h.closed).head? with
  | none =>
      have hnil : sinceLast u h.closed = [] := List.head?_eq_none_iff.mp hs
      simp [lastRun, hnil]
  | some s =>
      simp only [Option.map_some]
      split <;> simp_all

/-- A cached count is the one that the open stream continues. -/
theorem streakCount_eq
    (hf : TracksHistory t h) (u : String) :
    t.streakCount u = continuedCount t.previousStreamUuid t.streaks u := by
  unfold StreamTracker.streakCount
  split
  · rename_i c hc
    exact hf.cache u c hc
  · rfl

theorem close
    (hf : TracksHistory t h) (hids : h.ids.Nodup) :
    TracksHistory t.closeStream.1 h.close := by
  unfold StreamHistory.close
  cases hcur : h.current with
  | none =>
      rw [StreamTracker.closeStream_of_none (by simp [hf.current, hcur])]
      exact hf
  | some s =>
      have hopen : t.currentStreamUuid = some s.id := by
        simp [hf.current, hcur]
      obtain ⟨streaks, hclose, hlookup⟩ := StreamTracker.closeStream_of_some hopen
      rw [hclose]
      refine ⟨rfl, by simp, rfl, fun u => ?_, by simp⟩
      rw [hlookup u, hf.continuedCount_eq hids, lastRun_cons, sinceLast_cons]
      by_cases hu : u ∈ s.attendees
      · simp [(hf.attendance s hcur u).mpr hu, hu]
      · simpa [mt (hf.attendance s hcur u).mp hu, hu] using hf.streaks u

/-- Every operation keeps the tracker and the history together. -/
theorem apply
    (hf : TracksHistory t h) (hids : h.ids.Nodup) (op : StreamOp) :
    TracksHistory (t.apply op) (h.apply op) := by
  cases op with
  | openStream uuid now =>
      have hclosed : TracksHistory
          (if t.currentStreamUuid.isSome then t.closeStream.1 else t) h.close := by
        split
        · exact hf.close hids
        · rename_i hnone
          have := hf.close hids
          rwa [StreamTracker.closeStream_of_none (by simpa using hnone)] at this
      refine ⟨rfl, ?_, hclosed.previous, hclosed.streaks, ?_⟩
      · rintro s ⟨⟩ u
        simp [StreamTracker.apply, StreamTracker.openStream]
      · simp [StreamTracker.apply, StreamTracker.openStream]
  | noteAttendance user now =>
      simp only [StreamTracker.apply, StreamHistory.apply]
      rcases t.noteAttendance_cases user now with
        ⟨hnoop, heq⟩ | ⟨hopen, huser, attendance, heq, hmem⟩
      · rw [heq]
        split
        · exact hf
        · rename_i huser
          have hnone : h.current = none := by
            simpa [hf.current] using hnoop.resolve_right huser
          simpa [hnone] using
            (⟨by simp [hf.current, hnone], by simp, hf.previous, hf.streaks, hf.cache⟩ :
              TracksHistory t { h with current := none })
      · rw [heq, if_neg huser]
        refine ⟨?_, ?_, hf.previous, hf.streaks, hf.cache⟩
        · simp [hf.current, Function.comp_def]
        · simp only [Option.mem_def, Option.map_eq_some_iff]
          rintro _ ⟨s, hs, rfl⟩ u
          rw [hmem u, hf.attendance s hs u]
          simp
  | multiplier user now =>
      obtain ⟨cache, heq, hcache⟩ := t.multiplier_cases user now
      simp only [StreamTracker.apply, StreamHistory.apply, heq]
      refine ⟨hf.current, hf.attendance, hf.previous, hf.streaks, fun u c hc => ?_⟩
      rcases hcache u c hc with hold | ⟨rfl, rfl⟩
      · exact hf.cache u c hold
      · exact hf.streakCount_eq u
  | closeStream => exact hf.close hids

/-- And so does every run of operations. -/
theorem run
    (hf : TracksHistory t h) (ops : List StreamOp)
    (hids : (h.run ops).ids.Nodup) :
    TracksHistory (t.run ops) (h.run ops) := by
  induction ops generalizing t h with
  | nil => exact hf
  | cons op ops ih =>
      have hnodup : (h.apply op).ids.Nodup := by
        rw [show h.run (op :: ops) = (h.apply op).run ops from rfl,
          StreamHistory.ids_run] at hids
        exact hids.of_append_right
      refine ih (hf.apply ?_ op) hids
      rw [StreamHistory.ids_apply] at hnodup
      exact hnodup.of_append_right

/-- A close stores the count that the open stream continues. -/
theorem lookup_closing
    {cur u : String} {op : StreamOp}
    (hopen : t.currentStreamUuid = some cur)
    (hu : u ∈ t.attendance)
    (hop : ¬ op.DuringStream) :
    (t.apply op).streaks.lookup u =
      some (cur, continuedCount t.previousStreamUuid t.streaks u) := by
  obtain ⟨streaks, hclose, hlookup⟩ := StreamTracker.closeStream_of_some hopen
  have hstreaks : (t.apply op).streaks = streaks := by
    cases op with
    | openStream uuid now =>
        simp [StreamTracker.apply, StreamTracker.openStream, hopen, hclose]
    | closeStream => simp [StreamTracker.apply, hclose]
    | _ => exact absurd trivial hop
  rw [hstreaks, hlookup u, if_pos hu]

end TracksHistory

section During

variable {t : StreamTracker}

/-- What happens during a stream keeps what its close continues. -/
theorem kept_during
    {op : StreamOp} (hop : op.DuringStream) :
    (t.apply op).currentStreamUuid = t.currentStreamUuid ∧
      (t.apply op).previousStreamUuid = t.previousStreamUuid ∧
      (t.apply op).streaks = t.streaks := by
  cases op with
  | noteAttendance user now =>
      simp only [StreamTracker.apply]
      rcases t.noteAttendance_cases user now with ⟨-, heq⟩ | ⟨-, -, _, heq, -⟩ <;>
        simp [heq]
  | multiplier user now =>
      obtain ⟨_, heq, -⟩ := t.multiplier_cases user now
      simp [StreamTracker.apply, heq]
  | _ => exact hop.elim

theorem kept_run_during
    {during : List StreamOp} (hduring : ∀ op ∈ during, op.DuringStream) :
    (t.run during).currentStreamUuid = t.currentStreamUuid ∧
      (t.run during).previousStreamUuid = t.previousStreamUuid ∧
      (t.run during).streaks = t.streaks := by
  induction during generalizing t with
  | nil => exact ⟨rfl, rfl, rfl⟩
  | cons op during ih =>
      obtain ⟨hop, hrest⟩ := List.forall_mem_cons.mp hduring
      obtain ⟨hcur, hprev, hstreaks⟩ := kept_during (t := t) hop
      obtain ⟨hcur', hprev', hstreaks'⟩ := ih (t := t.apply op) hrest
      exact ⟨hcur'.trans hcur, hprev'.trans hprev, hstreaks'.trans hstreaks⟩

end During

/-- **Main theorem.** Let every opened stream get an id of its own.  Then the
stored count of a user who attended a closed stream is the length of the run of
consecutive closed streams that ends with the last one they attended; and the
count that is shown to a user while a stream is open is the one that the close
of this stream, by itself or by the next opening, stores for the user if they
have been seen in it by then. -/
theorem streak_meaning
    (ops : List StreamOp)
    (hfresh : (opened ops).Nodup) :
    (∀ user, (∃ s ∈ (StreamHistory.run {} ops).closed, user ∈ s.attendees) →
      ((StreamTracker.run {} ops).streaks.lookup user).map (·.2) =
        some (lastRun user (StreamHistory.run {} ops).closed : Int)) ∧
    ∀ cur, (StreamTracker.run {} ops).currentStreamUuid = some cur →
      ∀ during : List StreamOp, (∀ op ∈ during, op.DuringStream) →
        ∀ closing : StreamOp, ¬ closing.DuringStream →
          ∀ user now, user ∈ (StreamTracker.run {} (ops ++ during)).attendance →
            (StreamTracker.run {} (ops ++ during ++ [closing])).streaks.lookup user =
              some (cur, ((StreamTracker.run {} ops).multiplier user now).2.1) := by
  have hids : (StreamHistory.run {} ops).ids.Nodup := by
    rw [StreamHistory.ids_run]
    simpa [StreamHistory.ids] using hfresh
  have hf : TracksHistory (StreamTracker.run {} ops) (StreamHistory.run {} ops) :=
    TracksHistory.empty.run ops hids
  constructor
  · rintro user ⟨s, hs, hmem⟩
    rw [hf.streaks user]
    cases hlast : sinceLast user (StreamHistory.run {} ops).closed with
    | nil => exact absurd hmem (sinceLast_eq_nil_iff.mp hlast s hs)
    | cons => simp
  · intro cur hcur during hduring closing hclosing user now huser
    have hrun : StreamTracker.run {} (ops ++ during) =
        (StreamTracker.run {} ops).run during := List.foldl_append
    obtain ⟨hcur', hprev, hstreaks⟩ :=
      kept_run_during (t := StreamTracker.run {} ops) hduring
    rw [hrun] at huser
    have hclose := TracksHistory.lookup_closing (hcur'.trans hcur) huser hclosing
    have hshown : ((StreamTracker.run {} ops).multiplier user now).2.1 =
        (StreamTracker.run {} ops).streakCount user := by
      simp [StreamTracker.multiplier, hcur]
    rw [hshown, hf.streakCount_eq user, ← hprev, ← hstreaks, ← hclose]
    simp [StreamTracker.run, List.foldl_append]

/-- Two streams that alice attends, with her count shown in the second. -/
theorem streak_meaning_alice :
    ((StreamTracker.run {} [.openStream "one" 0, .noteAttendance "alice" 1,
        .closeStream, .openStream "two" 2, .noteAttendance "alice" 3,
        .closeStream]).streaks.lookup "alice").map (·.2) = some 2 :=
  (streak_meaning _ (by decide)).1 "alice" (by decide)

end CockatielEngine
