import CockatielEngine.Streams.StreakStore

/-!
# Streams: restarting the engine between two streams

Start-up reads the streaks back, but not which stream was the previous one.  A
streak continues when its last stream is the previous one, so in the first
stream after a restart nobody's does.

**Main result.**  A restart between two streams changes nothing that the engine
shows or stores of the later streams exactly when there is no later stream or
nobody attended the last one before it.
-/

namespace CockatielEngine

open Sessions

/-- Shutting down closes and persists what is open; start-up reads the table. -/
def StreakStore.restart (s : StreakStore) : StreakStore :=
  .boot s.endStream.rows

/-- Both trackers show every user the same count and the same factor, and the
close of the open stream would store the same. -/
structure SameStreaks (t t' : StreamTracker) : Prop where
  shown : ∀ user now, (t.multiplier user now).2 = (t'.multiplier user now).2
  stored : t.closeStream.2 = t'.closeStream.2

/-- Whatever comes after the restart, the streaks are those of the run without
it. -/
def StreakStore.RestartsUnseen (s : StreakStore) (later : List StreakEvent) : Prop :=
  ∀ before after, later = before ++ after →
    SameStreaks (s.run before).tracker (s.restart.run before).tracker

/-- The two trackers have the same open stream and continue the same streaks. -/
structure Matches (t t' : StreamTracker) : Prop where
  current : t.currentStreamUuid = t'.currentStreamUuid
  inStream : t.currentStreamUuid ≠ none →
    t.startedMs = t'.startedMs ∧ t.attendance = t'.attendance ∧
      t.streamStreakCache = t'.streamStreakCache
  continued : ∀ user,
    continuedCount t.previousStreamUuid t.streaks user =
      continuedCount t'.previousStreamUuid t'.streaks user

section Steps

variable {t t' : StreamTracker} {cur : String}

/-- After a close the streaks of the users who have been seen continue, and no
others. -/
theorem continuedCount_closeStream
    (hcur : t.currentStreamUuid = some cur)
    (hunused : ∀ user count, t.streaks.lookup user ≠ some (cur, count))
    (user : String) :
    continuedCount t.closeStream.1.previousStreamUuid t.closeStream.1.streaks user =
      if user ∈ t.attendance then
        continuedCount t.previousStreamUuid t.streaks user + 1
      else 1 := by
  obtain ⟨streaks, hclose, hlookup⟩ := StreamTracker.closeStream_of_some hcur
  rw [hclose, continuedCount, hlookup user]
  by_cases huser : user ∈ t.attendance
  · simp [huser]
  · cases hold : t.streaks.lookup user with
    | none => simp [huser]
    | some streak =>
        obtain ⟨last, count⟩ := streak
        have hlast : last ≠ cur := by
          rintro rfl
          exact hunused user count hold
        simp [huser, hlast]

/-- Without an open stream there is nothing to show or to store. -/
theorem SameStreaks.of_none
    (hcur : t.currentStreamUuid = none) (hcur' : t'.currentStreamUuid = none) :
    SameStreaks t t' where
  shown user now := by simp [StreamTracker.multiplier, hcur, hcur']
  stored := by
    rw [StreamTracker.closeStream_of_none hcur,
      StreamTracker.closeStream_of_none hcur']

/-- The count that a stream shows which has just been opened. -/
theorem shown_openStream
    (hidle : t.currentStreamUuid = none) (uuid user : String) (now at_ : Int) :
    ((t.openStream uuid now).multiplier user at_).2.1 =
      continuedCount t.previousStreamUuid t.streaks user := by
  simp [StreamTracker.openStream, hidle, StreamTracker.multiplier,
    StreamTracker.streakCount]

/-- With no previous stream every streak begins anew. -/
theorem continuedCount_none (streaks : Streaks) (user : String) :
    continuedCount none streaks user = 1 := by
  unfold continuedCount
  split
  · simp
  · rfl

namespace Matches

theorem closeStream
    (h : Matches t t')
    (hunused : ∀ cur ∈ t.currentStreamUuid, ∀ user count,
      t.streaks.lookup user ≠ some (cur, count) ∧
        t'.streaks.lookup user ≠ some (cur, count)) :
    Matches t.closeStream.1 t'.closeStream.1 := by
  cases hcur : t.currentStreamUuid with
  | none =>
      rw [StreamTracker.closeStream_of_none hcur,
        StreamTracker.closeStream_of_none (h.current ▸ hcur)]
      exact h
  | some cur =>
      have hcur' : t'.currentStreamUuid = some cur := h.current ▸ hcur
      have hun := hunused cur hcur
      obtain ⟨-, hattendance, -⟩ := h.inStream (by simp [hcur])
      obtain ⟨_, hclose, -⟩ := StreamTracker.closeStream_of_some hcur
      obtain ⟨_, hclose', -⟩ := StreamTracker.closeStream_of_some hcur'
      refine ⟨by simp [hclose, hclose'], by simp [hclose], fun user => ?_⟩
      rw [continuedCount_closeStream hcur fun u c => (hun u c).1,
        continuedCount_closeStream hcur' fun u c => (hun u c).2, hattendance,
        h.continued user]

/-- Matching trackers go on matching. -/
theorem apply
    (h : Matches t t') (op : StreamOp)
    (hunused : ∀ cur ∈ t.currentStreamUuid, ∀ user count,
      t.streaks.lookup user ≠ some (cur, count) ∧
        t'.streaks.lookup user ≠ some (cur, count)) :
    Matches (t.apply op) (t'.apply op) := by
  cases op with
  | openStream uuid now =>
      have hclosed : Matches
          (if t.currentStreamUuid.isSome then t.closeStream.1 else t)
          (if t'.currentStreamUuid.isSome then t'.closeStream.1 else t') := by
        rw [← h.current]
        split
        · exact h.closeStream hunused
        · exact h
      exact ⟨rfl, fun _ => ⟨rfl, rfl, rfl⟩, hclosed.continued⟩
  | noteAttendance user now =>
      simp only [StreamTracker.apply]
      by_cases hopen : t.currentStreamUuid = none
      · have hnoop : t.noteAttendance user now = t := by
          simp [StreamTracker.noteAttendance, hopen]
        have hnoop' : t'.noteAttendance user now = t' := by
          simp [StreamTracker.noteAttendance, ← h.current, hopen]
        rwa [hnoop, hnoop']
      · obtain ⟨hstarted, hattendance, hcache⟩ := h.inStream hopen
        unfold StreamTracker.noteAttendance
        rw [← h.current, ← hattendance]
        split
        · exact h
        · split
          · split
            · exact ⟨rfl, fun _ => ⟨hstarted, rfl, hcache⟩, h.continued⟩
            · exact h
          · exact ⟨rfl, fun _ => ⟨hstarted, rfl, hcache⟩, h.continued⟩
  | multiplier user now =>
      simp only [StreamTracker.apply, StreamTracker.multiplier]
      rw [← h.current]
      split
      · exact h
      · rename_i hopen
        obtain ⟨hstarted, hattendance, hcache⟩ := h.inStream hopen
        have hcount : t.streakCount user = t'.streakCount user := by
          unfold StreamTracker.streakCount
          rw [hcache, h.continued user]
        refine ⟨rfl, fun _ => ⟨hstarted, hattendance, ?_⟩, h.continued⟩
        simp only [hcache, hcount]
  | closeStream => exact h.closeStream hunused

/-- Matching trackers show and store the same. -/
theorem sameStreaks (h : Matches t t') : SameStreaks t t' := by
  cases hcur : t.currentStreamUuid with
  | none => exact .of_none hcur (h.current ▸ hcur)
  | some cur =>
      have hcur' : t'.currentStreamUuid = some cur := h.current ▸ hcur
      obtain ⟨hstarted, hattendance, hcache⟩ := h.inStream (by simp [hcur])
      refine ⟨fun user now => ?_, ?_⟩
      · simp [StreamTracker.multiplier, hcur, hcur', StreamTracker.streakCount,
          StreamTracker.activity, hstarted, hattendance, hcache, h.continued user]
      · rw [StreamTracker.rows_closeStream hcur, StreamTracker.rows_closeStream hcur',
          hattendance]
        simp only [h.continued]

end Matches

end Steps

section Runs

variable {s s' : StreakStore} {evs : List StreakEvent}

/-- No streak is of the open stream or of one to come. -/
theorem StreakStore.Fresh.unused_current
    (h : s.Fresh evs) :
    ∀ cur ∈ s.tracker.currentStreamUuid, ∀ user count,
      s.tracker.streaks.lookup user ≠ some (cur, count) := by
  intro cur hcur user count hlookup
  refine h.unused user (cur, count) (Or.inl hlookup) ?_
  exact List.mem_append_left _ (Option.mem_toList.mpr hcur)

theorem Matches.run
    {before after : List StreakEvent}
    (h : Matches s.tracker s'.tracker)
    (hfresh : s.Fresh (before ++ after)) (hfresh' : s'.Fresh (before ++ after)) :
    Matches (s.run before).tracker (s'.run before).tracker := by
  induction before generalizing s s' with
  | nil => exact h
  | cons ev before ih =>
      refine ih ?_ hfresh.apply hfresh'.apply
      rw [StreakStore.tracker_apply, StreakStore.tracker_apply]
      cases ev.op with
      | none => exact h
      | some op =>
          refine h.apply op fun cur hcur user count => ⟨?_, ?_⟩
          · exact hfresh.unused_current cur hcur user count
          · exact hfresh'.unused_current cur (h.current ▸ hcur) user count

/-- Between two streams a restart reads back what is there. -/
theorem StreakStore.restart_of_none
    (hidle : s.tracker.currentStreamUuid = none) :
    s.restart = .boot s.rows := by
  simp [restart, endStream, StreamTracker.closeStream_of_none hidle]

theorem StreakStore.Fresh.restart
    (h : s.Fresh evs) (hidle : s.tracker.currentStreamUuid = none) :
    s.restart.Fresh evs := by
  rw [StreakStore.restart_of_none hidle]
  refine h.of_sublist ?_ fun user streak hknows => Or.inl (Or.inr ?_)
  · exact List.sublist_append_right _ _
  · rcases hknows with hknows | hknows
    · exact (StreakStore.persisted_boot s.rows user).trans hknows
    · exact hknows

/-- While no stream is open, an event that opens none keeps the streaks. -/
theorem kept_idle
    (hidle : s.tracker.currentStreamUuid = none)
    (hnone : opened (evs.filterMap StreakEvent.op) = []) :
    (s.run evs).tracker.currentStreamUuid = none ∧
      (s.run evs).tracker.previousStreamUuid = s.tracker.previousStreamUuid ∧
      (s.run evs).tracker.streaks = s.tracker.streaks := by
  rw [StreakStore.tracker_run]
  generalize evs.filterMap StreakEvent.op = ops at hnone
  generalize s.tracker = t at hidle
  induction ops generalizing t with
  | nil => exact ⟨hidle, rfl, rfl⟩
  | cons op ops ih =>
      have hop : op.opens = none ∧ opened ops = [] := by
        cases hopens : op.opens <;> simp_all [opened]
      have hstep : t.apply op = t := by
        cases op with
        | openStream uuid now => cases hop.1
        | noteAttendance user now =>
            simp [StreamTracker.apply, StreamTracker.noteAttendance, hidle]
        | multiplier user now =>
            simp [StreamTracker.apply, StreamTracker.multiplier, hidle]
        | closeStream =>
            simp [StreamTracker.apply, StreamTracker.closeStream_of_none hidle]
      rw [show t.run (op :: ops) = (t.apply op).run ops from rfl, hstep]
      exact ih hop.2 t hidle

/-- The first event that opens a stream. -/
theorem exists_first_opening
    (hsome : opened (evs.filterMap StreakEvent.op) ≠ []) :
    ∃ before ev after uuid now,
      evs = before ++ ev :: after ∧
      opened (before.filterMap StreakEvent.op) = [] ∧
      ev.op = some (.openStream uuid now) := by
  induction evs with
  | nil => exact absurd rfl hsome
  | cons ev evs ih =>
      by_cases hopens : ev.op.bind StreamOp.opens = none
      · have hrest : opened (evs.filterMap StreakEvent.op) ≠ [] := by
          cases hop : ev.op with
          | none => simpa [hop] using hsome
          | some op =>
              have hnone : op.opens = none := by simpa [hop] using hopens
              simpa [hop, opened, hnone] using hsome
        obtain ⟨before, ev', after, uuid, now, rfl, hbefore, hev⟩ := ih hrest
        refine ⟨ev :: before, ev', after, uuid, now, rfl, ?_, hev⟩
        cases hop : ev.op with
        | none => simpa [hop] using hbefore
        | some op =>
            have hnone : op.opens = none := by simpa [hop] using hopens
            simpa [hop, opened, hnone] using hbefore
      · obtain ⟨op, hop, uuid, now, rfl⟩ :
            ∃ op, ev.op = some op ∧ ∃ uuid now, op = .openStream uuid now := by
          cases hop : ev.op with
          | none => simp [hop] at hopens
          | some op => cases op <;> simp_all [StreamOp.opens]
        exact ⟨[], ev, evs, uuid, now, rfl, rfl, hop⟩

end Runs

/-- **Main theorem.** Take any run from an empty store in which every stream
gets an id of its own, and restart the engine at a moment when no stream is
open.  In all that follows, every user is shown the same counts and factors and
every close stores the same rows as without the restart, exactly when no stream
follows or nobody attended the last stream that was closed before it. -/
theorem restart_unseen_iff
    (evs later : List StreakEvent)
    (hnodup : (opened ((evs ++ later).filterMap StreakEvent.op)).Nodup)
    (hidle : (StreakStore.run {} evs).tracker.currentStreamUuid = none) :
    (StreakStore.run {} evs).RestartsUnseen later ↔
      opened (later.filterMap StreakEvent.op) = [] ∨
      ∀ s ∈ (StreamHistory.run {} (evs.filterMap StreakEvent.op)).closed.head?,
        s.attendees = ∅ := by
  have hboot : (StreakStore.boot ∅).Fresh (evs ++ later) :=
    StreakStore.fresh_boot hnodup (by simp)
  have hfresh : (StreakStore.run {} evs).Fresh later := hboot.run
  have hids : (StreamHistory.run {} (evs.filterMap StreakEvent.op)).ids.Nodup := by
    rw [StreamHistory.ids_run]
    rw [List.filterMap_append, opened_append] at hnodup
    simpa [StreamHistory.ids] using hnodup.of_append_left
  have hcount (user : String) :
      continuedCount (StreakStore.run {} evs).tracker.previousStreamUuid
          (StreakStore.run {} evs).tracker.streaks user =
        currentRun user
          (StreamHistory.run {} (evs.filterMap StreakEvent.op)).closed + 1 := by
    rw [StreakStore.tracker_run]
    exact (TracksHistory.empty.run _ hids).continuedCount_eq hids user
  have hrestart := StreakStore.restart_of_none hidle
  generalize StreakStore.run {} evs = s at hfresh hidle hcount hrestart ⊢
  generalize (StreamHistory.run {} (evs.filterMap StreakEvent.op)).closed = closed
    at hcount ⊢
  have hidle' : s.restart.tracker.currentStreamUuid = none := by rw [hrestart]; rfl
  constructor
  · intro hunseen
    by_contra hseen
    obtain ⟨hopens, hattended⟩ := not_or.mp hseen
    obtain ⟨before, ev, after, uuid, now, rfl, hbefore, hev⟩ :=
      exists_first_opening hopens
    obtain ⟨stream, rest, hclosed, user, huser⟩ : ∃ stream rest,
        closed = stream :: rest ∧ ∃ user, user ∈ stream.attendees := by
      cases closed with
      | nil => simp at hattended
      | cons stream rest =>
          refine ⟨stream, rest, rfl, Finset.nonempty_iff_ne_empty.mpr fun hnobody => ?_⟩
          exact hattended (by simpa using hnobody)
    have hrun (s : StreakStore) : (s.run (before ++ [ev])).tracker =
        (s.run before).tracker.openStream uuid now := by
      have hstep : s.run (before ++ [ev]) = (s.run before).apply ev := by
        simp [StreakStore.run]
      rw [hstep, StreakStore.tracker_apply, hev]
      rfl
    have hshown := congrArg Prod.fst
      ((hunseen (before ++ [ev]) after (by simp)).shown user now)
    obtain ⟨hcur, hprev, hstreaks⟩ := kept_idle hidle hbefore
    obtain ⟨hcur', hprev', hstreaks'⟩ := kept_idle hidle' hbefore
    rw [hrun, hrun, shown_openStream hcur, shown_openStream hcur', hprev, hstreaks,
      hprev', hstreaks', hcount, hrestart, hclosed, currentRun_cons, if_pos huser]
      at hshown
    have hone := continuedCount_none
      (StreakStore.boot s.rows).tracker.streaks user
    have hboot : (StreakStore.boot s.rows).tracker.previousStreamUuid = none := rfl
    rw [hboot, hone] at hshown
    omega
  · rintro (hnone | hnobody) before after rfl
    · have hbefore : opened (before.filterMap StreakEvent.op) = [] := by
        rw [List.filterMap_append, opened_append] at hnone
        exact (List.append_eq_nil_iff.mp hnone).1
      exact .of_none (kept_idle hidle hbefore).1 (kept_idle hidle' hbefore).1
    · have hzero (user : String) : currentRun user closed = 0 := by
        cases closed with
        | nil => rfl
        | cons stream rest =>
            rw [currentRun_cons, hnobody stream rfl]
            rfl
      have hmatch : Matches s.tracker s.restart.tracker := by
        refine ⟨hidle.trans hidle'.symm, fun hopen => absurd hidle hopen, fun user => ?_⟩
        rw [hcount, hzero, hrestart]
        exact (continuedCount_none _ user).symm
      exact (hmatch.run hfresh (hfresh.restart hidle)).sameStreaks

/-- Alice attends a stream, the engine restarts, and the next stream starts. -/
def aliceReturns : List StreakEvent × List StreakEvent :=
  ([.log "[stream-start]" "one" 0, .noteAttendance "alice" 1,
      .log "[stream-end]" "" 2],
    [.log "[stream-start]" "two" 3])

theorem restart_unseen_iff_aliceReturns :
    ¬ (StreakStore.run {} aliceReturns.1).RestartsUnseen aliceReturns.2 :=
  fun hunseen => absurd
    ((restart_unseen_iff aliceReturns.1 aliceReturns.2 (by decide)
      (by decide)).mp hunseen)
    (by decide)

/-- She is shown a streak of one stream after the restart, and of two without
it. -/
theorem aliceReturns_restart :
    ((StreakStore.run {} (aliceReturns.1 ++ aliceReturns.2)).tracker.multiplier
        "alice" 4).2.1 = 2 ∧
      ¬ (StreakStore.run {} aliceReturns.1).RestartsUnseen aliceReturns.2 := by
  refine ⟨by decide, fun hunseen => ?_⟩
  exact absurd ((hunseen aliceReturns.2 [] (by simp)).shown "alice" 4) (by decide)

end CockatielEngine
