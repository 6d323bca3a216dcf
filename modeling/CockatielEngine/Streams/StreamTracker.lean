import CockatielEngine.Streams.SessionRuns
import Mathlib.Data.List.AList

/-!
# Streams: the tracker

The tracker keeps the open stream with those who have been seen in it, each
user's streak with the stream that last counted for it, and a cache of the
counts it has reported during the open stream.

The counts and the times are 64-bit integers in the source; a count would need
as many streams to leave that range.
-/

namespace CockatielEngine

/-- A user's streak, as it is persisted: the user, the stream, the count. -/
abbrev StreakRow := String × String × Int

/-- The streaks: the last stream of each user and the consecutive count. -/
abbrev Streaks := AList fun _ : String => String × Int

/-- The streak factor of a count. -/
def streakMultiplier (streakCount : Int) : Float32 :=
  min (1.0 + 0.1 * (Float32.ofInt (max streakCount 1) - 1.0)) 2.0

def clamp (x low high : Float32) : Float32 :=
  if x < low then low else if high < x then high else x

/-- The activity factor of somebody seen first at `firstSeenMs`. -/
def activityMultiplier (nowMs firstSeenMs startedMs : Int) : Float32 :=
  let elapsed := Float32.ofInt (max (nowMs - startedMs) 1)
  let presence := clamp (Float32.ofInt (nowMs - firstSeenMs) / elapsed) 0.0 1.0
  min (1.0 + presence) 2.0

def combinedMultiplier (streakMult activityMult : Float32) : Float32 :=
  min (streakMult * activityMult) 4.0

structure StreamTracker where
  currentStreamUuid : Option String := none
  startedMs : Int := 0
  previousStreamUuid : Option String := none
  /-- When each user was first and last seen in the open stream. -/
  attendance : AList (fun _ : String => Int × Int) := ∅
  streaks : Streaks := ∅
  streamStreakCache : AList (fun _ : String => Int) := ∅

/-- The count that a stream would give the user: it continues the streak when
the streak's last stream is the previous one. -/
def continuedCount (previous : Option String) (streaks : Streaks) (user : String) :
    Int :=
  match streaks.lookup user with
  | some (last, count) => if some last = previous then count + 1 else 1
  | none => 1

/-- The loop of a close over the users seen in the stream. -/
def advanceStreaks (previous : Option String) (cur : String) :
    List String → Streaks → Streaks × List StreakRow
  | [], streaks => (streaks, [])
  | user :: users, streaks =>
      let count := continuedCount previous streaks user
      let r := advanceStreaks previous cur users (streaks.insert user (cur, count))
      (r.1, (user, cur, count) :: r.2)

namespace StreamTracker

/-- The streaks that start-up reads from the database. -/
def loadStreaks (t : StreamTracker) (rows : List StreakRow) : StreamTracker :=
  { t with streaks := rows.foldl (fun streaks r => streaks.insert r.1 r.2) t.streaks }

def closeStream (t : StreamTracker) : StreamTracker × List StreakRow :=
  match t.currentStreamUuid with
  | none => (t, [])
  | some cur =>
      let r := advanceStreaks t.previousStreamUuid cur t.attendance.keys t.streaks
      ({ t with
          currentStreamUuid := none
          previousStreamUuid := some cur
          attendance := ∅
          streaks := r.1
          streamStreakCache := ∅ }, r.2)

/-- A stream that is still open is closed first, without its rows. -/
def openStream (t : StreamTracker) (uuid : String) (now : Int) : StreamTracker :=
  { (if t.currentStreamUuid.isSome then t.closeStream.1 else t) with
    currentStreamUuid := some uuid
    startedMs := now
    attendance := ∅
    streamStreakCache := ∅ }

def noteAttendance (t : StreamTracker) (user : String) (now : Int) : StreamTracker :=
  if t.currentStreamUuid = none ∨ user = "" then t
  else
    match t.attendance.lookup user with
    | some (first, last) =>
        if last < now then
          { t with attendance := t.attendance.insert user (first, now) }
        else t
    | none => { t with attendance := t.attendance.insert user (now, now) }

/-- The count of the user's streak, as the open stream shows it. -/
def streakCount (t : StreamTracker) (user : String) : Int :=
  match t.streamStreakCache.lookup user with
  | some c => c
  | none => continuedCount t.previousStreamUuid t.streaks user

/-- The activity factor, neutral for a user who has not been seen. -/
def activity (t : StreamTracker) (user : String) (now : Int) : Float32 :=
  match t.attendance.lookup user with
  | some (firstSeen, _) => activityMultiplier now firstSeen t.startedMs
  | none => 1.0

/-- The count and the combined factor; the count is cached for the stream. -/
def multiplier (t : StreamTracker) (user : String) (now : Int) :
    StreamTracker × Int × Float32 :=
  if t.currentStreamUuid = none then (t, 0, 1.0)
  else
    let count := t.streakCount user
    ({ t with
        streamStreakCache :=
          if (t.streamStreakCache.lookup user).isSome then t.streamStreakCache
          else t.streamStreakCache.insert user count },
      count, combinedMultiplier (streakMultiplier count) (t.activity user now))

end StreamTracker

/-- The operations on the tracker, an opened stream with the id it is given. -/
inductive StreamOp where
  | openStream (uuid : String) (now : Int)
  | noteAttendance (user : String) (now : Int)
  | multiplier (user : String) (now : Int)
  | closeStream
deriving DecidableEq, Repr

namespace StreamTracker

def apply (t : StreamTracker) : StreamOp → StreamTracker
  | .openStream uuid now => t.openStream uuid now
  | .noteAttendance user now => t.noteAttendance user now
  | .multiplier user now => (t.multiplier user now).1
  | .closeStream => t.closeStream.1

def run (t : StreamTracker) (ops : List StreamOp) : StreamTracker :=
  ops.foldl apply t

end StreamTracker

end CockatielEngine
