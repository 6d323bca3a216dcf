import CockatielEngine.Maps.Bindings
import Mathlib.Data.List.DropRight

/-!
# Connections: the failed-PIN tracker

Wrong PINs are counted by the peer's address and the name that it claims.  Five
of them in a row lock that identity out for a minute, and a right PIN clears it.

The table is bounded: a wrong PIN that finds it full first drops every record
that is not locked, whosever it is.  A count that is dropped starts again, so a
lockout can be kept off by filling the table.
-/

namespace CockatielEngine

inductive IpAddr where
  | v4 (bits : BitVec 32)
  | v6 (bits : BitVec 128)
deriving DecidableEq

structure PinIdentity where
  ip : IpAddr
  name : String
deriving DecidableEq

structure PinAttempt where
  failures : Nat := 0
  lockedUntilMs : Int := 0
deriving DecidableEq, Repr

/-- The records by identity; none has two. -/
structure PinGate where
  inner : List (PinIdentity × PinAttempt) := []
  keys : (inner.map Prod.fst).Nodup := by simp

/-- The largest count of failures, at which it stays. -/
def maxFailures : Nat := 2 ^ 32 - 1

/-- One more wrong PIN on a record. -/
def PinAttempt.wrongPin (a : PinAttempt) (now : Int) : PinAttempt :=
  let failures := min (a.failures + 1) maxFailures
  { failures := failures
    lockedUntilMs := if 5 ≤ failures then now + 60000 else a.lockedUntilMs }

namespace PinGate

def attempt? (g : PinGate) (i : PinIdentity) : Option PinAttempt :=
  Bindings.lookup g.inner i

/-- Whether the identity may try a PIN now. -/
def check (g : PinGate) (i : PinIdentity) (now : Int) : Bool :=
  match g.attempt? i with
  | some attempt => decide (attempt.lockedUntilMs ≤ now)
  | none => true

/-- A full table keeps only the records that are locked. -/
def makeRoom (g : PinGate) (now : Int) : PinGate :=
  if 4096 ≤ g.inner.length then
    ⟨g.inner.filter fun b => decide (now < b.2.lockedUntilMs),
      Bindings.nodup_filter _ g.keys⟩
  else g

def recordFailure (g : PinGate) (i : PinIdentity) (now : Int) : PinGate :=
  let g := g.makeRoom now
  ⟨Bindings.insert g.inner i (((g.attempt? i).getD {}).wrongPin now),
    Bindings.nodup_insert g.keys⟩

def recordSuccess (g : PinGate) (i : PinIdentity) : PinGate :=
  ⟨Bindings.erase g.inner i, Bindings.nodup_filter _ g.keys⟩

end PinGate

inductive PinOp where
  | check
  | recordFailure
  | recordSuccess
deriving DecidableEq, Repr

/-- A call of the gate, with the time that it has read before it takes the
lock. -/
structure PinCall where
  now : Int
  identity : PinIdentity
  op : PinOp

namespace PinGate

def step (g : PinGate) (c : PinCall) : PinGate :=
  match c.op with
  | .check => g
  | .recordFailure => g.recordFailure c.identity c.now
  | .recordSuccess => g.recordSuccess c.identity

/-- The gate after calls, in the order in which they have taken the lock. -/
def after (calls : List PinCall) : PinGate :=
  calls.foldl step {}

end PinGate

/-- When an identity has given wrong PINs since its last right one, the latest
first. -/
def wrongPins (i : PinIdentity) (calls : List PinCall) : List Int :=
  calls.foldl (fun ts c =>
    if c.identity ≠ i then ts
    else
      match c.op with
      | .check => ts
      | .recordFailure => c.now :: ts
      | .recordSuccess => []) []

/-- The gate counts the identity's own wrong PINs in a row, and refuses it for a
minute after the fifth and after every further one. -/
structure LocksOut (i : PinIdentity) (calls : List PinCall) : Prop where
  counts : (((PinGate.after calls).attempt? i).map (·.failures)).getD 0 =
    min (wrongPins i calls).length maxFailures
  refuses : ∀ t ∈ (wrongPins i calls).rdrop 4, ∀ now < t + 60000,
    (PinGate.after calls).check i now = false

/-- A call neither drops the identity's count with others to make room nor,
delayed at the lock, gives a locked identity an older lockout. -/
structure KeepsRecord (i : PinIdentity) (g : PinGate) (c : PinCall) : Prop where
  room : c.op = .recordFailure → 4096 ≤ g.inner.length →
    ∀ a ∈ g.attempt? i, c.now < a.lockedUntilMs
  inTurn : c.op = .recordFailure → c.identity = i →
    ∀ a ∈ g.attempt? i, 5 ≤ a.failures → a.lockedUntilMs ≤ c.now + 60000

section Steps

variable {g : PinGate} {i j : PinIdentity} {now : Int} {calls : List PinCall}
variable {c : PinCall}

@[simp] theorem wrongPins_nil : wrongPins i [] = [] := rfl

theorem wrongPins_concat :
    wrongPins i (calls ++ [c]) =
      if c.identity ≠ i then wrongPins i calls
      else
        match c.op with
        | .check => wrongPins i calls
        | .recordFailure => c.now :: wrongPins i calls
        | .recordSuccess => [] := by
  simp [wrongPins]

namespace PinGate

@[simp] theorem after_nil : after [] = {} := rfl

@[simp] theorem after_concat : after (calls ++ [c]) = (after calls).step c := by
  simp [after]

@[simp] theorem attempt?_default : ({} : PinGate).attempt? i = none := rfl

/-- Room is made at the cost of the records that are not locked. -/
theorem attempt?_makeRoom :
    (g.makeRoom now).attempt? i =
      if 4096 ≤ g.inner.length then
        (g.attempt? i).filter fun a => decide (now < a.lockedUntilMs)
      else g.attempt? i := by
  unfold makeRoom
  split
  · exact Bindings.lookup_filter_value (fun a => decide (now < a.lockedUntilMs)) g.keys
  · rfl

theorem attempt?_recordFailure :
    (g.recordFailure i now).attempt? j =
      if j = i then some ((((g.makeRoom now).attempt? i).getD {}).wrongPin now)
      else (g.makeRoom now).attempt? j := by
  simp only [recordFailure, attempt?, Bindings.lookup_insert]

theorem attempt?_recordSuccess :
    (g.recordSuccess i).attempt? j = if j = i then none else g.attempt? j := by
  simp only [recordSuccess, attempt?, Bindings.lookup_erase]

/-- A call that has room leaves the record of everybody else alone. -/
theorem attempt?_step_of_ne
    (hne : c.identity ≠ i)
    (hroom : c.op = .recordFailure → (g.makeRoom c.now).attempt? i = g.attempt? i) :
    (g.step c).attempt? i = g.attempt? i := by
  unfold step
  cases hop : c.op with
  | check => rfl
  | recordFailure =>
      simp only [attempt?_recordFailure, if_neg hne.symm]
      exact hroom hop
  | recordSuccess => simp only [attempt?_recordSuccess, if_neg hne.symm]

end PinGate

/-- A record that is locked, or that is not there, is not dropped for room. -/
theorem attempt?_makeRoom_of_locked
    (h : 4096 ≤ g.inner.length → ∀ a ∈ g.attempt? i, now < a.lockedUntilMs) :
    (g.makeRoom now).attempt? i = g.attempt? i := by
  rw [PinGate.attempt?_makeRoom]
  split
  · rename_i hfull
    cases hrecord : g.attempt? i with
    | none => rfl
    | some a =>
        exact Option.filter_eq_some_iff.mpr ⟨rfl, by simpa using h hfull a hrecord⟩
  · rfl

end Steps

/-! ## What an identity's own calls make of its record -/

/-- The record after wrong PINs in a row. -/
def ownRecord : List Int → Option PinAttempt
  | [] => none
  | t :: ts =>
      some
        { failures := min (ts.length + 1) maxFailures
          lockedUntilMs := if 5 ≤ ts.length + 1 then t + 60000 else 0 }

section Runs

variable {i : PinIdentity} {calls : List PinCall} {c : PinCall} {t : Int}
variable {ts : List Int}

theorem wrongPin_ownRecord :
    some (((ownRecord ts).getD {}).wrongPin t) = ownRecord (t :: ts) := by
  cases ts with
  | nil => simp [ownRecord, PinAttempt.wrongPin, maxFailures]
  | cons s ts =>
      have hlength : min (min (ts.length + 1) maxFailures + 1) maxFailures =
          min (ts.length + 1 + 1) maxFailures := by
        omega
      simp only [ownRecord, Option.getD_some, PinAttempt.wrongPin, hlength,
        List.length_cons, Option.some.injEq, PinAttempt.mk.injEq, true_and]
      by_cases hfive : 5 ≤ ts.length + 1 + 1
      · rw [if_pos hfive, if_pos (by simp only [maxFailures]; omega)]
      · rw [if_neg hfive, if_neg (by omega), if_neg (by omega)]

/-- A call that does not drop the record makes of it what the identity's own
calls make. -/
theorem attempt?_concat
    (hown : (PinGate.after calls).attempt? i = ownRecord (wrongPins i calls))
    (hlocked : c.op = .recordFailure → 4096 ≤ (PinGate.after calls).inner.length →
      ∀ a ∈ (PinGate.after calls).attempt? i, c.now < a.lockedUntilMs) :
    (PinGate.after (calls ++ [c])).attempt? i =
      ownRecord (wrongPins i (calls ++ [c])) := by
  have hroom : c.op = .recordFailure →
      ((PinGate.after calls).makeRoom c.now).attempt? i =
        (PinGate.after calls).attempt? i :=
    fun hop => attempt?_makeRoom_of_locked (hlocked hop)
  rw [PinGate.after_concat, wrongPins_concat]
  by_cases hid : c.identity = i
  · rw [if_neg (not_not.mpr hid), PinGate.step]
    cases hop : c.op with
    | check => exact hown
    | recordFailure =>
        subst hid
        simp only [PinGate.attempt?_recordFailure, if_true, hroom hop, hown]
        exact wrongPin_ownRecord
    | recordSuccess =>
        simp [PinGate.attempt?_recordSuccess, hid, ownRecord]
  · rw [if_pos hid, PinGate.attempt?_step_of_ne hid hroom, hown]

/-- The record locks the identity for a minute after the fifth wrong PIN and
after every further one. -/
def LockedLong (ts : List Int) : Prop :=
  ∀ t ∈ ts.rdrop 4, ∀ a ∈ ownRecord ts, t + 60000 ≤ a.lockedUntilMs

theorem five_le_of_mem_rdrop
    (h : t ∈ ts.rdrop 4) :
    5 ≤ ts.length := by
  have hpos := List.length_pos_of_mem h
  rw [List.rdrop, List.length_take] at hpos
  omega

/-- One more wrong PIN that is in turn locks the identity for longer. -/
theorem LockedLong.cons
    (hlong : LockedLong ts)
    (hturn : ∀ a ∈ ownRecord ts, 5 ≤ a.failures → a.lockedUntilMs ≤ t + 60000) :
    LockedLong (t :: ts) := by
  intro s hs a ha
  have hfive : 5 ≤ ts.length + 1 := five_le_of_mem_rdrop hs
  obtain rfl := Option.mem_some_iff.mp ha
  simp only [if_pos hfive]
  have hcut : (t :: ts).rdrop 4 = t :: ts.rdrop 4 := by
    rw [List.rdrop, List.rdrop, List.length_cons,
      show ts.length + 1 - 4 = ts.length - 4 + 1 by omega, List.take_succ_cons]
  rw [hcut] at hs
  rcases List.mem_cons.mp hs with rfl | hs
  · exact le_rfl
  · have hbefore := five_le_of_mem_rdrop hs
    cases ts with
    | nil => simp at hbefore
    | cons r ts =>
        refine (hlong s hs _ rfl).trans (hturn _ rfl ?_)
        simp only [List.length_cons, maxFailures] at hbefore ⊢
        omega

/-- Where the record is the identity's own, the gate refuses it for as long as
the record locks it. -/
theorem refuses_iff
    (hown : (PinGate.after calls).attempt? i = ownRecord ts) :
    (∀ t ∈ ts.rdrop 4, ∀ now < t + 60000,
      (PinGate.after calls).check i now = false) ↔ LockedLong ts := by
  refine forall₂_congr fun t ht => ?_
  cases ts with
  | nil => simp at ht
  | cons r ts =>
      simp only [PinGate.check, hown, ownRecord, decide_eq_false_iff_not, not_le,
        Option.mem_def, Option.some.injEq, forall_eq']
      exact ⟨fun h => not_lt.mp fun hlt => lt_irrefl _ (h _ hlt),
        fun h now hnow => hnow.trans_le h⟩

/-- The record is what the identity's own calls have made of it, and locks it for
as long as they ask. -/
def HoldsOwn (i : PinIdentity) (calls : List PinCall) : Prop :=
  (PinGate.after calls).attempt? i = ownRecord (wrongPins i calls) ∧
    LockedLong (wrongPins i calls)

theorem holdsOwn_nil : HoldsOwn i [] :=
  ⟨rfl, fun t ht => by simp at ht⟩

theorem HoldsOwn.locksOut
    (h : HoldsOwn i calls) :
    LocksOut i calls := by
  refine ⟨?_, (refuses_iff h.1).mpr h.2⟩
  rw [h.1]
  cases wrongPins i calls with
  | nil => rfl
  | cons t ts => rfl

theorem HoldsOwn.concat
    (h : HoldsOwn i calls)
    (hkeeps : KeepsRecord i (PinGate.after calls) c) :
    HoldsOwn i (calls ++ [c]) := by
  refine ⟨attempt?_concat h.1 hkeeps.room, ?_⟩
  rw [wrongPins_concat]
  by_cases hid : c.identity = i
  · rw [if_neg (not_not.mpr hid)]
    cases hop : c.op with
    | check => exact h.2
    | recordFailure => exact h.2.cons fun a ha => hkeeps.inTurn hop hid a (h.1 ▸ ha)
    | recordSuccess => exact fun t ht => by simp at ht
  · rw [if_pos hid]
    exact h.2

/-- A record that is dropped for room no longer counts what it has counted. -/
theorem not_counts_of_dropped
    {a : PinAttempt}
    (hown : (PinGate.after calls).attempt? i = ownRecord (wrongPins i calls))
    (hop : c.op = .recordFailure)
    (hfull : 4096 ≤ (PinGate.after calls).inner.length)
    (ha : a ∈ (PinGate.after calls).attempt? i)
    (hopen : a.lockedUntilMs ≤ c.now) :
    (((PinGate.after (calls ++ [c])).attempt? i).map (·.failures)).getD 0 ≠
      min (wrongPins i (calls ++ [c])).length maxFailures := by
  have hdropped : ((PinGate.after calls).makeRoom c.now).attempt? i = none := by
    rw [PinGate.attempt?_makeRoom, if_pos hfull, Option.mem_def.mp ha]
    simpa using hopen
  have hpos : 0 < (wrongPins i calls).length := by
    rw [Option.mem_def.mp ha] at hown
    cases hts : wrongPins i calls with
    | nil => simp [hts, ownRecord] at hown
    | cons t ts => simp
  rw [PinGate.after_concat, wrongPins_concat, PinGate.step, hop]
  simp only [PinGate.attempt?_recordFailure]
  by_cases hid : c.identity = i
  · subst hid
    simp only [if_true, hdropped, not_true_eq_false, ne_eq, if_false, Option.map_some,
      Option.getD_some, Option.getD_none, PinAttempt.wrongPin, List.length_cons,
      maxFailures]
    omega
  · simp only [if_neg (Ne.symm hid), hdropped, ne_eq, hid, not_false_eq_true, if_true,
      Option.map_none, Option.getD_none, maxFailures]
    omega

/-- An older lockout in the place of the record's ends before the record's. -/
theorem not_lockedLong_of_older
    {a : PinAttempt}
    (hown : (PinGate.after calls).attempt? i = ownRecord (wrongPins i calls))
    (hop : c.op = .recordFailure)
    (hid : c.identity = i)
    (ha : a ∈ (PinGate.after calls).attempt? i)
    (hfive : 5 ≤ a.failures)
    (holder : c.now + 60000 < a.lockedUntilMs) :
    ¬ LockedLong (wrongPins i (calls ++ [c])) := by
  have hstep : wrongPins i (calls ++ [c]) = c.now :: wrongPins i calls := by
    rw [wrongPins_concat, if_neg (not_not.mpr hid), hop]
  rw [hown] at ha
  rw [hstep]
  cases hts : wrongPins i calls with
  | nil => simp [hts, ownRecord] at ha
  | cons t ts =>
      rw [hts] at ha
      obtain rfl := Option.mem_some_iff.mp ha
      have hlength : 5 ≤ ts.length + 1 := le_trans hfive (Nat.min_le_left _ _)
      simp only [if_pos hlength] at holder
      intro hlong
      have hmem : t ∈ (c.now :: t :: ts).rdrop 4 := by
        rw [List.rdrop, List.length_cons, List.length_cons,
          show ts.length + 1 + 1 - 4 = ts.length - 4 + 2 by omega]
        simp
      have hlocked := hlong t hmem _ rfl
      simp only [List.length_cons, if_pos (show 5 ≤ ts.length + 1 + 1 by omega)]
        at hlocked
      omega

/-- A call after which the gate still counts and refuses has kept the record. -/
theorem HoldsOwn.keepsRecord
    (h : HoldsOwn i calls)
    (hlocks : LocksOut i (calls ++ [c])) :
    KeepsRecord i (PinGate.after calls) c := by
  have hroom : c.op = .recordFailure → 4096 ≤ (PinGate.after calls).inner.length →
      ∀ a ∈ (PinGate.after calls).attempt? i, c.now < a.lockedUntilMs := by
    intro hop hfull a ha
    by_contra hopen
    exact not_counts_of_dropped h.1 hop hfull ha (not_lt.mp hopen) hlocks.counts
  refine ⟨hroom, fun hop hid a ha hfive => ?_⟩
  by_contra holder
  refine not_lockedLong_of_older h.1 hop hid ha hfive (not_le.mp holder) ?_
  exact (refuses_iff (attempt?_concat h.1 hroom)).mp hlocks.refuses

end Runs

/-- The gate counts an identity's wrong PINs and locks it out, whoever else calls
and in whatever order, exactly in the runs in which every call keeps the
identity's record. -/
theorem locksOut_iff_keepsRecord
    (i : PinIdentity)
    (calls : List PinCall) :
    (∀ before, before <+: calls → LocksOut i before) ↔
      ∀ before c, before ++ [c] <+: calls →
        KeepsRecord i (PinGate.after before) c := by
  constructor
  · intro hlocks
    have hown : ∀ before, before <+: calls → HoldsOwn i before := by
      intro before
      induction before using List.reverseRecOn with
      | nil => exact fun _ => holdsOwn_nil
      | append_singleton before c ih =>
          intro hbefore
          have h := ih ((List.prefix_append before [c]).trans hbefore)
          exact h.concat (h.keepsRecord (hlocks _ hbefore))
    intro before c hbefore
    exact (hown before ((List.prefix_append before [c]).trans hbefore)).keepsRecord
      (hlocks _ hbefore)
  · intro hkeeps before
    suffices hown : before <+: calls → HoldsOwn i before from
      fun hbefore => (hown hbefore).locksOut
    induction before using List.reverseRecOn with
    | nil => exact fun _ => holdsOwn_nil
    | append_singleton before c ih =>
        intro hbefore
        exact (ih ((List.prefix_append before [c]).trans hbefore)).concat
          (hkeeps before c hbefore)

section Crowd

/-- Strangers who each give one wrong PIN, under names of their own. -/
def crowd (ip : IpAddr) (n : Nat) : List PinCall :=
  (List.range n).map fun k => ⟨0, ⟨ip, .ofList (.replicate k 'x')⟩, .recordFailure⟩

variable {ip : IpAddr} {i : PinIdentity} {a : PinAttempt} {calls l : List PinCall}
variable {n : Nat}

theorem crowd_succ :
    crowd ip (n + 1) =
      crowd ip n ++ [⟨0, ⟨ip, .ofList (.replicate n 'x')⟩, .recordFailure⟩] := by
  rw [crowd, List.range_succ, List.map_append]
  rfl

/-- Calls of others are not an identity's own. -/
theorem wrongPins_append_of_ne
    (h : ∀ c ∈ l, c.identity ≠ i) :
    wrongPins i (calls ++ l) = wrongPins i calls := by
  induction l using List.reverseRecOn with
  | nil => rw [List.append_nil]
  | append_singleton l c ih =>
      rw [← List.append_assoc, wrongPins_concat, if_pos (h c (by simp)),
        ih fun c hc => h c (List.mem_append_left _ hc)]

/-- As long as the table has room, each stranger takes a place in it and none of
them is locked. -/
theorem after_crowd
    (hname : ∀ k, i.name ≠ .ofList (.replicate k 'x'))
    (hcalls : (PinGate.after calls).inner = [(i, a)])
    (hn : n ≤ 4095) :
    (PinGate.after (calls ++ crowd ip n)).inner =
      (i, a) :: (crowd ip n).map fun c => (c.identity, ⟨1, 0⟩) := by
  induction n with
  | zero => simpa [crowd] using hcalls
  | succ n ih =>
      have hbefore := ih (by omega)
      have hlength : (PinGate.after (calls ++ crowd ip n)).inner.length = n + 1 := by
        rw [hbefore]
        simp [crowd]
      have hroom : (PinGate.after (calls ++ crowd ip n)).makeRoom 0 =
          PinGate.after (calls ++ crowd ip n) := by
        rw [PinGate.makeRoom, if_neg (by omega)]
      have hfresh : ∀ b ∈ (PinGate.after (calls ++ crowd ip n)).inner,
          b.1 ≠ ⟨ip, .ofList (.replicate n 'x')⟩ := by
        rw [hbefore]
        intro b hb heq
        rcases List.mem_cons.mp hb with rfl | hb
        · exact hname n (congrArg PinIdentity.name heq)
        · obtain ⟨c, hc, rfl⟩ := List.mem_map.mp hb
          obtain ⟨k, hk, rfl⟩ := List.mem_map.mp hc
          have hnames := String.ofList_injective (congrArg PinIdentity.name heq)
          have hlengths := congrArg List.length hnames
          simp only [List.length_replicate] at hlengths
          have hlt := List.mem_range.mp hk
          omega
      rw [crowd_succ, ← List.append_assoc, PinGate.after_concat, PinGate.step]
      simp only [PinGate.recordFailure, hroom, PinGate.attempt?,
        Bindings.lookup_eq_none_iff.mpr hfresh, Bindings.insert]
      rw [List.filter_eq_self.mpr (by simpa using hfresh), hbefore]
      simp [PinAttempt.wrongPin, maxFailures]

/-- Once the crowd has filled the table, a wrong PIN that would have been the
fifth counts as the first. -/
theorem check_after_crowd
    (hname : ∀ k, i.name ≠ .ofList (.replicate k 'x'))
    (hcalls : (PinGate.after calls).inner = [(i, ⟨4, 0⟩)]) :
    (PinGate.after (calls ++ crowd ip 4095 ++ [⟨0, i, .recordFailure⟩])).check i 0 =
      true := by
  have hfull : (PinGate.after (calls ++ crowd ip 4095)).inner =
      (i, ⟨4, 0⟩) :: (crowd ip 4095).map fun c => (c.identity, ⟨1, 0⟩) :=
    after_crowd hname hcalls le_rfl
  have hlength : 4096 ≤ (PinGate.after (calls ++ crowd ip 4095)).inner.length := by
    rw [hfull]
    simp [crowd]
  have hown : (PinGate.after (calls ++ crowd ip 4095)).attempt? i = some ⟨4, 0⟩ := by
    rw [PinGate.attempt?, hfull]
    simp [Bindings.lookup]
  have hdropped :
      ((PinGate.after (calls ++ crowd ip 4095)).makeRoom 0).attempt? i = none := by
    rw [PinGate.attempt?_makeRoom, if_pos hlength, hown]
    rfl
  rw [PinGate.after_concat, PinGate.step]
  simp [PinGate.check, PinGate.attempt?_recordFailure, hdropped, PinAttempt.wrongPin,
    maxFailures]

/-- The operator's console, on the same machine as everything else. -/
def tui : PinIdentity := ⟨.v4 0x7f000001, "cockatiel-tui"⟩

/-- Four wrong PINs, a crowd that fills the table, and a fifth. -/
def guessesAroundCrowd : List PinCall :=
  List.replicate 4 ⟨0, tui, .recordFailure⟩ ++ crowd tui.ip 4095 ++
    [⟨0, tui, .recordFailure⟩]

theorem tui_name_ne
    (k : Nat) :
    tui.name ≠ .ofList (.replicate k 'x') := by
  intro h
  have hmem : 'c' ∈ List.replicate k 'x' := by
    have hlist := congrArg String.toList h
    rw [String.toList_ofList] at hlist
    rw [← hlist]
    decide
  exact absurd (List.eq_of_mem_replicate hmem) (by decide)

/-- The fifth wrong PIN of the console does not lock it out. -/
theorem unlocked_guessesAroundCrowd :
    (guessesAroundCrowd.map (·.now)).Pairwise (· ≤ ·) ∧
      wrongPins tui guessesAroundCrowd = List.replicate 5 0 ∧
      (PinGate.after guessesAroundCrowd).check tui 0 = true ∧
      ¬ LocksOut tui guessesAroundCrowd := by
  have hpins : wrongPins tui guessesAroundCrowd = List.replicate 5 0 := by
    have hothers : ∀ c ∈ crowd tui.ip 4095, c.identity ≠ tui := by
      intro c hc heq
      obtain ⟨k, -, rfl⟩ := List.mem_map.mp hc
      exact tui_name_ne k (congrArg PinIdentity.name heq).symm
    rw [guessesAroundCrowd, wrongPins_concat, wrongPins_append_of_ne hothers]
    decide
  have hcheck : (PinGate.after guessesAroundCrowd).check tui 0 = true :=
    check_after_crowd tui_name_ne (by decide)
  refine ⟨?_, hpins, hcheck, fun h => ?_⟩
  · have hnow : ∀ c ∈ guessesAroundCrowd, c.now = 0 := by
      intro c hc
      simp only [guessesAroundCrowd, crowd, List.mem_append, List.mem_map,
        List.mem_singleton] at hc
      rcases hc with (hc | ⟨k, -, rfl⟩) | rfl
      · rw [List.eq_of_mem_replicate hc]
      · rfl
      · rfl
    rw [List.pairwise_map]
    refine List.Pairwise.imp_of_mem (fun hc hd _ => ?_)
      (List.pairwise_of_forall fun _ _ => trivial)
    rw [hnow _ hc, hnow _ hd]
  · have hrefused := h.refuses 0 (by rw [hpins]; decide) 0 (by decide)
    rw [hcheck] at hrefused
    cases hrefused

end Crowd

end CockatielEngine
