import CockatielEngine.Concurrency.TaskPool

/-!
# Database: the connection after a panic

An operation checks the reopen flag, replaces the connection when the flag is
set, and then waits for the mutex.  The flag and the mutex are two things: a
panic raises the flag while other operations stand past the check.

**Main result.**  Along a run no operation under way is handed a connection on
which one panicked exactly when no operation panics while another stands past
its check without the guard: before the mutex, before the outcome of its reopen
or before it clears the flag.
-/

namespace CockatielEngine

open TaskPool

section Defs

/-- The shared state of `DatabaseManager`.  Connections are numbered as they
are installed; `poisoned` are those on which an operation panicked. -/
structure LocalDb where
  connection : Option Nat
  opened : Nat
  needsReopen : Bool
  locked : Bool
  poisoned : Finset Nat

/-- What the database answers to a step. -/
inductive DbAnswer where
  | done
  | opens
  | fails
  | panics
deriving DecidableEq

/-- An operation at its next step; `contained` operations run in the wrapper
that catches a panic. -/
inductive DbFrame where
  | repairAfterPanic (contained : Bool)
  | discard (contained : Bool)
  | openLocal (contained : Bool)
  | install (contained : Bool)
  | clearFlag (contained : Bool)
  | lock (contained : Bool)
  | guarded (connection : Option Nat) (contained : Bool)
  | unwinding (contained : Bool)
  | caught
deriving DecidableEq

namespace LocalDb

/-- A freshly opened connection takes the place of the one before. -/
def installFresh (db : LocalDb) : LocalDb :=
  { db with connection := some db.opened, opened := db.opened + 1 }

/-- The connection is one an operation panicked on. -/
def Wedged (db : LocalDb) : Prop :=
  ∃ connection ∈ db.poisoned, db.connection = some connection

/-- A panic unwinds through the guard, which raises the flag. -/
def panicked (db : LocalDb) (connection : Option Nat) : LocalDb :=
  { db with
    needsReopen := true
    poisoned := db.poisoned ∪ connection.toFinset }

end LocalDb

/-- One step of an operation; the steps that take the mutex wait until it is
free. -/
def DbFrame.step (db : LocalDb) :
    DbFrame → DbAnswer → Option (Outcome LocalDb DbFrame)
  | .repairAfterPanic c, _ =>
      some (.thenRun db (if db.needsReopen then [.discard c] else [.lock c]))
  | .discard c, _ =>
      if db.locked then none
      else some (.thenRun { db with connection := none } [.openLocal c])
  | .openLocal c, .opens => some (.thenRun db [.install c])
  | .openLocal c, _ => some (.thenRun db [.lock c])
  | .install c, _ =>
      if db.locked then none
      else some (.thenRun db.installFresh [.clearFlag c])
  | .clearFlag c, _ =>
      some (.thenRun { db with needsReopen := false } [.lock c])
  | .lock c, _ =>
      if db.locked then none
      else some (.thenRun { db with locked := true } [.guarded db.connection c])
  | .guarded _ _, .done => some (.thenRun { db with locked := false } [])
  | .guarded _ _, .opens =>
      some (.thenRun { db.installFresh with locked := false } [])
  | .guarded _ _, .fails =>
      some (.thenRun { db with needsReopen := true, locked := false } [])
  | .guarded connection c, .panics =>
      some (.thenRun (db.panicked connection) [.unwinding c])
  | .unwinding c, _ =>
      some (.thenRun { db with locked := false } (if c then [.caught] else []))
  | .caught, _ => some (.thenRun { db with needsReopen := true } [])

/-- Any number of operations, in and out of the wrapper. -/
def dbOperations : Program LocalDb DbFrame DbAnswer Bool where
  step := DbFrame.step
  catches _ := false
  event db contained := some (db, [[.repairAfterPanic contained]])

abbrev DbPool := Pool LocalDb DbFrame

abbrev DbLabel := Label DbAnswer Bool

/-- No operation holds the guard of a connection that one panicked on. -/
def GuardsSound (s : DbPool) : Prop :=
  ∀ connection c, DbFrame.guarded (some connection) c ∈ s.frames →
    connection ∉ s.shared.poisoned

/-- The operation does not panic. -/
def Calm (_ : DbPool) (a : DbAnswer) : DbFrame → Prop
  | .guarded _ _ => a ≠ .panics
  | _ => True

/-- However the operations go on, while none of them panics none holds the guard
of a connection that one panicked on. -/
def HandsOutSound (s : DbPool) : Prop :=
  ∀ s', Reachable dbOperations (OnRun Calm) s s' → GuardsSound s'

namespace DbFrame

/-- The operation is past its check, and what it is about to do does not replace
the connection: it takes the mutex, learns the outcome of its reopen or clears
the flag. -/
def pastCheck : DbFrame → Bool
  | .lock _ => true
  | .openLocal _ => true
  | .clearFlag _ => true
  | _ => false

/-- The operation holds the mutex. -/
def holds : DbFrame → Bool
  | .guarded _ _ => true
  | .unwinding _ => true
  | _ => false

end DbFrame

/-- An operation that panics on a connection has no other one past its check. -/
def PanicsAlone (s : DbPool) (a : DbAnswer) : DbFrame → Prop
  | .guarded (some _) _ =>
      a = .panics → ∀ f ∈ s.frames, f.pastCheck = false
  | _ => True

/-- An operation that holds the mutex weighs one. -/
def DbFrame.weight (f : DbFrame) : Nat :=
  f.holds.toNat

/-- What every state of a run in which operations panic alone satisfies. -/
structure FlagTells (s : DbPool) : Prop where
  single : s.Waiting (fun _ => False)
  exclusive : s.total DbFrame.weight ≤ s.shared.locked.toNat
  own : ∀ connection c, DbFrame.guarded connection c ∈ s.frames →
    s.shared.connection = connection
  numbered : ∀ connection,
    s.shared.connection = some connection ∨ connection ∈ s.shared.poisoned →
      connection < s.shared.opened
  sound : GuardsSound s
  flagged : s.shared.Wedged → s.shared.needsReopen = true
  alone : s.shared.Wedged → ∀ f ∈ s.frames, f.pastCheck = false

end Defs

section Steps

variable {s s' : DbPool} {l : DbLabel} {a : DbAnswer}
variable {i : Nat} {f : DbFrame} {rest : List DbFrame}
variable {o : Outcome LocalDb DbFrame} {db : LocalDb}

/-- A step leaves its task before at most one frame and starts no other. -/
theorem DbFrame.step_next
    (ho : f.step db a = some o) :
    (∀ fs, o.next = some fs → fs.tail = []) ∧ o.spawned = [] := by
  unfold DbFrame.step at ho
  repeat' split at ho
  all_goals cases ho <;> simp [Outcome.thenRun]

theorem dbOperations_leavesWaiting :
    dbOperations.LeavesWaiting (fun _ => False) where
  next := by
    intro db f a o fs ho hfs
    simp [(DbFrame.step_next ho).1 fs hfs]
  spawned := by
    intro db f a o ho ts hts
    rw [(DbFrame.step_next ho).2] at hts
    cases hts
  event := by
    rintro db c r hr
    obtain rfl := Option.some.inj hr
    simp

/-- What is left to check of a step that keeps the flag telling. -/
structure KeepsFlag (s : DbPool) (f : DbFrame) (o : Outcome LocalDb DbFrame) : Prop where
  exclusive : (o.new.map DbFrame.weight).sum + s.shared.locked.toNat ≤
    f.weight + o.shared.locked.toNat
  guard : ∀ connection c, DbFrame.guarded connection c ∈ o.new →
    o.shared.connection = connection ∧ ¬ o.shared.Wedged
  keep : s.shared.locked = true → f.holds = false →
    o.shared.connection = s.shared.connection ∧
      o.shared.poisoned = s.shared.poisoned
  numbered : ∀ connection,
    o.shared.connection = some connection ∨ connection ∈ o.shared.poisoned →
      connection < o.shared.opened
  wedged : o.shared.Wedged →
    o.shared.needsReopen = true ∧ (∀ g ∈ o.new, g.pastCheck = false) ∧
      ∀ g ∈ s.frames, g.pastCheck = false

theorem FlagTells.after
    (h : FlagTells s)
    (hi : s.threads[i]? = some (f :: rest))
    (hsingle : Pool.Waiting (fun _ => False)
      { shared := o.shared
        threads := s.threads.set i (dbOperations.unwind o.next rest) ++ o.spawned })
    (hkeeps : KeepsFlag s f o) :
    FlagTells
      { shared := o.shared
        threads := s.threads.set i (dbOperations.unwind o.next rest) ++
          o.spawned } := by
  have hle := total_fire_run_le (P := dbOperations) DbFrame.weight (o := o) hi
  -- a guard that was there before shares the mutex with nobody
  have hold {connection c} (hg : DbFrame.guarded connection c ∈
      (s.threads.set i (dbOperations.unwind o.next rest) ++ o.spawned).flatten) :
      DbFrame.guarded connection c ∈ o.new ∨
        (DbFrame.guarded connection c ∈ s.frames ∧
          o.shared.connection = s.shared.connection ∧
          o.shared.poisoned = s.shared.poisoned) := by
    rcases weight_after_run DbFrame.weight hi hg with hnew | ⟨hmem, hweight⟩
    · exact Or.inl hnew
    · have hexcl := h.exclusive
      have hone : (DbFrame.guarded connection c).weight = 1 := rfl
      refine Or.inr ⟨hmem, hkeeps.keep ?_ ?_⟩
      · by_contra hfree
        simp only [Bool.not_eq_true] at hfree
        rw [hfree, Bool.toNat_false] at hexcl
        omega
      · by_contra hholds
        simp only [Bool.not_eq_false] at hholds
        have hf : f.weight = 1 := by rw [DbFrame.weight, hholds, Bool.toNat_true]
        have hle := s.shared.locked.toNat_le
        omega
  refine ⟨hsingle, ?_, ?_, hkeeps.numbered, ?_, fun hw => (hkeeps.wedged hw).1, ?_⟩
  · have hexcl := h.exclusive
    have hweights := hkeeps.exclusive
    change Pool.total DbFrame.weight _ ≤ o.shared.locked.toNat
    omega
  · intro connection c hg
    rcases hold hg with hnew | ⟨hmem, hsame, -⟩
    · exact (hkeeps.guard connection c hnew).1
    · exact hsame.trans (h.own connection c hmem)
  · intro connection c hg hpoisoned
    rcases hold hg with hnew | ⟨hmem, -, hsame⟩
    · obtain ⟨hconn, hsound⟩ := hkeeps.guard _ c hnew
      exact hsound ⟨connection, hpoisoned, hconn⟩
    · exact h.sound connection c hmem (hsame ▸ hpoisoned)
  · intro hw g hg
    rcases mem_frames_after_run hi hg with hnew | hmem
    · exact (hkeeps.wedged hw).2.1 g hnew
    · exact (hkeeps.wedged hw).2.2 g hmem

theorem FlagTells.not_wedged_installFresh
    (h : FlagTells s) :
    ¬ s.shared.installFresh.Wedged := by
  rintro ⟨connection, hpoisoned, hconn⟩
  obtain rfl := Option.some.inj hconn
  exact absurd (h.numbered _ (Or.inr hpoisoned)) (lt_irrefl _)

theorem FlagTells.numbered_installFresh
    (h : FlagTells s)
    (connection : Nat)
    (hconn : s.shared.installFresh.connection = some connection ∨
      connection ∈ s.shared.poisoned) :
    connection < s.shared.opened + 1 := by
  rcases hconn with hconn | hpoisoned
  · obtain rfl := Option.some.inj hconn
    exact Nat.lt_succ_self _
  · exact (h.numbered _ (Or.inr hpoisoned)).trans (Nat.lt_succ_self _)

/-- An operation past its check finds the connection sound. -/
theorem FlagTells.not_wedged
    (h : FlagTells s)
    (hf : f ∈ s.frames)
    (hpast : f.pastCheck = true) :
    ¬ s.shared.Wedged := by
  intro hw
  simp [h.alone hw f hf] at hpast

section Operation

variable {c : Bool}

theorem FlagTells.keeps_repairAfterPanic
    (h : FlagTells s)
    (ho : (DbFrame.repairAfterPanic c).step s.shared a = some o) :
    KeepsFlag s (.repairAfterPanic c) o := by
  obtain rfl := Option.some.inj ho
  refine ⟨?_, ?_, fun _ _ => ⟨rfl, rfl⟩, h.numbered, ?_⟩
  · cases s.shared.needsReopen <;> simp [DbFrame.weight, DbFrame.holds]
  · cases s.shared.needsReopen <;> simp
  · intro hw
    have hflag : s.shared.needsReopen = true := h.flagged hw
    exact ⟨hflag, by simp [hflag, DbFrame.pastCheck], h.alone hw⟩

theorem FlagTells.keeps_discard
    (h : FlagTells s)
    (ho : (DbFrame.discard c).step s.shared a = some o) :
    KeepsFlag s (.discard c) o := by
  obtain ⟨hfree, ho⟩ := Option.ite_none_left_eq_some.mp ho
  obtain rfl := Option.some.inj ho
  refine ⟨?_, by simp, fun hlocked => absurd hlocked hfree, ?_, ?_⟩
  · simp [hfree, DbFrame.weight, DbFrame.holds]
  · simpa using fun connection hp => h.numbered connection (Or.inr hp)
  · rintro ⟨_, _, hconn⟩
    cases hconn

theorem FlagTells.keeps_openLocal
    (h : FlagTells s)
    (hf : .openLocal c ∈ s.frames)
    (ho : (DbFrame.openLocal c).step s.shared a = some o) :
    KeepsFlag s (.openLocal c) o := by
  have hno := h.not_wedged hf rfl
  cases a with
  | opens =>
      obtain rfl := Option.some.inj ho
      refine ⟨?_, by simp, fun _ _ => ⟨rfl, rfl⟩, h.numbered, fun hw => absurd hw hno⟩
      simp [DbFrame.weight, DbFrame.holds]
  | done | fails | panics =>
      obtain rfl := Option.some.inj ho
      refine ⟨?_, by simp, fun _ _ => ⟨rfl, rfl⟩, h.numbered, fun hw => absurd hw hno⟩
      simp [DbFrame.weight, DbFrame.holds]

theorem FlagTells.keeps_install
    (h : FlagTells s)
    (ho : (DbFrame.install c).step s.shared a = some o) :
    KeepsFlag s (.install c) o := by
  obtain ⟨hfree, ho⟩ := Option.ite_none_left_eq_some.mp ho
  obtain rfl := Option.some.inj ho
  refine ⟨?_, by simp, fun hlocked => absurd hlocked hfree, h.numbered_installFresh,
    fun hw => absurd hw h.not_wedged_installFresh⟩
  simp [hfree, DbFrame.weight, DbFrame.holds]

theorem FlagTells.keeps_clearFlag
    (h : FlagTells s)
    (hf : .clearFlag c ∈ s.frames)
    (ho : (DbFrame.clearFlag c).step s.shared a = some o) :
    KeepsFlag s (.clearFlag c) o := by
  obtain rfl := Option.some.inj ho
  refine ⟨?_, by simp, fun _ _ => ⟨rfl, rfl⟩, h.numbered,
    fun hw => absurd hw (h.not_wedged hf rfl)⟩
  simp [DbFrame.weight, DbFrame.holds]

theorem FlagTells.keeps_lock
    (h : FlagTells s)
    (hf : .lock c ∈ s.frames)
    (ho : (DbFrame.lock c).step s.shared a = some o) :
    KeepsFlag s (.lock c) o := by
  obtain ⟨hfree, ho⟩ := Option.ite_none_left_eq_some.mp ho
  obtain rfl := Option.some.inj ho
  refine ⟨?_, ?_, fun hlocked => absurd hlocked hfree, h.numbered,
    fun hw => absurd hw (h.not_wedged hf rfl)⟩
  · simp [hfree, DbFrame.weight, DbFrame.holds]
  · rintro connection c hnew
    simp only [Outcome.new_thenRun, List.mem_singleton, DbFrame.guarded.injEq] at hnew
    exact ⟨hnew.1.symm, h.not_wedged hf rfl⟩

/-- A panic under the guard wedges the connection, and raises the flag. -/
theorem FlagTells.keeps_panics
    {connection : Option Nat}
    (h : FlagTells s)
    (hf : .guarded connection c ∈ s.frames)
    (hok : PanicsAlone s .panics (.guarded connection c))
    (ho : (DbFrame.guarded connection c).step s.shared .panics = some o) :
    KeepsFlag s (.guarded connection c) o := by
  obtain rfl := Option.some.inj ho
  refine ⟨?_, by simp, fun _ hh => by simp [DbFrame.holds] at hh, fun other hother => ?_,
    fun hw => ⟨rfl, by simp [DbFrame.pastCheck], ?_⟩⟩
  · simp [LocalDb.panicked, DbFrame.weight, DbFrame.holds]
  · refine h.numbered other ?_
    rcases hother with hconn | hpoisoned
    · exact Or.inl hconn
    · rcases Finset.mem_union.mp hpoisoned with hpoisoned | hown
      · exact Or.inr hpoisoned
      · exact Or.inl ((h.own _ _ hf).trans (Option.mem_toFinset.mp hown))
  · cases connection with
    | none => exact h.alone (by simpa [LocalDb.Wedged, LocalDb.panicked] using hw)
    | some connection => exact hok rfl

theorem FlagTells.keeps_guarded
    {connection : Option Nat}
    (h : FlagTells s)
    (hf : .guarded connection c ∈ s.frames)
    (hok : PanicsAlone s a (.guarded connection c))
    (ho : (DbFrame.guarded connection c).step s.shared a = some o) :
    KeepsFlag s (.guarded connection c) o := by
  have hweight : s.shared.locked.toNat ≤ (DbFrame.guarded connection c).weight :=
    s.shared.locked.toNat_le
  have hholds (hh : DbFrame.holds (.guarded connection c) = false) : False := by
    simp [DbFrame.holds] at hh
  cases a with
  | done =>
      obtain rfl := Option.some.inj ho
      exact ⟨by simpa using hweight, by simp, fun _ hh => (hholds hh).elim, h.numbered,
        fun hw => ⟨h.flagged hw, by simp, h.alone hw⟩⟩
  | opens =>
      obtain rfl := Option.some.inj ho
      exact ⟨by simpa using hweight, by simp, fun _ hh => (hholds hh).elim,
        h.numbered_installFresh, fun hw => absurd hw h.not_wedged_installFresh⟩
  | fails =>
      obtain rfl := Option.some.inj ho
      exact ⟨by simpa using hweight, by simp, fun _ hh => (hholds hh).elim, h.numbered,
        fun hw => ⟨rfl, by simp, h.alone hw⟩⟩
  | panics => exact h.keeps_panics hf hok ho

theorem FlagTells.keeps_unwinding
    (h : FlagTells s)
    (ho : (DbFrame.unwinding c).step s.shared a = some o) :
    KeepsFlag s (.unwinding c) o := by
  obtain rfl := Option.some.inj ho
  refine ⟨?_, ?_, by simp [DbFrame.holds], h.numbered,
    fun hw => ⟨h.flagged hw, ?_, h.alone hw⟩⟩
  · cases c <;> simpa [DbFrame.weight, DbFrame.holds] using s.shared.locked.toNat_le
  · cases c <;> simp
  · cases c <;> simp [DbFrame.pastCheck]

theorem FlagTells.keeps_caught
    (h : FlagTells s)
    (ho : DbFrame.caught.step s.shared a = some o) :
    KeepsFlag s .caught o := by
  obtain rfl := Option.some.inj ho
  refine ⟨?_, by simp, fun _ _ => ⟨rfl, rfl⟩, h.numbered,
    fun hw => ⟨rfl, by simp, h.alone hw⟩⟩
  simp [DbFrame.weight, DbFrame.holds]

end Operation

/-- One step in which an operation panics alone. -/
theorem FlagTells.run
    (h : FlagTells s)
    (hi : s.threads[i]? = some (f :: rest))
    (hok : PanicsAlone s a f)
    (ho : f.step s.shared a = some o)
    (hsingle : Pool.Waiting (fun _ => False)
      { shared := o.shared
        threads := s.threads.set i (dbOperations.unwind o.next rest) ++
          o.spawned }) :
    FlagTells
      { shared := o.shared
        threads := s.threads.set i (dbOperations.unwind o.next rest) ++
          o.spawned } := by
  have hf : f ∈ s.frames := mem_frames_of_getElem? hi (List.mem_cons_self ..)
  refine h.after hi hsingle ?_
  cases f with
  | repairAfterPanic c => exact h.keeps_repairAfterPanic ho
  | discard c => exact h.keeps_discard ho
  | openLocal c => exact h.keeps_openLocal hf ho
  | install c => exact h.keeps_install ho
  | clearFlag c => exact h.keeps_clearFlag hf ho
  | lock c => exact h.keeps_lock hf ho
  | guarded connection c => exact h.keeps_guarded hf hok ho
  | unwinding c => exact h.keeps_unwinding ho
  | caught => exact h.keeps_caught ho

/-- A run in which operations panic alone keeps the flag telling. -/
theorem FlagTells.fire
    (h : FlagTells s)
    (hok : OnRun PanicsAlone s l)
    (hfire : dbOperations.fire s l = some s') :
    FlagTells s' := by
  have hsingle := h.single.fire dbOperations_leavesWaiting hfire
  cases l with
  | run i a =>
      obtain ⟨f, rest, o, hi, ho, rfl⟩ := fire_run_cases hfire
      exact h.run hi (hok.top hi) ho hsingle
  | world c =>
      obtain ⟨r, hr, rfl⟩ := fire_world_cases hfire
      obtain rfl := Option.some.inj hr
      have hmem {g : DbFrame}
          (hg : g ∈ (s.threads ++ [[DbFrame.repairAfterPanic c]]).flatten) :
          g ∈ s.frames ∨ g = .repairAfterPanic c :=
        (mem_frames_after_world (r := (s.shared, [[DbFrame.repairAfterPanic c]])) hg).imp
          id List.mem_singleton.mp
      refine ⟨hsingle, ?_, ?_, h.numbered, ?_, h.flagged, ?_⟩
      · rw [total_fire_world]
        simpa [DbFrame.weight, DbFrame.holds] using h.exclusive
      · intro connection c' hg
        rcases hmem hg with hg | hg
        · exact h.own connection c' hg
        · cases hg
      · intro connection c' hg
        rcases hmem hg with hg | hg
        · exact h.sound connection c' hg
        · cases hg
      · intro hw g hg
        rcases hmem hg with hg | rfl
        · exact h.alone hw g hg
        · rfl

/-- A calm step meets every condition on panics. -/
theorem panicsAlone_of_calm
    (h : OnRun Calm s l) :
    OnRun PanicsAlone s l := by
  cases l with
  | world c => trivial
  | run i a =>
      intro f hf
      have hcalm := h f hf
      cases f with
      | guarded connection c =>
          cases connection with
          | none => trivial
          | some connection => exact fun hpanics => absurd hpanics hcalm
      | _ => trivial

theorem FlagTells.handsOutSound
    (h : FlagTells s) :
    HandsOutSound s := by
  intro s' hreach
  have hinv : FlagTells s' :=
    hreach.invariant h fun h hok hfire => h.fire (panicsAlone_of_calm hok) hfire
  exact hinv.sound

/-- An operation past its check takes the wedged connection. -/
theorem handsOut_wedged
    {s₀ : DbPool} {connection : Nat}
    (hs : Reachable dbOperations (OnRun Calm) s₀ s)
    (hstanding : s.Standing f)
    (hpast : f.pastCheck = true)
    (hfree : s.shared.locked = false)
    (hconn : s.shared.connection = some connection)
    (hpoisoned : connection ∈ s.shared.poisoned) :
    ¬ HandsOutSound s₀ := by
  intro hsound
  have hlock {s : DbPool} {c : Bool}
      (hs : Reachable dbOperations (OnRun Calm) s₀ s)
      (hstanding : s.Standing (.lock c))
      (hfree : s.shared.locked = false)
      (hconn : s.shared.connection = some connection)
      (hpoisoned : connection ∈ s.shared.poisoned) : False := by
    obtain ⟨s', hs', hshared, hnext, -⟩ :=
      hs.run_standing (a := .done) hstanding trivial
        (show dbOperations.step s.shared (.lock c) .done = some _ by
          simp only [dbOperations, DbFrame.step, hfree, Bool.false_eq_true, if_false]
          rfl)
    have hguarded := hnext _ [] rfl
    rw [hconn] at hguarded
    obtain ⟨t, ht, hhead⟩ := hguarded
    refine hsound s' hs' connection c
      (List.mem_flatten.mpr ⟨t, ht, List.mem_of_mem_head? hhead⟩) ?_
    rw [hshared]
    exact hpoisoned
  cases f with
  | lock c => exact hlock hs hstanding hfree hconn hpoisoned
  | openLocal c =>
      -- the reopen fails, and the operation goes on
      obtain ⟨s', hs', hshared, hnext, -⟩ :=
        hs.run_standing (a := .fails) hstanding trivial rfl
      exact hlock hs' (hnext _ [] rfl) (hshared ▸ hfree) (hshared ▸ hconn)
        (hshared ▸ hpoisoned)
  | clearFlag c =>
      obtain ⟨s', hs', hshared, hnext, -⟩ :=
        hs.run_standing (a := .done) hstanding trivial rfl
      exact hlock hs' (hnext _ [] rfl) (hshared ▸ hfree) (hshared ▸ hconn)
        (hshared ▸ hpoisoned)
  | _ => cases hpast

/-- A panic that leaves the others sound happened alone. -/
theorem panicsAlone_of_handsOutSound
    (h : FlagTells s)
    (hfire : dbOperations.fire s l = some s')
    (hsound : HandsOutSound s') :
    OnRun PanicsAlone s l := by
  cases l with
  | world c => trivial
  | run i a =>
      have hsingle := h.single.fire dbOperations_leavesWaiting hfire
      obtain ⟨f, rest, o, hi, ho, rfl⟩ := fire_run_cases hfire
      intro f' hf'
      obtain rfl : f = f' := by simpa [Pool.top, hi] using hf'
      have hf : f ∈ s.frames := mem_frames_of_getElem? hi (List.mem_cons_self ..)
      cases f with
      | guarded connection c =>
          cases connection with
          | none => trivial
          | some connection =>
              rintro rfl g hg
              by_contra hpast
              simp only [Bool.not_eq_false] at hpast
              obtain rfl := Option.some.inj ho
              have hne : g ≠ .guarded (some connection) c := by
                rintro rfl
                cases hpast
              let o : Outcome LocalDb DbFrame := Outcome.thenRun
                (s.shared.panicked (some connection)) [.unwinding c]
              have hother := (standing_of_mem h.single hg).run
                (P := dbOperations) (o := o) hi hne
              have hnext : o.next = some [.unwinding c] := rfl
              have hunwinding := standing_of_next (P := dbOperations) hi hnext
              obtain ⟨s', hs', hshared, -, hstays⟩ :=
                Reachable.run_standing (P := dbOperations) (c := Calm) (a := .done)
                  .start hunwinding trivial rfl
              refine handsOut_wedged hs'
                (hstays g hother (by rintro rfl; cases hpast)) hpast
                ?_ (show _ = some connection from ?_) ?_ hsound
              · rw [hshared]
                rfl
              · rw [hshared]
                exact h.own _ _ hf
              · rw [hshared]
                exact Finset.mem_union_right _ (Option.mem_toFinset.mpr rfl)
      | _ => trivial

end Steps

/-- The manager with its first connection, if it has one, and no operation
under way. -/
def dbStart (connection : Option Nat) : DbPool where
  shared :=
    { connection := connection
      opened := connection.elim 0 (· + 1)
      needsReopen := false
      locked := false
      poisoned := ∅ }
  threads := []

/-- **Main theorem.**  Along a run no operation under way is handed a
connection on which one panicked exactly when, at every panic on a connection
in the run, no other operation stands past its check without the guard. -/
theorem handsOutSound_iff_panicsAlone
    (connection : Option Nat)
    (ls : List DbLabel)
    (hrun : (dbOperations.exec (dbStart connection) ls).isSome = true) :
    AllStates dbOperations HandsOutSound (dbStart connection) ls ↔
      AllSteps dbOperations (OnRun PanicsAlone) (dbStart connection) ls := by
  refine allStates_iff_allSteps (I := FlagTells) FlagTells.handsOutSound
    FlagTells.fire panicsAlone_of_handsOutSound ⟨?_, ?_, ?_, ?_, ?_, ?_, ?_⟩ hrun
  · simp [Pool.Waiting, dbStart]
  · simp [Pool.total, Pool.frames, dbStart]
  · simp [Pool.frames, dbStart]
  · cases connection <;> simp [dbStart]
  · simp [GuardsSound, dbStart]
  · simp [LocalDb.Wedged, dbStart]
  · simp [LocalDb.Wedged, dbStart]

/-- One operation waits for the mutex while another panics under it. -/
def waitsOverPanic : List DbLabel :=
  [.world true, .run 0 .done, .run 0 .done,
   .world true, .run 1 .done,
   .run 0 .panics, .run 0 .done, .run 1 .done]

theorem handsOutSound_iff_panicsAlone_waitsOverPanic :
    AllStates dbOperations HandsOutSound (dbStart (some 0)) waitsOverPanic ↔
      AllSteps dbOperations (OnRun PanicsAlone) (dbStart (some 0))
        waitsOverPanic :=
  handsOutSound_iff_panicsAlone (some 0) waitsOverPanic (by decide)

/-- The one that waited is handed the connection the other panicked on. -/
theorem hands_out_poisoned :
    ¬ ∀ (connection : Option Nat) (ls : List DbLabel) (s : DbPool),
      dbOperations.exec (dbStart connection) ls = some s →
      GuardsSound s := by
  intro h
  exact h (some 0) waitsOverPanic _ rfl 0 true (by decide) (by decide)

end CockatielEngine
