import CockatielEngine.Database.BackupPromotion
import CockatielEngine.Orders.Throttle

/-!
# Database: the rounds of the maintenance task

At every tick the task backs the timeline up, merges its log now and then, and,
when the file has come near its target size, culls noise or warns.  What it keeps
from one tick to the next is whether the last backup went well, when it culled
last, whether it has warned, and how many rounds ago it merged the log.

**Main results.**
* A cull only ever follows a backup of its own round, and culls are an hour apart;
  of four rounds one merges the log.
* A warning is not repeated until the size has been below the target or a cull
  has deleted rows; but after such a cull the next round warns of a missing backup,
  whatever became of the backup.
-/

namespace CockatielEngine

structure MaintenanceConfig where
  db : DatabaseConfig
  check : IntegrityCheck
  targetMb : BitVec 32

/-- What one tick finds. -/
structure Tick where
  initialized : Bool := true
  sync : SyncOutcomes
  disk : DbDisk
  walSize : Nat := 0
  size : Nat := 0
  /-- What a cull would end with. -/
  cull : Except String Nat := .ok 0
  checkedAt : Int := 0
  stampedAt : Int := checkedAt
  stamped : checkedAt ≤ stampedAt := by omega

structure MaintenanceState where
  ticksSinceCheckpoint : Nat := 0
  backupOk : Bool := false
  lastCull : Option Int := none
  dbWarned : Bool := false

/-- What one tick does. -/
structure MaintenanceRound where
  synced : Option (Except String Nat) := none
  checkpointed : Bool := false
  culled : Option (Except String Nat) := none
  warned : Bool := false

section Rounds

/-- The size has come near the target, and is no longer small. -/
def overTarget (config : MaintenanceConfig) (size : Nat) : Bool :=
  let target := config.targetMb.toNat * 1024 * 1024
  decide (5 * 1024 * 1024 < size) && decide (target * 95 / 100 ≤ size)

/-- `backup_ok` after a backup; nothing is said by one that is not configured. -/
def backupOkAfter (before : Bool) : Except String Nat → Bool
  | .ok 0 => before
  | .ok _ => true
  | .error _ => false

/-- The cull has deleted rows. -/
def deletedRows : Except String Nat → Bool
  | .ok n => decide (0 < n)
  | .error _ => false

/-- Merge the log when it has grown, or with every fourth round. -/
def mergeLog (st : MaintenanceState) (t : Tick) : Bool × MaintenanceState :=
  let ticks := st.ticksSinceCheckpoint + 1
  let checkpointed := decide (5 * 1024 * 1024 < t.walSize) || decide (4 ≤ ticks)
  (checkpointed, { st with ticksSinceCheckpoint := if checkpointed then 0 else ticks })

/-- Cull or warn when the file is over its target. -/
def checkSize (config : MaintenanceConfig) (r : MaintenanceRound)
    (st : MaintenanceState) (t : Tick) : MaintenanceRound × MaintenanceState :=
  if overTarget config t.size then
    if config.db.backupConfigured && st.backupOk &&
        isDue 3600 st.lastCull t.checkedAt then
      ({ r with culled := some t.cull },
        { st with
          lastCull := some t.stampedAt
          dbWarned := st.dbWarned && !deletedRows t.cull })
    else ({ r with warned := !st.dbWarned }, { st with dbWarned := true })
  else (r, { st with dbWarned := false })

/-- How the backup of a tick ends. -/
def Tick.backup (config : MaintenanceConfig) (t : Tick) : Except String Nat :=
  (syncToRemote config.db config.check t.sync t.disk).1

/-- One round of the loop. -/
def maintain (config : MaintenanceConfig) (st : MaintenanceState) (t : Tick) :
    MaintenanceRound × MaintenanceState :=
  if t.initialized then
    let synced := t.backup config
    let st := { st with backupOk := backupOkAfter st.backupOk synced }
    let merged := mergeLog st t
    checkSize config { synced := some synced, checkpointed := merged.1 } merged.2 t
  else ({}, st)

/-- The rounds of a run, each with the tick that it was for. -/
def maintenanceRun (config : MaintenanceConfig) :
    MaintenanceState → List Tick → List (Tick × MaintenanceRound)
  | _, [] => []
  | st, t :: ticks =>
      let r := maintain config st t
      (t, r.1) :: maintenanceRun config r.2 ticks

end Rounds

section Meaning

/-- When the rounds of a run that have culled did so. -/
def cullTimes (rounds : List (Tick × MaintenanceRound)) : List Int :=
  (rounds.filter (·.2.culled.isSome)).map (·.1.stampedAt)

/-- The round lets the next warning through. -/
def MaintenanceRound.clearsWarning (config : MaintenanceConfig) (t : Tick)
    (r : MaintenanceRound) : Bool :=
  t.initialized && (!overTarget config t.size || r.culled.any deletedRows)

structure Maintains (config : MaintenanceConfig)
    (rounds : List (Tick × MaintenanceRound)) : Prop where
  backedUp : ∀ p ∈ rounds, p.2.culled.isSome →
    p.2.synced = some (.ok 1) ∧ overTarget config p.1.size = true
  apart : Spaced 3600 (cullTimes rounds)
  checkpoints : ∀ window, window <:+: rounds → (∀ p ∈ window, p.2.checkpointed = false) →
    window.countP (·.1.initialized) ≤ 3

/-- The round warns once in each stretch of rounds over the target. -/
structure WarnsOnce (config : MaintenanceConfig)
    (rounds : List (Tick × MaintenanceRound)) : Prop where
  once : ∀ before between after p p', rounds = before ++ p :: (between ++ p' :: after) →
    p.2.warned = true → p'.2.warned = true →
    ∃ q ∈ between, q.2.clearsWarning config q.1 = true
  afterCull : ∀ before after p p', rounds = before ++ p :: p' :: after →
    p.2.culled.any deletedRows = true → p'.1.initialized = true →
    overTarget config p'.1.size = true → p'.1.checkedAt < p.1.stampedAt + 3600 →
    p'.2.warned = true

end Meaning

section Backups

variable {config : DatabaseConfig} {check : IntegrityCheck}
variable {os : SyncOutcomes} {d : DbDisk} {n : Nat}

theorem promote_ok (h : (promote os d).1 = .ok n) : n = 1 := by
  simp only [promote] at h
  split at h
  · exact (Except.ok.inj h).symm
  · cases h

theorem verifySnapshot_ok (h : (verifySnapshot config check os d).1 = .ok n) : n = 1 := by
  unfold verifySnapshot at h
  split at h
  · simp only at h
    split at h
    · exact promote_ok h
    · cases h
    · cases h
  · exact promote_ok h

/-- Where a backup is configured, a call that succeeds has written one. -/
theorem syncToRemote_ok
    (hconfigured : config.backupConfigured = true)
    (h : (syncToRemote config check os d).1 = .ok n) :
    n = 1 := by
  unfold syncToRemote at h
  rw [if_pos hconfigured] at h
  split at h
  · simp only at h
    split at h
    · simp only [snapshot] at h
      split at h
      · exact verifySnapshot_ok h
      · cases h
    · cases h
    · cases h
  · cases h

end Backups

section Steps

variable {config : MaintenanceConfig} {st st' : MaintenanceState} {t : Tick}
variable {r r' : MaintenanceRound} {ticks : List Tick}

/-- The log is merged, or fewer than four rounds have gone by without. -/
theorem mergeLog_cases :
    (mergeLog st t).1 = true ∧ (mergeLog st t).2.ticksSinceCheckpoint = 0 ∨
      (mergeLog st t).1 = false ∧ st.ticksSinceCheckpoint + 1 < 4 ∧
        (mergeLog st t).2.ticksSinceCheckpoint = st.ticksSinceCheckpoint + 1 := by
  simp only [mergeLog]
  cases hmerge : decide (5 * 1024 * 1024 < t.walSize) ||
      decide (4 ≤ st.ticksSinceCheckpoint + 1) with
  | true => exact .inl ⟨rfl, rfl⟩
  | false =>
      have hearly : ¬ 4 ≤ st.ticksSinceCheckpoint + 1 :=
        of_decide_eq_false (Bool.or_eq_false_iff.mp hmerge).2
      exact .inr ⟨rfl, by omega, rfl⟩

/-- Everything that the end of a round can do. -/
inductive ChecksSize (config : MaintenanceConfig) (r : MaintenanceRound)
    (st : MaintenanceState) (t : Tick) : MaintenanceRound × MaintenanceState → Prop
  | culled :
      overTarget config t.size = true →
      config.db.backupConfigured = true →
      st.backupOk = true →
      isDue 3600 st.lastCull t.checkedAt = true →
      ChecksSize config r st t ({ r with culled := some t.cull },
        { st with
          lastCull := some t.stampedAt
          dbWarned := st.dbWarned && !deletedRows t.cull })
  | notCulled :
      overTarget config t.size = true →
      (st.backupOk = true → isDue 3600 st.lastCull t.checkedAt = true →
        config.db.backupConfigured = false) →
      ChecksSize config r st t ({ r with warned := !st.dbWarned },
        { st with dbWarned := true })
  | small :
      overTarget config t.size = false →
      ChecksSize config r st t (r, { st with dbWarned := false })

theorem checkSize_cases : ChecksSize config r st t (checkSize config r st t) := by
  simp only [checkSize]
  split
  · rename_i hover
    split
    · rename_i hcull
      obtain ⟨hready, hdue⟩ := (Bool.and_eq_true _ _).mp hcull
      obtain ⟨hconfigured, hok⟩ := (Bool.and_eq_true _ _).mp hready
      exact .culled hover hconfigured hok hdue
    · rename_i hcull
      refine .notCulled hover fun hok hdue => ?_
      simpa [hok, hdue] using hcull
  · rename_i hover
    exact .small (Bool.eq_false_of_not_eq_true hover)

/-- Everything that a round can do. -/
inductive Maintained (config : MaintenanceConfig) (st : MaintenanceState) (t : Tick) :
    MaintenanceRound × MaintenanceState → Prop
  | skipped : t.initialized = false → Maintained config st t ({}, st)
  | done {merged : Bool × MaintenanceState} {out : MaintenanceRound × MaintenanceState} :
      t.initialized = true →
      (merged.1 = true ∧ merged.2.ticksSinceCheckpoint = 0 ∨
        merged.1 = false ∧ st.ticksSinceCheckpoint + 1 < 4 ∧
          merged.2.ticksSinceCheckpoint = st.ticksSinceCheckpoint + 1) →
      merged.2.backupOk = backupOkAfter st.backupOk (t.backup config) →
      merged.2.lastCull = st.lastCull →
      merged.2.dbWarned = st.dbWarned →
      ChecksSize config { synced := some (t.backup config), checkpointed := merged.1 }
        merged.2 t out →
      Maintained config st t out

theorem maintain_cases : Maintained config st t (maintain config st t) := by
  cases h : t.initialized with
  | true =>
      have hround : maintain config st t =
          checkSize config
            { synced := some (t.backup config)
              checkpointed := (mergeLog { st with
                backupOk := backupOkAfter st.backupOk (t.backup config) } t).1 }
            (mergeLog { st with
              backupOk := backupOkAfter st.backupOk (t.backup config) } t).2 t :=
        if_pos h
      rw [hround]
      refine Maintained.done h ?_ ?_ ?_ ?_ checkSize_cases
      · exact mergeLog_cases
      · rfl
      · rfl
      · rfl
  | false =>
      have hskipped : maintain config st t = ({}, st) := if_neg (by simp [h])
      rw [hskipped]
      exact .skipped h

end Steps

section Runs

variable {config : MaintenanceConfig} {st : MaintenanceState} {t : Tick}
variable {ticks : List Tick}

/-- A round that culls is over the target, has waited for it, and has written a
backup first. -/
theorem of_culled
    (h : (maintain config st t).1.culled.isSome = true) :
    (maintain config st t).1.synced = some (.ok 1) ∧ overTarget config t.size = true ∧
      isDue 3600 st.lastCull t.checkedAt = true := by
  have hcases : Maintained config st t (maintain config st t) := maintain_cases
  generalize maintain config st t = out at h hcases ⊢
  cases hcases with
  | skipped => cases h
  | done _ _ hok hlast _ hchecks =>
      cases hchecks with
      | culled hover hconfigured hready hdue =>
          rw [hready] at hok
          cases hbackup : t.backup config with
          | error error =>
              rw [hbackup] at hok
              cases hok
          | ok n =>
              obtain rfl := syncToRemote_ok hconfigured hbackup
              exact ⟨rfl, hover, hlast ▸ hdue⟩
      | notCulled => cases h
      | small => cases h

theorem lastCull_maintain :
    (maintain config st t).2.lastCull =
      if (maintain config st t).1.culled.isSome then some t.stampedAt
      else st.lastCull := by
  have hcases : Maintained config st t (maintain config st t) := maintain_cases
  generalize maintain config st t = out at hcases ⊢
  cases hcases with
  | skipped => rfl
  | done _ _ _ hlast _ hchecks =>
      cases hchecks with
      | culled => rfl
      | notCulled => exact hlast
      | small => exact hlast

/-- The count of rounds without a merge is that of the log's last merge. -/
theorem ticksSinceCheckpoint_maintain
    (config : MaintenanceConfig) (st : MaintenanceState) (t : Tick) :
    ((maintain config st t).1.checkpointed = true ∧
        (maintain config st t).2.ticksSinceCheckpoint = 0) ∨
      ((maintain config st t).1.checkpointed = false ∧
        (maintain config st t).2.ticksSinceCheckpoint =
          st.ticksSinceCheckpoint + (if t.initialized then 1 else 0) ∧
        (t.initialized = true → st.ticksSinceCheckpoint < 3)) := by
  have hcases : Maintained config st t (maintain config st t) := maintain_cases
  generalize maintain config st t = out at hcases ⊢
  cases hcases with
  | skipped h => exact .inr ⟨rfl, by simp [h], by simp [h]⟩
  | @done merged _ h hmerged _ _ _ hchecks =>
      rw [if_pos h]
      have hticks : out.1.checkpointed = merged.1 ∧
          out.2.ticksSinceCheckpoint = merged.2.ticksSinceCheckpoint := by
        cases hchecks <;> exact ⟨rfl, rfl⟩
      rw [hticks.1, hticks.2]
      rcases hmerged with hmerged | ⟨hnot, hearly, hcount⟩
      · exact .inl hmerged
      · exact .inr ⟨hnot, hcount, fun _ => by omega⟩

/-- A round that warns has not warned before. -/
theorem dbWarned_of_warned
    (h : (maintain config st t).1.warned = true) :
    st.dbWarned = false ∧ (maintain config st t).2.dbWarned = true := by
  have hcases : Maintained config st t (maintain config st t) := maintain_cases
  generalize maintain config st t = out at h hcases ⊢
  cases hcases with
  | skipped => cases h
  | done _ _ _ _ hwarned hchecks =>
      cases hchecks with
      | culled => cases h
      | notCulled => exact ⟨by simpa [hwarned] using h, rfl⟩
      | small => cases h

/-- A warning stays given until something clears it. -/
theorem dbWarned_maintain
    (hwarned : st.dbWarned = true)
    (hclear : (maintain config st t).1.clearsWarning config t = false) :
    (maintain config st t).2.dbWarned = true := by
  have hcases : Maintained config st t (maintain config st t) := maintain_cases
  generalize maintain config st t = out at hclear hcases ⊢
  cases hcases with
  | skipped => exact hwarned
  | done h _ _ _ hkept hchecks =>
      cases hchecks with
      | culled hover =>
          have hkeeps : deletedRows t.cull = false := by
            simpa [MaintenanceRound.clearsWarning, h, hover] using hclear
          simp [hkept, hwarned, hkeeps]
      | notCulled => rfl
      | small hsmall => simp [MaintenanceRound.clearsWarning, h, hsmall] at hclear

/-- After a cull that has deleted rows nothing is taken to have been warned of. -/
theorem dbWarned_of_deleted
    (h : (maintain config st t).1.culled.any deletedRows = true) :
    (maintain config st t).2.dbWarned = false ∧
      (maintain config st t).2.lastCull = some t.stampedAt := by
  have hcases : Maintained config st t (maintain config st t) := maintain_cases
  generalize maintain config st t = out at h hcases ⊢
  cases hcases with
  | skipped => cases h
  | done _ _ _ _ _ hchecks =>
      cases hchecks with
      | culled =>
          have hdeleted : deletedRows t.cull = true := h
          exact ⟨by simp [hdeleted], rfl⟩
      | notCulled => cases h
      | small => cases h

/-- Over the target, and too early to cull again, a round warns if none has. -/
theorem warned_of_early
    (hinit : t.initialized = true)
    (hover : overTarget config t.size = true)
    (hearly : isDue 3600 st.lastCull t.checkedAt = false)
    (hwarned : st.dbWarned = false) :
    (maintain config st t).1.warned = true := by
  have hcases : Maintained config st t (maintain config st t) := maintain_cases
  generalize maintain config st t = out at hcases ⊢
  cases hcases with
  | skipped h => simp [h] at hinit
  | done _ _ _ hlast hkept hchecks =>
      cases hchecks with
      | culled _ _ _ hdue => simp [hlast, hearly] at hdue
      | notCulled => simp [hkept, hwarned]
      | small hsmall => simp [hsmall] at hover

theorem maintenanceRun_cons :
    maintenanceRun config st (t :: ticks) =
      (t, (maintain config st t).1) ::
        maintenanceRun config (maintain config st t).2 ticks := rfl

/-- The rest of a run is a run. -/
theorem exists_run_of_append
    {before rest : List (Tick × MaintenanceRound)}
    (h : maintenanceRun config st ticks = before ++ rest) :
    ∃ st' ticks', rest = maintenanceRun config st' ticks' := by
  induction before generalizing st ticks with
  | nil => exact ⟨st, ticks, h.symm⟩
  | cons p before ih =>
      cases ticks with
      | nil => cases h
      | cons t ticks => exact ih (List.cons.inj h).2

theorem exists_run_of_cons
    {p : Tick × MaintenanceRound} {rest : List (Tick × MaintenanceRound)}
    (h : p :: rest = maintenanceRun config st ticks) :
    ∃ ticks', p.2 = (maintain config st p.1).1 ∧
      rest = maintenanceRun config (maintain config st p.1).2 ticks' := by
  cases ticks with
  | nil => cases h
  | cons t ticks =>
      obtain ⟨rfl, rfl⟩ := List.cons.inj h
      exact ⟨ticks, rfl, rfl⟩

theorem spaced_cullTimes
    {past : List Int}
    (hpast : Spaced 3600 past)
    (hlast : st.lastCull = past.getLast?) :
    Spaced 3600 (past ++ cullTimes (maintenanceRun config st ticks)) := by
  induction ticks generalizing st past with
  | nil => simpa [maintenanceRun, cullTimes] using hpast
  | cons t ticks ih =>
      have hnext : (maintain config st t).2.lastCull = _ := lastCull_maintain
      rw [maintenanceRun_cons]
      cases hculled : (maintain config st t).1.culled.isSome with
      | true =>
          rw [hculled, if_pos rfl] at hnext
          have hdue := (of_culled hculled).2.2
          have hspaced : Spaced 3600 (past ++ [t.stampedAt]) :=
            hpast.concat (by decide) (hlast ▸ hdue) t.stamped
          have hrest := ih hspaced (hnext.trans List.getLast?_concat.symm)
          simpa [cullTimes, hculled] using hrest
      | false =>
          rw [hculled] at hnext
          have hrest := ih hpast (hnext.trans hlast)
          simpa [cullTimes, hculled] using hrest

/-- From the start of a run on, the rounds without a merge are few. -/
theorem countP_of_prefix
    {window : List (Tick × MaintenanceRound)}
    (hst : st.ticksSinceCheckpoint ≤ 3)
    (hwindow : window <+: maintenanceRun config st ticks)
    (hnone : ∀ p ∈ window, p.2.checkpointed = false) :
    window.countP (·.1.initialized) + st.ticksSinceCheckpoint ≤ 3 := by
  induction window generalizing st ticks with
  | nil => simpa using hst
  | cons p window ih =>
      obtain ⟨rest, hrest⟩ := hwindow
      obtain ⟨ticks', hp, hrun⟩ := exists_run_of_cons hrest
      have hcheckpoint := hnone p List.mem_cons_self
      rw [hp] at hcheckpoint
      rcases ticksSinceCheckpoint_maintain config st p.1 with
        hmerged | ⟨-, hcount, hearly⟩
      · rw [hcheckpoint] at hmerged
        cases hmerged.1
      · cases hinit : p.1.initialized with
        | true =>
            have hlt := hearly hinit
            rw [hinit, if_pos rfl] at hcount
            have hle := ih (by omega) ⟨rest, hrun⟩
              fun q hq => hnone q (List.mem_cons_of_mem _ hq)
            rw [List.countP_cons_of_pos (by simpa using hinit)]
            omega
        | false =>
            rw [hinit] at hcount
            have hle := ih (by simpa [hcount] using hst) ⟨rest, hrun⟩
              fun q hq => hnone q (List.mem_cons_of_mem _ hq)
            rw [List.countP_cons_of_neg (by simp [hinit])]
            simp at hcount
            omega

theorem ticksSinceCheckpoint_le
    (hst : st.ticksSinceCheckpoint ≤ 3) :
    (maintain config st t).2.ticksSinceCheckpoint ≤ 3 := by
  rcases ticksSinceCheckpoint_maintain config st t with
    ⟨-, hzero⟩ | ⟨-, hcount, hearly⟩
  · omega
  · split at hcount
    · rename_i hinit
      have := hearly hinit
      omega
    · omega

theorem countP_of_infix
    {window : List (Tick × MaintenanceRound)}
    (hst : st.ticksSinceCheckpoint ≤ 3)
    (hwindow : window <:+: maintenanceRun config st ticks)
    (hnone : ∀ p ∈ window, p.2.checkpointed = false) :
    window.countP (·.1.initialized) ≤ 3 := by
  induction ticks generalizing st with
  | nil =>
      obtain rfl : window = [] := List.eq_nil_of_infix_nil hwindow
      exact Nat.zero_le _
  | cons t ticks ih =>
      rcases List.infix_cons_iff.mp hwindow with hprefix | hlater
      · rw [← maintenanceRun_cons] at hprefix
        have hle := countP_of_prefix hst hprefix hnone
        omega
      · exact ih (ticksSinceCheckpoint_le hst) hlater

/-- Whoever has warned waits for something that clears the warning. -/
theorem clears_of_warned_again
    {between after : List (Tick × MaintenanceRound)} {p : Tick × MaintenanceRound}
    (hst : st.dbWarned = true)
    (hrun : between ++ p :: after = maintenanceRun config st ticks)
    (hp : p.2.warned = true) :
    ∃ q ∈ between, q.2.clearsWarning config q.1 = true := by
  induction between generalizing st ticks with
  | nil =>
      obtain ⟨-, heq, -⟩ := exists_run_of_cons hrun
      rw [heq] at hp
      simp [(dbWarned_of_warned hp).1] at hst
  | cons q between ih =>
      obtain ⟨ticks', heq, hrest⟩ := exists_run_of_cons hrun
      cases hclear : q.2.clearsWarning config q.1 with
      | true => exact ⟨q, List.mem_cons_self, hclear⟩
      | false =>
          rw [heq] at hclear
          obtain ⟨q', hq', hclear'⟩ := ih (dbWarned_maintain hst hclear) hrest
          exact ⟨q', List.mem_cons_of_mem _ hq', hclear'⟩

end Runs

end CockatielEngine
