import CockatielEngine.Database.Files

/-!
# Database: promotion of a backup

`sync_to_remote` merges the write-ahead log into the main file, copies that file
beside the backup, has the copy verified and renames it over the backup.

**Main result.**  Whatever steps of a call fail, and whatever an earlier call
left behind, the backup is what it was, or is a complete copy of the main file
that the verification found clean; the call reports 1 in the second case alone.
-/

namespace CockatielEngine

open Storage

section Defs

/-- How the checkpoint of the write-ahead log ends. -/
inductive CheckpointResult where
  | merged
  | failed
  | panicked
deriving DecidableEq, Repr

/-- What the operating system and the database answer along one call: `merged`
is what the checkpoint leaves of the main file and of its log. -/
structure SyncOutcomes where
  initialized : Bool := true
  checkpoint : CheckpointResult := .merged
  merged : Option Bytes × Option Bytes
  staleRemoved : Bool := true
  copied : CopyOutcome Bytes := .copied
  copyError : String := ""
  tmpRemoved : Bool := true
  walRemoved : Bool := true
  shmRemoved : Bool := true
  renamed : Bool := true
  renameError : String := ""

/-- Phase 1: merge the log into the main file, if there is a log. -/
def mergeWal (os : SyncOutcomes) (d : DbDisk) : CheckpointResult × DbDisk :=
  if (d .wal).isSome then
    (os.checkpoint,
      Function.update (Function.update d .main os.merged.1) .wal os.merged.2)
  else (.merged, d)

/-- The last phase: drop the sidecars of the snapshot and rename it over the
backup. -/
def promote (os : SyncOutcomes) (d : DbDisk) : Except String Nat × DbDisk :=
  let d := remove d .backupTmpWal os.walRemoved
  let d := remove d .backupTmpShm os.shmRemoved
  let r := rename d .backupTmp .backup os.renamed
  (if r.1 then .ok 1 else .error os.renameError, r.2)

/-- Phase 3: verify the snapshot before it takes the place of the backup. -/
def verifySnapshot (config : DatabaseConfig) (check : IntegrityCheck)
    (os : SyncOutcomes) (d : DbDisk) : Except String Nat × DbDisk :=
  if config.integrityCheckOnBackup then
    let v := checkFileIntegrity check d .backupTmp .backupTmpWal .backupTmpShm
    match v.1 with
    | .clean => promote os v.2
    | .corrupt detail =>
        (.error ("timeline DB failed the integrity check; backup skipped: " ++
            detail),
          remove v.2 .backupTmp os.tmpRemoved)
    | .skipped reason =>
        (.error ("timeline DB integrity check unavailable; backup skipped: " ++
            reason),
          remove v.2 .backupTmp os.tmpRemoved)
  else promote os d

/-- Phase 2: copy the main file beside the backup. -/
def snapshot (config : DatabaseConfig) (check : IntegrityCheck)
    (os : SyncOutcomes) (d : DbDisk) : Except String Nat × DbDisk :=
  let d := remove d .backupTmp os.staleRemoved
  let c := copy d .main .backupTmp os.copied
  if c.1 then verifySnapshot config check os c.2
  else (.error os.copyError, c.2)

/-- One call; the answer is the number of backups written. -/
def syncToRemote (config : DatabaseConfig) (check : IntegrityCheck)
    (os : SyncOutcomes) (d : DbDisk) : Except String Nat × DbDisk :=
  if config.backupConfigured then
    if os.initialized then
      let m := mergeWal os d
      match m.1 with
      | .merged => snapshot config check os m.2
      | .failed =>
          (.error "timeline WAL checkpoint failed; backup skipped", m.2)
      | .panicked =>
          (.error "database operation panicked; connection will be reopened", m.2)
    else (.error "Local database not initialized", d)
  else (.ok 0, d)

/-- The backup is a complete copy of the main file, and the verification found
that copy clean beside the sidecars that were left over. -/
def HoldsVerifiedCopy (check : IntegrityCheck) (d d' : DbDisk) : Prop :=
  ∃ content, d' .backup = some content ∧ d' .main = some content ∧
    (check (some content) (d .backupTmpWal) (d .backupTmpShm)).1 = .clean

/-- The call kept the backup, or replaced it by a verified copy and says so. -/
def KeptOrVerified (check : IntegrityCheck) (d : DbDisk)
    (r : Except String Nat × DbDisk) : Prop :=
  (r.1 ≠ .ok 1 ∧ r.2 .backup = d .backup) ∨
    (r.1 = .ok 1 ∧ HoldsVerifiedCopy check d r.2)

end Defs

section Steps

variable {config : DatabaseConfig} {check : IntegrityCheck}
variable {os : SyncOutcomes} {d d' : DbDisk}

theorem mergeWal_of_ne
    {file : DbFile}
    (hmain : file ≠ .main)
    (hwal : file ≠ .wal) :
    (mergeWal os d).2 file = d file := by
  unfold mergeWal
  split <;> simp [hmain, hwal]

/-- The rename either replaces the backup by the snapshot or does nothing to
it. -/
theorem promote_cases
    (os : SyncOutcomes) (d : DbDisk) :
    ((promote os d).1 ≠ .ok 1 ∧ (promote os d).2 .backup = d .backup) ∨
    ((promote os d).1 = .ok 1 ∧ (promote os d).2 .main = d .main ∧
      ∃ content, d .backupTmp = some content ∧
        (promote os d).2 .backup = some content) := by
  unfold promote
  cases hr : (rename (remove (remove d .backupTmpWal os.walRemoved) .backupTmpShm
      os.shmRemoved) .backupTmp .backup os.renamed).1 with
  | false =>
      refine Or.inl ⟨by simp [hr], ?_⟩
      simp only [rename_of_false hr]
      simp
  | true =>
      obtain ⟨content, hcontent, heq⟩ := rename_of_true hr
      refine Or.inr ⟨by simp [hr], by simp, content, by simpa using hcontent, ?_⟩
      simp [heq]

/-- A snapshot that is not clean leaves the backup; a clean one takes its
place. -/
theorem keptOrVerified_verifySnapshot
    {content : Bytes}
    (check : IntegrityCheck) (os : SyncOutcomes)
    (hcheck : config.integrityCheckOnBackup = true)
    (htmp : d .backupTmp = some content)
    (hmain : d .main = some content) :
    KeptOrVerified check d (verifySnapshot config check os d) := by
  have hsame {file : DbFile} (hwal : file ≠ .backupTmpWal)
      (hshm : file ≠ .backupTmpShm) :
      (checkFileIntegrity check d .backupTmp .backupTmpWal .backupTmpShm).2 file =
        d file :=
    checkFileIntegrity_of_ne hwal hshm
  have hverdict :
      (checkFileIntegrity check d .backupTmp .backupTmpWal .backupTmpShm).1 =
        (check (some content) (d .backupTmpWal) (d .backupTmpShm)).1 := by
    simp [checkFileIntegrity, htmp]
  simp only [verifySnapshot, hcheck, if_true]
  cases hv : (checkFileIntegrity check d .backupTmp .backupTmpWal
      .backupTmpShm).1 with
  | corrupt detail => exact Or.inl ⟨by simp, by simp [hsame]⟩
  | skipped reason => exact Or.inl ⟨by simp, by simp [hsame]⟩
  | clean =>
      rcases promote_cases os
          (checkFileIntegrity check d .backupTmp .backupTmpWal .backupTmpShm).2 with
        ⟨hfailed, hkept⟩ | ⟨hdone, hmain', promoted, htmp', hbackup⟩
      · exact Or.inl ⟨hfailed, hkept.trans (hsame (by decide) (by decide))⟩
      · obtain rfl : content = promoted := by
          rw [hsame (by decide) (by decide), htmp] at htmp'
          exact Option.some.inj htmp'
        refine Or.inr ⟨hdone, content, hbackup, ?_, hverdict ▸ hv⟩
        exact (hmain'.trans (hsame (by decide) (by decide))).trans hmain

/-- The files of the backup, apart from the snapshot, are all a call is judged
by. -/
theorem KeptOrVerified.of_same
    {r : Except String Nat × DbDisk}
    (h : KeptOrVerified check d' r)
    (hbackup : d' .backup = d .backup)
    (hwal : d' .backupTmpWal = d .backupTmpWal)
    (hshm : d' .backupTmpShm = d .backupTmpShm) :
    KeptOrVerified check d r := by
  simpa [KeptOrVerified, HoldsVerifiedCopy, hbackup, hwal, hshm] using h

/-- A snapshot that could not be taken leaves the backup as well. -/
theorem keptOrVerified_snapshot
    (check : IntegrityCheck) (os : SyncOutcomes) (d : DbDisk)
    (hcheck : config.integrityCheckOnBackup = true) :
    KeptOrVerified check d (snapshot config check os d) := by
  unfold snapshot
  cases hc : (copy (remove d .backupTmp os.staleRemoved) .main .backupTmp
      os.copied).1 with
  | false => exact Or.inl ⟨by simp [hc], by simp [hc]⟩
  | true =>
      obtain ⟨content, hmain, hcopy⟩ := copy_of_copied hc
      simp only [hc, if_true]
      have htmp : (copy (remove d .backupTmp os.staleRemoved) .main .backupTmp
          os.copied).2 .backupTmp = some content := by
        simp [hcopy]
      have hmain' : (copy (remove d .backupTmp os.staleRemoved) .main .backupTmp
          os.copied).2 .main = some content := by
        simpa using hmain
      have hverify := keptOrVerified_verifySnapshot check os hcheck htmp hmain'
      refine hverify.of_same ?_ ?_ ?_ <;> simp

end Steps

/-- **Main theorem.**  With the check on backup enabled, after every call the
backup is what it was, or is the complete copy that the verification found
clean, and the call reports 1 in the second case alone. -/
theorem backup_kept_or_verified
    (config : DatabaseConfig) (check : IntegrityCheck)
    (os : SyncOutcomes) (d : DbDisk)
    (hcheck : config.integrityCheckOnBackup = true) :
    KeptOrVerified check d (syncToRemote config check os d) := by
  unfold syncToRemote
  split
  · split
    · have hbackup : (mergeWal os d).2 .backup = d .backup := by
        simp [mergeWal_of_ne]
      cases hm : (mergeWal os d).1 with
      | merged =>
          simp only [hm]
          have hsnapshot := keptOrVerified_snapshot check os (mergeWal os d).2 hcheck
          refine hsnapshot.of_same ?_ ?_ ?_ <;> simp [mergeWal_of_ne]
      | failed => exact Or.inl ⟨by simp [hm], by simpa [hm] using hbackup⟩
      | panicked => exact Or.inl ⟨by simp [hm], by simpa [hm] using hbackup⟩
    · exact Or.inl ⟨by simp, rfl⟩
  · exact Or.inl ⟨by simp, rfl⟩

/-- A backup over an older one; the snapshot of a failed call is still there. -/
def olderBackup : DbDisk
  | .main => some [1, 2]
  | .backup => some [1]
  | .backupTmp => some [9]
  | _ => none

theorem backup_kept_or_verified_olderBackup :
    KeptOrVerified (fun _ _ _ => (.clean, none, none)) olderBackup
      (syncToRemote { localPath := "timeline.db", remoteUrl := some "backup.db" }
        (fun _ _ _ => (.clean, none, none)) { merged := (none, none) }
        olderBackup) :=
  backup_kept_or_verified _ _ _ olderBackup rfl

end CockatielEngine
