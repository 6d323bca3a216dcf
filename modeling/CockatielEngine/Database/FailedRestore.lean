import CockatielEngine.Database.Files

/-!
# Database: a restore that fails

A corrupt database is replaced by its backup or else moved aside for repair.
The restore drops the sidecars of the corrupt database before it copies the
backup, and the copy or the rename may fail after that.

**Main result.**  A restore that answers `false` leaves the database and its
sidecars as they were, so that moving it aside keeps every byte of it, exactly
when no sidecar was dropped before a copy or a rename that failed.
-/

namespace CockatielEngine

open Storage

section Defs

/-- What the operating system answers along a restore. -/
structure RestoreOutcomes where
  walRemoved : Bool := true
  shmRemoved : Bool := true
  staleRemoved : Bool := true
  copied : CopyOutcome Bytes := .copied
  renamed : Bool := true
  tmpRemoved : Bool := true

/-- What the operating system answers while the database is moved aside. -/
structure AsideOutcomes where
  mainRenamed : Bool := true
  walRenamed : Bool := true
  shmRenamed : Bool := true

/-- Drop the sidecars, copy the backup beside the database and rename the copy
over it. -/
def swapInBackup (os : RestoreOutcomes) (d : DbDisk) : Bool × DbDisk :=
  let d := remove d .wal os.walRemoved
  let d := remove d .shm os.shmRemoved
  let d := remove d .restoreTmp os.staleRemoved
  let c := copy d .backup .restoreTmp os.copied
  if c.1 then
    let r := rename c.2 .restoreTmp .main os.renamed
    if r.1 then (true, r.2)
    else (false, remove r.2 .restoreTmp os.tmpRemoved)
  else (false, remove c.2 .restoreTmp os.tmpRemoved)

/-- Replace the database by the backup, but only by one that is verified. -/
def restoreCleanBackup (config : DatabaseConfig) (check : IntegrityCheck)
    (os : RestoreOutcomes) (d : DbDisk) : Bool × DbDisk :=
  if config.backupConfigured then
    if (d .backup).isSome then
      let v := checkFileIntegrity check d .backup .backupWal .backupShm
      match v.1 with
      | .clean => swapInBackup os v.2
      | .corrupt _ => (false, v.2)
      | .skipped _ => (false, v.2)
    else (false, d)
  else (false, d)

/-- Move the database and its sidecars out of the way. -/
def moveCorruptAside (os : AsideOutcomes) (d : DbDisk) : DbDisk :=
  if (d .main).isSome then
    let m := rename d .main .aside os.mainRenamed
    if m.1 then
      (rename (rename m.2 .wal .asideWal os.walRenamed).2
        .shm .asideShm os.shmRenamed).2
    else m.2
  else d

/-- The startup gate: restore a corrupt database or move it aside. -/
def integrityGateOnOpen (config : DatabaseConfig) (check : IntegrityCheck)
    (os : RestoreOutcomes) (aside : AsideOutcomes) (d : DbDisk) : DbDisk :=
  if config.integrityCheckOnOpen && config.localPath != ":memory:" then
    match d .main with
    | none => d
    | some content =>
        if content.length < config.integrityCheckMinMb * 1024 * 1024 then d
        else
          let v := checkFileIntegrity check d .main .wal .shm
          match v.1 with
          | .clean => v.2
          | .skipped _ => v.2
          | .corrupt _ =>
              let r := restoreCleanBackup config check os v.2
              if r.1 then r.2 else moveCorruptAside aside r.2
  else d

/-- The local database and its sidecars are what they were. -/
def LocalIntact (d d' : DbDisk) : Prop :=
  d' .main = d .main ∧ d' .wal = d .wal ∧ d' .shm = d .shm

/-- Every byte of the local database is still where it was or beside it. -/
def KeepsBytes (d d' : DbDisk) : Prop :=
  (d' .main = d .main ∨ d' .aside = d .main) ∧
    (d' .wal = d .wal ∨ d' .asideWal = d .wal) ∧
    (d' .shm = d .shm ∨ d' .asideShm = d .shm)

/-- A restore that fails loses nothing, and nothing is lost when the database is
moved aside after it. -/
def LosesNothing (config : DatabaseConfig) (check : IntegrityCheck)
    (os : RestoreOutcomes) (d : DbDisk) : Prop :=
  (restoreCleanBackup config check os d).1 = false →
    LocalIntact d (restoreCleanBackup config check os d).2 ∧
      ∀ aside, KeepsBytes d
        (moveCorruptAside aside (restoreCleanBackup config check os d).2)

/-- The copy of the backup or its rename fails. -/
def RestoreOutcomes.swapFails (os : RestoreOutcomes) : Prop :=
  os.copied ≠ .copied ∨ os.renamed = false

/-- A backup is configured, is there and was verified. -/
def HasCleanBackup (config : DatabaseConfig) (check : IntegrityCheck)
    (d : DbDisk) : Prop :=
  config.backupConfigured = true ∧ (d .backup).isSome = true ∧
    (check (d .backup) (d .backupWal) (d .backupShm)).1 = .clean

/-- A verified backup whose swap fails finds no sidecar that the restore can
drop. -/
def DropsNothing (config : DatabaseConfig) (check : IntegrityCheck)
    (os : RestoreOutcomes) (d : DbDisk) : Prop :=
  HasCleanBackup config check d →
    os.swapFails →
    (d .wal = none ∨ os.walRemoved = false) ∧
      (d .shm = none ∨ os.shmRemoved = false)

end Defs

section Steps

variable {config : DatabaseConfig} {check : IntegrityCheck}
variable {os : RestoreOutcomes} {d d' : DbDisk}

/-- A sidecar survives its deletion when it was absent or the deletion failed. -/
theorem remove_self_eq_iff
    (d : DbDisk) (file : DbFile) (ok : Bool) :
    remove d file ok file = d file ↔ d file = none ∨ ok = false := by
  rw [remove_self]
  cases ok <;> simp [eq_comm]

/-- A swap fails exactly when its copy or its rename does; it then leaves of the
local database what the deletions left. -/
theorem swapInBackup_cases
    (os : RestoreOutcomes)
    (hbackup : (d .backup).isSome = true) :
    ((swapInBackup os d).1 = true ∧ ¬ os.swapFails) ∨
    ((swapInBackup os d).1 = false ∧ os.swapFails ∧
      (swapInBackup os d).2 .main = d .main ∧
      (swapInBackup os d).2 .wal = remove d .wal os.walRemoved .wal ∧
      (swapInBackup os d).2 .shm = remove d .shm os.shmRemoved .shm) := by
  obtain ⟨content, hcontent⟩ := Option.isSome_iff_exists.mp hbackup
  unfold swapInBackup
  cases hcopied : os.copied with
  | failed left =>
      refine Or.inr ⟨by simp [copy], Or.inl (by simp [hcopied]), ?_, ?_, ?_⟩ <;>
        simp [copy, remove_self]
  | copied =>
      cases hrenamed : os.renamed with
      | true => exact Or.inl ⟨by simp [copy, rename, hcontent],
          by simp [RestoreOutcomes.swapFails, hcopied, hrenamed]⟩
      | false =>
          refine Or.inr ⟨by simp [copy, rename, hcontent], Or.inr hrenamed, ?_, ?_,
              ?_⟩ <;>
            simp [copy, rename, hcontent, remove_self]

/-- Everything a restore can do: swap in a verified backup, or answer `false`
without touching the local database. -/
theorem restoreCleanBackup_cases
    (config : DatabaseConfig) (check : IntegrityCheck)
    (os : RestoreOutcomes) (d : DbDisk) :
    (HasCleanBackup config check d ∧ ∃ checked : DbDisk,
      (∀ file, file ≠ .backupWal → file ≠ .backupShm → checked file = d file) ∧
      restoreCleanBackup config check os d = swapInBackup os checked) ∨
    (¬ HasCleanBackup config check d ∧
      LocalIntact d (restoreCleanBackup config check os d).2) := by
  have hchecked (file : DbFile) (hwal : file ≠ .backupWal)
      (hshm : file ≠ .backupShm) :
      (checkFileIntegrity check d .backup .backupWal .backupShm).2 file = d file :=
    checkFileIntegrity_of_ne hwal hshm
  have hverdict : (checkFileIntegrity check d .backup .backupWal .backupShm).1 =
      (check (d .backup) (d .backupWal) (d .backupShm)).1 := rfl
  unfold restoreCleanBackup HasCleanBackup
  by_cases hconfigured : config.backupConfigured = true
  · by_cases hbackup : (d .backup).isSome = true
    · cases hv : (check (d .backup) (d .backupWal) (d .backupShm)).1 with
      | clean =>
          refine Or.inl ⟨⟨hconfigured, hbackup, rfl⟩, _, hchecked, ?_⟩
          simp [hconfigured, hbackup, hverdict, hv]
      | corrupt detail =>
          refine Or.inr ⟨by simp, ?_⟩
          simp [hconfigured, hbackup, hverdict, hv, LocalIntact, hchecked]
      | skipped reason =>
          refine Or.inr ⟨by simp, ?_⟩
          simp [hconfigured, hbackup, hverdict, hv, LocalIntact, hchecked]
    · exact Or.inr ⟨by simp [hbackup], by simp [hconfigured, hbackup, LocalIntact]⟩
  · exact Or.inr ⟨by simp [hconfigured], by simp [hconfigured, LocalIntact]⟩

/-- Moving an intact database aside keeps its bytes. -/
theorem LocalIntact.keepsBytes
    (h : LocalIntact d d')
    (aside : AsideOutcomes) :
    KeepsBytes d (moveCorruptAside aside d') := by
  obtain ⟨hmain, hwal, hshm⟩ := h
  rw [KeepsBytes, ← hmain, ← hwal, ← hshm]
  unfold moveCorruptAside
  split
  · cases hm : (rename d' .main .aside aside.mainRenamed).1 with
    | false =>
        simp only [hm, rename_of_false hm]
        exact ⟨Or.inl rfl, Or.inl rfl, Or.inl rfl⟩
    | true =>
        simp only [hm, if_true]
        refine ⟨?_, ?_, ?_⟩
        · simpa using rename_keeps d' .main .aside aside.mainRenamed
        · have hkeeps := rename_keeps (rename d' .main .aside aside.mainRenamed).2
            .wal .asideWal aside.walRenamed
          simpa using hkeeps
        · have hkeeps := rename_keeps
            (rename (rename d' .main .aside aside.mainRenamed).2
              .wal .asideWal aside.walRenamed).2 .shm .asideShm aside.shmRenamed
          simpa using hkeeps
  · exact ⟨Or.inl rfl, Or.inl rfl, Or.inl rfl⟩

/-- What a failed swap leaves is intact exactly when it dropped no sidecar. -/
theorem localIntact_swap_iff
    {checked : DbDisk}
    (hchecked : ∀ file, file ≠ .backupWal → file ≠ .backupShm →
      checked file = d file)
    (hbackup : (checked .backup).isSome = true)
    (hswap : os.swapFails) :
    LocalIntact d (swapInBackup os checked).2 ↔
      (d .wal = none ∨ os.walRemoved = false) ∧
        (d .shm = none ∨ os.shmRemoved = false) := by
  have hsame {file : DbFile} (hwal : file ≠ .backupWal)
      (hshm : file ≠ .backupShm) := hchecked file hwal hshm
  rcases swapInBackup_cases os hbackup with ⟨-, hdone⟩ | ⟨-, -, hmain, hwal, hshm⟩
  · exact absurd hswap hdone
  · rw [LocalIntact, hmain, hwal, hshm, ← remove_self_eq_iff d .wal,
      ← remove_self_eq_iff d .shm]
    simp [remove_self, hsame]

theorem DropsNothing.losesNothing
    (h : DropsNothing config check os d) :
    LosesNothing config check os d := by
  intro hfalse
  have hintact : LocalIntact d (restoreCleanBackup config check os d).2 := by
    rcases restoreCleanBackup_cases config check os d with
      ⟨hclean, checked, hchecked, hrestore⟩ | ⟨-, hintact⟩
    · have hbackup : (checked .backup).isSome = true := by
        rw [hchecked _ (by decide) (by decide)]
        exact hclean.2.1
      rw [hrestore] at hfalse ⊢
      rcases swapInBackup_cases os hbackup with ⟨hdone, -⟩ | ⟨-, hswap, -⟩
      · simp [hdone] at hfalse
      · exact (localIntact_swap_iff hchecked hbackup hswap).mpr (h hclean hswap)
    · exact hintact
  exact ⟨hintact, hintact.keepsBytes⟩

theorem LosesNothing.dropsNothing
    (h : LosesNothing config check os d) :
    DropsNothing config check os d := by
  intro hclean hswap
  rcases restoreCleanBackup_cases config check os d with
    ⟨-, checked, hchecked, hrestore⟩ | ⟨hnone, -⟩
  · have hbackup : (checked .backup).isSome = true := by
      rw [hchecked _ (by decide) (by decide)]
      exact hclean.2.1
    rcases swapInBackup_cases os hbackup with ⟨-, hdone⟩ | ⟨hfailed, -⟩
    · exact absurd hswap hdone
    · have hintact := (h (by rw [hrestore, hfailed])).1
      rw [hrestore] at hintact
      exact (localIntact_swap_iff hchecked hbackup hswap).mp hintact
  · exact absurd hclean hnone

/-- The startup gate keeps every byte of a corrupt database that it could not
restore. -/
theorem keepsBytes_integrityGateOnOpen
    {detail : String} {content : Bytes} {checked : DbDisk}
    (aside : AsideOutcomes)
    (hopen : config.integrityCheckOnOpen = true)
    (hpath : config.localPath ≠ ":memory:")
    (hmain : d .main = some content)
    (hsize : config.integrityCheckMinMb * 1024 * 1024 ≤ content.length)
    (hcheck : checkFileIntegrity check d .main .wal .shm = (.corrupt detail, checked))
    (hfalse : (restoreCleanBackup config check os checked).1 = false)
    (h : DropsNothing config check os checked) :
    KeepsBytes checked (integrityGateOnOpen config check os aside d) := by
  have hgate : integrityGateOnOpen config check os aside d =
      moveCorruptAside aside (restoreCleanBackup config check os checked).2 := by
    simp [integrityGateOnOpen, hopen, hpath, hmain, not_lt.mpr hsize, hcheck, hfalse]
  rw [hgate]
  exact (h.losesNothing hfalse).2 aside

end Steps

/-- **Main theorem.**  A restore that answers `false` leaves the local main,
`-wal` and `-shm` files as they were, and every byte survives their being moved
aside, exactly when no copy or rename of a verified backup fails over a sidecar
that the restore could drop. -/
theorem losesNothing_iff_dropsNothing
    (config : DatabaseConfig) (check : IntegrityCheck)
    (os : RestoreOutcomes) (d : DbDisk) :
    LosesNothing config check os d ↔ DropsNothing config check os d :=
  ⟨LosesNothing.dropsNothing, DropsNothing.losesNothing⟩

/-- A corrupt database with a write-ahead log, and its backup. -/
def corruptWithWal : DbDisk
  | .main => some [7]
  | .wal => some [8]
  | .backup => some [1]
  | _ => none

/-- The copy fails after the log was deleted. -/
theorem wal_lost_by_failed_restore :
    ¬ ∀ (config : DatabaseConfig) (check : IntegrityCheck)
        (os : RestoreOutcomes) (d : DbDisk),
      LosesNothing config check os d := by
  intro h
  have hlost := h { localPath := "timeline.db", remoteUrl := some "backup.db" }
    (fun _ wal shm => (.clean, wal, shm)) { copied := .failed none } corruptWithWal
  obtain ⟨⟨-, hwal, -⟩, -⟩ := hlost (by decide)
  exact absurd hwal (by decide)

end CockatielEngine
