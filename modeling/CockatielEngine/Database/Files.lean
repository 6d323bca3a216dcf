import CockatielEngine.Storage.Disk
import CockatielEngine.Database.Timeline
import CockatielEngine.Blocks.BlockCache

/-!
# Database: the files on disk

The local database with its sidecars, the backup, and the files the backup and
the restore write on the way.  Each file is named by its role; their paths are
all different.

The integrity check is a program outside the engine.  It reads a database file
with its sidecars and may leave others in the sidecars' place: the read-write
retry lets it recover a write-ahead log, while `query_only` still refuses writes
to the database itself.
-/

namespace CockatielEngine

open Storage

inductive DbFile where
  | main
  | wal
  | shm
  | backup
  | backupWal
  | backupShm
  | backupTmp
  | backupTmpWal
  | backupTmpShm
  | restoreTmp
  | aside
  | asideWal
  | asideShm
deriving DecidableEq, Repr

abbrev DbDisk := Disk DbFile Bytes

structure DatabaseConfig where
  localPath : String
  remoteUrl : Option String
  integrityCheckOnOpen : Bool := true
  integrityCheckOnBackup : Bool := true
  integrityCheckMinMb : Nat := 5

/-- True when a backup path is configured. -/
def DatabaseConfig.backupConfigured (config : DatabaseConfig) : Bool :=
  match config.remoteUrl with
  | some bp => decide (trimmed bp ≠ "")
  | none => false

/-- The verdict of an integrity check on a database file. -/
inductive IntegrityVerdict where
  | clean
  | corrupt (detail : String)
  | skipped (reason : String)
deriving DecidableEq, Repr

/-- What a check finds in a database file with its `-wal` and `-shm`, and what it
leaves in the place of these two. -/
abbrev IntegrityCheck :=
  Option Bytes → Option Bytes → Option Bytes →
    IntegrityVerdict × Option Bytes × Option Bytes

/-- `check_file_integrity` on a file of the disk. -/
def checkFileIntegrity (check : IntegrityCheck) (d : DbDisk)
    (file walFile shmFile : DbFile) : IntegrityVerdict × DbDisk :=
  let r := check (d file) (d walFile) (d shmFile)
  (r.1, Function.update (Function.update d walFile r.2.1) shmFile r.2.2)

theorem checkFileIntegrity_of_ne
    {check : IntegrityCheck} {d : DbDisk} {file walFile shmFile other : DbFile}
    (hwal : other ≠ walFile)
    (hshm : other ≠ shmFile) :
    (checkFileIntegrity check d file walFile shmFile).2 other = d other := by
  simp [checkFileIntegrity, hwal, hshm]

end CockatielEngine
