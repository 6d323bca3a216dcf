import CockatielEngine.Commands.CommandParsing
import CockatielEngine.Database.Timeline

/-!
# Audit: held block appeals

A row held for audit whose reason marks it as a block appeal has two side
effects when it is resolved: an approval unblocks the user, and the verdict is
relayed to the block module.
-/

namespace CockatielEngine

/-- The parts of a `flags` column. -/
def flagParts (reason : String) : List Text :=
  reason.toList.splitOn ','

/-- Whether the reason marks a block appeal, whatever audio markers a later
stage has added to it. -/
def isBlockAppealReason (reason : String) : Bool :=
  (flagParts reason).any fun part =>
    "block appeal ".toList.isPrefixOf (Text.trim part)

/-- The content of a row, as the audit prompt shows it. -/
structure AuditEntry where
  platform : String
  rawMessage : String
  userUuid7 : Option String
  reason : Option String
deriving DecidableEq, Repr

namespace Timeline

/-- The content of a row, whatever its status. -/
def getAuditEntry (t : Timeline) (uuid7 : String) : Option AuditEntry :=
  (t.row? uuid7).map fun r =>
    { platform := r.platform
      rawMessage := r.rawMessage
      userUuid7 := r.userUuid7
      reason := r.flags }

/-- The reason an audit query acts on. -/
def auditReason (t : Timeline) (uuid7 : String) : String :=
  ((t.getAuditEntry uuid7).bind (·.reason)).getD ""

/-- The user whose appeal the row holds. -/
def appealUser (t : Timeline) (uuid7 : String) : String :=
  ((t.getAuditEntry uuid7).bind (·.userUuid7)).getD ""

end Timeline

/-- The verdict that the block module is told. -/
structure AppealVerdict where
  uuid7 : String
  approved : Bool
deriving DecidableEq, Repr

end CockatielEngine
