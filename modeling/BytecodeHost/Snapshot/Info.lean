import BytecodeHost.Failure
import BytecodeHost.ModuleId

/-!
# Snapshots

A snapshot is a copy of an arena, taken between calls and kept under the module it belongs to and
a label. Labels have 1 to 128 bytes.
-/

namespace BytecodeHost

namespace Snapshot

/-- What is known of a snapshot besides its bytes. -/
structure Info where
  /-- The module that the arena belongs to. -/
  moduleId : ModuleId
  /-- What the snapshot is called. -/
  label : String
  /-- The length of the arena. -/
  size : Int
  /-- The length of the compressed arena. -/
  stored : Int
  /-- The digest of the arena. -/
  digest : ByteArray
  /-- When the snapshot was saved, in nanoseconds. -/
  createdAt : Int
  deriving DecidableEq

/-- The longest label, in bytes. -/
def maxLabelSize : Nat := 128

/-- Whether a label is neither empty nor too long. -/
def isLabel (label : String) : Bool :=
  0 < label.utf8ByteSize && label.utf8ByteSize ≤ maxLabelSize

/-- The text of a label that is refused. -/
def invalidLabelText : String :=
  "invalid snapshot label"

/-- The text of data that do not have their digest. -/
def corruptedText : String :=
  "corrupted snapshot data"

/-- The time of a snapshot in whole seconds. -/
def Info.createdSeconds (i : Info) : Int :=
  i.createdAt.fdiv 1000000000

end Snapshot

end BytecodeHost
