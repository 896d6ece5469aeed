import BytecodeHost.Encoding.Cbor
import BytecodeHost.Encoding.Zstd
import BytecodeHost.Snapshot.Info
import BytecodeHost.Text.Quoted

/-!
# Snapshot files

A file is a magic number followed by a compressed record of the snapshot's description and bytes.
Reading a file checks the label, the length and the digest, so data that are returned are the
data that were written.

## Main definitions

* `Snapshot.payload`, `Snapshot.toFile`: the record, and the file around it.
* `Snapshot.ofFile`: the data and the description in a file.
-/

namespace BytecodeHost

namespace Snapshot

variable [Zstd.Compressor]

/-- The bytes every file starts with. -/
def fileMagic : ByteArray :=
  "QVMS".toUTF8.push 1

/-- How much of a file's decompressed contents is read. Damage that comes after it goes
unnoticed. -/
def maxPayloadSize : Nat := 64 * 1024 * 1024 + 4096

/-- The most bytes that a file may decompress to. -/
def maxDecompressedSize : Nat := 1 <<< 36

/-- A description as a record with numbered fields. -/
def Info.toCbor (i : Info) : Cbor :=
  .map [(.uint 1, .bytes i.moduleId.bytes), (.uint 2, .ofString i.label), (.uint 3, .ofInt i.size),
    (.uint 4, .ofInt i.stored), (.uint 5, .bytes i.digest), (.uint 6, .ofInt i.createdAt)]

/-- The record of a description and its data. -/
def payload (info : Info) (data : ByteArray) : ByteArray :=
  (Cbor.map [(.uint 1, info.toCbor), (.uint 2, .bytes data)]).encode

/-- The file of a description and its data. -/
def toFile (info : Info) (data : ByteArray) : ByteArray :=
  fileMagic ++ Zstd.compress (payload info data)

/-- Why a file is refused. -/
inductive FileError where
  /-- The file ends before its magic number does. -/
  | tooShort (size : Nat)
  /-- The file starts with other bytes. -/
  | badMagic (found : ByteArray)
  /-- The contents do not decompress. -/
  | undecodable
  /-- The contents are no record of a snapshot. -/
  | malformed
  /-- The label is empty or too long. -/
  | invalidLabel
  /-- The data do not have the length or the digest of the description. -/
  | digestMismatch
  deriving DecidableEq

/-- The text of a file that is refused. -/
def invalidFileText : String :=
  "invalid snapshot file"

/-- The failure that a file error is. -/
def FileError.toFailure : FileError → Failure
  | tooShort size =>
    let reason := if size = 0 then "EOF" else "unexpected EOF"
    .ofCause .invalidFile (invalidFileText ++ ": " ++ reason : String)
  | badMagic found =>
    .ofCause .invalidFile (invalidFileText ++ ": bad magic " ++ Text.quoted ⟨found⟩ : String)
  | undecodable => .ofCause .decompressionFailed "decompression failed"
  | malformed => .ofCause .invalidFile invalidFileText
  | invalidLabel => .ofCause .invalidFile (invalidFileText ++ ": " ++ invalidLabelText : String)
  | digestMismatch => .ofCause .corruptedData (corruptedText ++ ": digest mismatch" : String)

/-- The description in a record. -/
def Info.ofCbor? (c : Cbor) : Option Info := do
  let entries ← c.toEntries?
  let id ← (Cbor.field entries 1).toBytesWithin? (some 32)
  let label ← (Cbor.field entries 2).toText?
  let size ← (Cbor.field entries 3).toInt?
  let stored ← (Cbor.field entries 4).toInt?
  let digest ← (Cbor.field entries 5).toFixedBytes? 32
  let createdAt ← (Cbor.field entries 6).toInt?
  return { moduleId := ⟨Cbor.fixedSize 32 id, Cbor.size_fixedSize 32 id⟩
           label, size, stored, digest, createdAt }

/-- The description and the data in a record. -/
def ofPayload? (raw : ByteArray) : Option (Info × ByteArray) := do
  let entries ← (← Cbor.parse? raw).toEntries?
  let info ← Info.ofCbor? (Cbor.field entries 1)
  let data ← (Cbor.field entries 2).toBytes?
  return (info, data)

/-- The description and the data in a file. -/
def ofFile (file : ByteArray) : Except FileError (Info × ByteArray) :=
  let magic := file.extract 0 fileMagic.size
  if magic.size < fileMagic.size then .error (.tooShort file.size)
  else if magic ≠ fileMagic then .error (.badMagic magic)
  else
    let rest := file.extract fileMagic.size file.size
    match Zstd.decompressFirst maxDecompressedSize maxPayloadSize rest with
    | none => .error .undecodable
    | some raw =>
      match ofPayload? raw with
      | none => .error .malformed
      | some (info, data) =>
        if !isLabel info.label then .error .invalidLabel
        else if (data.size : Int) ≠ info.size ∨ Blake3.digest data ≠ info.digest then
          .error .digestMismatch
        else .ok (info, data)

end Snapshot

end BytecodeHost
