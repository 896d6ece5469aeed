import BytecodeHost.Digest.Blake3
import BytecodeHost.Encoding.Base58

/-!
# Module identifiers

A module is identified by the digest of its image. As text an identifier is written in base58.

## Main definitions

* `ModuleId.ofImage`: the identifier of an image.
* `ModuleId.toText`, `ModuleId.ofText`: base58 text and its reader.
* `ModuleId.marshal`, `ModuleId.unmarshal`: the same for encoders, which hand over bytes.
-/

namespace BytecodeHost

/-- The digest of a module image. -/
structure ModuleId where
  /-- The digest. -/
  bytes : ByteArray
  /-- A digest has 32 bytes. -/
  size_bytes : bytes.size = 32
  deriving DecidableEq

namespace ModuleId

/-- The identifier of an image. -/
def ofImage (image : ByteArray) : ModuleId :=
  ⟨Blake3.digest image, Blake3.size_digest image⟩

/-- The failure of a byte string that has not the size of an identifier. -/
def wrongSize : Failure :=
  .ofCause .invalidId "invalid module id: must be 32 bytes"

/-- The identifier with the given bytes. -/
def ofBytes (b : ByteArray) : Except Failure ModuleId :=
  if h : b.size = 32 then .ok ⟨b, h⟩ else .error wrongSize

/-- The base58 text of an identifier. -/
def toText (id : ModuleId) : String :=
  Base58.encode id.bytes

/-- The identifier that a base58 text stands for. -/
def ofText (s : String) : Except Failure ModuleId :=
  match Base58.decode s with
  | .error e => .error (e.toFailure.within "base58 decode")
  | .ok b => ofBytes b

/-- The bytes that encoders write for an identifier. -/
def marshal (id : ModuleId) : Text :=
  id.toText

/-- Puts the identifier that bytes stand for in the place of another one, which stays if there is
none. A byte outside of every character is no digit. -/
def unmarshal (current : ModuleId) (t : Text) : ModuleId × Except Failure Unit :=
  match ofText t.lossy with
  | .ok id => (id, .ok ())
  | .error e => (current, .error e)

/-- The first eight characters of the text, for display. -/
def short (id : ModuleId) : String :=
  String.ofList (id.toText.toList.take 8)

/-- Whether an identifier has zero bytes only. -/
def isZero (id : ModuleId) : Bool :=
  Bytes.allZero id.bytes

end ModuleId

end BytecodeHost
