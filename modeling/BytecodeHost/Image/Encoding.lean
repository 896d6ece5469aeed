import BytecodeHost.Encoding.Base58
import BytecodeHost.Encoding.Base64
import BytecodeHost.Encoding.Zstd
import BytecodeHost.Image.Load

/-!
# Images as text

Images travel as base58, as base64, or compressed and then as base64.

## Main definitions

* `ImageEncoding.named`: the encoding with a name; the empty name stands for base64.
* `ImageEncoding.encode`, `ImageEncoding.decode`.
-/

namespace BytecodeHost

/-- How an image is written as text. -/
inductive ImageEncoding where
  | base58
  | base64
  | base64Zstd
  deriving DecidableEq

namespace ImageEncoding

variable [Zstd.Compressor]

/-- The name of an encoding. -/
def name : ImageEncoding → String
  | base58 => "base58"
  | base64 => "base64"
  | base64Zstd => "base64+zstd"

/-- The encoding with a name. -/
def named (s : String) : Except Failure ImageEncoding :=
  if s = "base58" then .ok base58
  else if s = "base64+zstd" then .ok base64Zstd
  else if s = "base64" ∨ s = "" then .ok base64
  else .error (.plain ("unsupported encoding " ++ Text.quoted s : String))

/-- The text of an image. -/
def encode (e : ImageEncoding) (image : ByteArray) : String :=
  match e with
  | base58 => Base58.encode image
  | base64 => Base64.encode image
  | base64Zstd => Base64.encode (Zstd.compress image)

/-- Why a text is no image. -/
inductive DecodeError where
  /-- It is not base58. -/
  | base58 (e : Base58.Error)
  /-- It is not base64 at an offset. -/
  | base64 (offset : Nat)
  /-- It is not the base64 of compressed bytes. -/
  | compressedBase64 (offset : Nat)
  /-- The compressed bytes are no frames, or too long. -/
  | zstd

/-- The failure that a decode error is. -/
def DecodeError.toFailure : DecodeError → Failure
  | base58 e => e.toFailure
  | base64 offset => Base64.corrupt offset
  | compressedBase64 offset => (Base64.corrupt offset).within "base64 decode failed"
  | zstd => .plain "invalid zstd data"

/-- The image that a text stands for. -/
def decode (e : ImageEncoding) (s : String) : Except DecodeError ByteArray :=
  match e with
  | base58 => (Base58.decode s).mapError .base58
  | base64 => (Base64.decode s).mapError .base64
  | base64Zstd =>
    match Base64.decode s with
    | .error offset => .error (.compressedBase64 offset)
    | .ok compressed =>
      match Zstd.decompress maxImageSize compressed with
      | some image => .ok image
      | none => .error .zstd

end ImageEncoding

end BytecodeHost
