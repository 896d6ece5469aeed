import BytecodeHost.Digest.Blake3
import BytecodeHost.Machine.Host

/-!
# Standard traps

A registry maps trap numbers to handlers. The standard ones print, abort, read the clock, hash,
allocate, fill and copy memory. Pointers that a module passes are addresses in its arena; a range
is checked before it is used, so a trap either fails and writes nothing or writes exactly its
range.

Output goes through a writer that the embedding supplies, and so does the clock.

## Main definitions

* `Registry`: handlers by trap number.
* `Registry.standard`: the standard traps.
* `Registry.host`: a host that refuses every trap without a handler.
-/

namespace BytecodeHost

/-- Handlers by trap number, each number at most once. -/
structure Registry (σ : Type) where
  /-- The handlers. -/
  handlers : List (Int32 × Host σ)

namespace Registry

variable {σ : Type}

/-- The handler of a trap. -/
def find? (r : Registry σ) (number : Int32) : Option (Host σ) :=
  r.handlers.lookup number

/-- Adds a handler or replaces the one with the same number. -/
def register (r : Registry σ) (number : Int32) (h : Host σ) : Registry σ :=
  ⟨(number, h) :: r.handlers.filter (·.1 != number)⟩

/-- The registered trap numbers in ascending order. -/
def numbers (r : Registry σ) : List Int32 :=
  (r.handlers.map (·.1)).mergeSort (fun a b => a ≤ b)

/-- The host that a registry makes. -/
def host (r : Registry σ) : Host σ := fun words =>
  let number := (words.getD 0 0).toInt32
  match r.find? number with
  | some h => h words
  | none => pure (.refused (.ofCause .unknownTrap s!"unknown trap: {number.toInt}"))

end Registry

/-! ## Handlers -/

namespace StandardTrap

variable {σ : Type}

/-- Where printed bytes go; a writer may fail. -/
abbrev Writer (σ : Type) : Type := ByteArray → HostM σ (Except Failure Unit)

/-- The longest string that is printed; longer ones are cut. -/
def maxPrintLength : Nat := 8192

/-- The longest range that a memory trap touches. -/
def maxRangeLength : UInt32 := 10485760

/-- Argument `i` of a trap. -/
def arg (words : Array UInt32) (i : Nat) : UInt32 :=
  words.getD i 0

/-- The string at an address. -/
def readString (address : UInt32) : HostM σ (Except Failure ByteArray) :=
  HostM.ask (.cString address)

/-- Whether a range lies in the arena. -/
def checkRange (address length : UInt32) : HostM σ (Except Failure Unit) :=
  HostM.ask (.validateRange address length)

/-- The bytes of a checked range. -/
def readRange (address length : UInt32) : HostM σ ByteArray := do
  let m : Machine ← HostM.ask .inspect
  match m.loaded with
  | some l => pure (l.arena.read address.toNat length.toNat)
  | none => pure .empty

/-- Writes bytes at the start of a checked range. -/
def writeRange (address : UInt32) (bytes : ByteArray) : HostM σ Unit :=
  HostM.ask (.poke address.toNat bytes)

/-- Answers zero if a write succeeded. -/
def written : Except Failure Unit → TrapReply
  | .ok () => .value 0
  | .error f => .refused f

/-- The failure of a range that is too long. -/
def tooLong (what : String) (length : UInt32) : Failure :=
  .ofCause .invalidLength s!"invalid length: {what} of {length.toNat} bytes"

/-- `print(string)`. -/
def print (write : Writer σ) : Host σ := fun words => do
  match ← readString (arg words 1) with
  | .error f => pure (.refused f)
  | .ok s => return written (← write (s.extract 0 maxPrintLength))

/-- `error(string)` aborts the call. -/
def abort : Host σ := fun words => do
  match ← readString (arg words 1) with
  | .error f => pure (.refused f)
  | .ok s => pure (.refused (.ofCause .moduleAbort ("module error: " ++ Text.mk s)))

/-- `nice()`. -/
def nice (write : Writer σ) : Host σ := fun _ => do
  return written (← write "Nice.\n".toUTF8)

/-- `milliseconds()` since the registry was made. -/
def milliseconds (clock : HostM σ Int64) : Host σ := fun _ => do
  return .value (← clock)

/-- `malloc(size)`. -/
def malloc : Host σ := fun words => do
  let r : Except Failure UInt32 ← HostM.ask (.malloc (arg words 1).toInt32)
  match r with
  | .error f => pure (.refused f)
  | .ok address => pure (.value address.toInt32.toInt64)

/-- `memset(dst, byte, length)` answers `dst`. -/
def memset : Host σ := fun words => do
  let dst := arg words 1
  let length := arg words 3
  if length = 0 then return .value dst.toInt32.toInt64
  if maxRangeLength < length then return .refused (tooLong "memset" length)
  match ← checkRange dst length with
  | .error f => return .refused f
  | .ok () =>
    writeRange dst (Bytes.fill (arg words 2).toUInt8 length.toNat)
    return .value dst.toInt32.toInt64

/-- `memcpy(dst, src, length)` answers `dst`; the ranges may overlap. -/
def memcpy : Host σ := fun words => do
  let dst := arg words 1
  let src := arg words 2
  let length := arg words 3
  if length = 0 then return .value dst.toInt32.toInt64
  if maxRangeLength < length then return .refused (tooLong "memcpy" length)
  match ← checkRange dst length with
  | .error f => return .refused f
  | .ok () =>
    match ← checkRange src length with
    | .error f => return .refused f
    | .ok () =>
      writeRange dst (← readRange src length)
      return .value dst.toInt32.toInt64

/-- `hash(dst, src, length)` writes the digest of a range. -/
def hash : Host σ := fun words => do
  let dst := arg words 1
  let src := arg words 2
  let length := arg words 3
  if maxRangeLength < length then return .refused (tooLong "hash" length)
  match ← checkRange dst 32 with
  | .error f => return .refused f
  | .ok () =>
    if length = 0 then
      writeRange dst (Blake3.digest .empty)
      return .value 0
    match ← checkRange src length with
    | .error f => return .refused f
    | .ok () =>
      writeRange dst (Blake3.digest (← readRange src length))
      return .value 0

end StandardTrap

/-- The standard traps over a writer and a clock. -/
def Registry.standard {σ : Type} (write : StandardTrap.Writer σ) (clock : HostM σ Int64) :
    Registry σ :=
  ⟨[(0, StandardTrap.print write), (1, StandardTrap.abort),
    (2, StandardTrap.milliseconds clock), (3, StandardTrap.hash), (4, StandardTrap.malloc),
    (68, StandardTrap.nice write), (100, StandardTrap.memset), (101, StandardTrap.memcpy)]⟩

end BytecodeHost
