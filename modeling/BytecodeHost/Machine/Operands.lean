/-!
# Operand stacks

The operands of an activation live in 256 slots. The top is a byte, so pushing and popping wrap
around; nothing ever falls off.
-/

namespace BytecodeHost

/-- Operand slots and the slot that is the top. -/
structure Operands where
  /-- The slots. -/
  slots : Vector UInt32 256
  /-- The top slot. -/
  top : UInt8

namespace Operands

/-- What slot 0 holds at entry and has to hold on return. -/
def sentinel : UInt32 := 0xBEEF

/-- The operands at entry. -/
def initial : Operands where
  slots := (Vector.replicate 256 0).set 0 sentinel
  top := 0

/-- The value in a slot. -/
@[inline] def slot (s : Operands) (i : UInt8) : UInt32 :=
  s.slots.get i.toFin

/-- The value on top. -/
@[inline] def first (s : Operands) : UInt32 :=
  s.slot s.top

/-- The value below the top. -/
@[inline] def second (s : Operands) : UInt32 :=
  s.slot (s.top - 1)

/-- Writes a slot. -/
@[inline] def setSlot (s : Operands) (i : UInt8) (x : UInt32) : Operands :=
  { s with slots := s.slots.set i.toNat x i.toNat_lt }

/-- Replaces the value on top. -/
@[inline] def setFirst (s : Operands) (x : UInt32) : Operands :=
  s.setSlot s.top x

/-- Moves the top up; the new top keeps what its slot held. -/
@[inline] def raise (s : Operands) : Operands :=
  { s with top := s.top + 1 }

/-- Moves the top down by a number of slots. -/
@[inline] def drop (s : Operands) (n : UInt8) : Operands :=
  { s with top := s.top - n }

/-- Puts a value on top. -/
@[inline] def push (s : Operands) (x : UInt32) : Operands :=
  s.raise.setFirst x

/-- Whether the operands are as a balanced activation leaves them: one result above an untouched
sentinel. -/
def balanced (s : Operands) : Bool :=
  s.top == 1 && s.slot 0 == sentinel

end Operands

end BytecodeHost
