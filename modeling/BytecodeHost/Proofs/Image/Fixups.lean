import BytecodeHost.Image.Assembler
import BytecodeHost.Proofs.Bytes
import BytecodeHost.Proofs.Checked

/-!
# Labels that are filled in afterwards

A label may be used before it is placed, so its index is not known when the instruction is written.
`Assembler.code` waits until all labels are placed. Here the bytes are written at once, with a zero
word where an index belongs and a note of its offset, and the noted words are overwritten at the
end. The offsets are those of the bytes written so far, so they are right only if every instruction
has the width that was counted for it; and a word written at a wrong offset would go past the end or
over another instruction.

Both ways give the same code, and the second one stays in range.

## Main definitions

* `Draft`, `Draft.push` — bytes with zero words for labels, and where these are
* `Checked.patch`, `Checked.image` — assembling by filling in labels, with every write checked

## Main results

* `Checked.image_eq_ok` — filling in labels stays in range and gives the image
-/

namespace BytecodeHost

/-- Code in which the indices of labels are still missing. -/
structure Draft where
  /-- The bytes so far, with zero words for labels. -/
  code : ByteArray := .empty
  /-- The offsets of these words, with their labels. -/
  fixups : Array (Nat × String) := #[]

namespace Draft

/-- Appends an instruction. -/
def push (d : Draft) : Item → Draft
  | .plain opcode => { d with code := d.code.push opcode }
  | .word opcode value => { d with code := Bytes.pushWord (d.code.push opcode) value }
  | .byte opcode value => { d with code := (d.code.push opcode).push value }
  | .reference opcode label =>
    { code := Bytes.pushWord (d.code.push opcode) 0
      fixups := d.fixups.push (d.code.size + 1, label) }

end Draft

namespace Item

/-- The bytes that are written for an instruction at once. -/
def drafted : Item → List UInt8
  | plain opcode => [opcode]
  | word opcode value => opcode :: Bytes.littleEndian value
  | byte opcode value => [opcode, value]
  | reference opcode _ => opcode :: Bytes.littleEndian 0

/-- The label that is missing in them, with its offset in the code. -/
def fixup (start : Nat) : Item → List (Nat × String)
  | reference _ label => [(start + 1, label)]
  | _ => []

/-- The missing labels of instructions that start at an offset. -/
def fixups : (start : Nat) → List Item → List (Nat × String)
  | _, [] => []
  | start, item :: rest => item.fixup start ++ fixups (start + item.drafted.length) rest

end Item

namespace Draft

theorem toBytes_push (d : Draft) (item : Item) :
    Bytes.toBytes (d.push item).code = Bytes.toBytes d.code ++ item.drafted := by
  cases item <;> simp [push, Item.drafted]

theorem fixups_push (d : Draft) (item : Item) :
    (d.push item).fixups.toList = d.fixups.toList ++ item.fixup d.code.size := by
  cases item <;> simp [push, Item.fixup]

/-- What a draft holds after some instructions. -/
theorem foldl_push (items : List Item) (d : Draft) :
    Bytes.toBytes (items.foldl push d).code
        = Bytes.toBytes d.code ++ items.flatMap Item.drafted ∧
      (items.foldl push d).fixups.toList
        = d.fixups.toList ++ Item.fixups d.code.size items := by
  induction items generalizing d with
  | nil => simp [Item.fixups]
  | cons item items ih =>
    obtain ⟨hcode, hfixups⟩ := ih (d.push item)
    have hsize : (d.push item).code.size = d.code.size + item.drafted.length := by
      have h := congrArg List.length (d.toBytes_push item)
      rwa [List.length_append, Bytes.length_toBytes, Bytes.length_toBytes] at h
    rw [List.foldl_cons]
    constructor
    · rw [hcode, toBytes_push, List.flatMap_cons, List.append_assoc]
    · rw [hfixups, fixups_push, hsize, Item.fixups, List.append_assoc]

end Draft

namespace Checked

/-- Writes the index of each label at its offset, or stops at the first label without one. -/
def patch (position? : String → Option Int32) :
    List (Nat × String) → ByteArray → Except Violation (Except String ByteArray)
  | [], code => .ok (.ok code)
  | (offset, label) :: rest, code =>
    match position? label with
    | none => .ok (.error label)
    | some index =>
      if h : offset + 4 ≤ code.size then
        patch position? rest (Bytes.setWord code offset index.toUInt32 h)
      else .error (.range offset (offset + 4) code.size)

/-- The code section, with labels filled in after all instructions are written. -/
def code (a : Assembler) : Except Violation (Except String ByteArray) :=
  let draft := a.items.foldl Draft.push {}
  patch a.position? draft.fixups.toList draft.code

/-- The finished image, with labels filled in after all instructions are written. -/
def image (a : Assembler) : Except Violation (Except Failure ByteArray) := do
  match ← code a with
  | .ok code => return .ok ((a.header (Int32.ofNat code.size)).encode ++ code ++ a.data ++ a.lit)
  | .error label =>
    return .error (.ofCause .undefinedLabel ("undefined label: " ++ label : String))

end Checked

namespace Assembler

/-- Appends the bytes of an instruction to code that has all labels so far. -/
def append (a : Assembler) (code : Except String ByteArray) (item : Item) :
    Except String ByteArray :=
  match code with
  | .ok code => a.encodeItem code item
  | .error label => .error label

theorem code_eq_foldl (a : Assembler) : a.code = a.items.toList.foldl a.append (.ok .empty) := by
  rw [Array.foldl_toList]
  rfl

theorem foldl_append_error (a : Assembler) (items : List Item) (label : String) :
    items.foldl a.append (.error label) = .error label := by
  induction items with
  | nil => rfl
  | cons item items ih => exact ih

end Assembler

namespace Checked

/-- **Filling in labels finishes what was drafted.** What is done already stands in front; behind it
the instructions are drafts, and the next missing label is the one of the first of them that has
one. -/
theorem patch_drafted (a : Assembler) (items : List Item) {done code : ByteArray}
    (hcode : Bytes.toBytes code = Bytes.toBytes done ++ items.flatMap Item.drafted) :
    patch a.position? (Item.fixups done.size items) code
      = .ok (items.foldl a.append (.ok done)) := by
  induction items generalizing done code with
  | nil =>
    obtain rfl : code = done := Bytes.toBytes_inj.mp (by simpa using hcode)
    rfl
  | cons item items ih =>
    -- an instruction without a label is passed over
    have skip : ∀ {done' : ByteArray}, a.encodeItem done item = .ok done' →
        Bytes.toBytes done' = Bytes.toBytes done ++ item.drafted → item.fixup done.size = [] →
        patch a.position? (Item.fixups done.size (item :: items)) code
          = .ok ((item :: items).foldl a.append (.ok done)) := by
      intro done' hencode hdone hfixup
      have hsize : done'.size = done.size + item.drafted.length := by
        have h := congrArg List.length hdone
        rwa [List.length_append, Bytes.length_toBytes, Bytes.length_toBytes] at h
      have hrest : Bytes.toBytes code = Bytes.toBytes done' ++ items.flatMap Item.drafted := by
        rw [hcode, hdone, List.flatMap_cons, List.append_assoc]
      have happend : a.append (.ok done) item = .ok done' := hencode
      rw [Item.fixups, hfixup, List.nil_append, ← hsize, ih hrest, List.foldl_cons, happend]
    cases item with
    | plain opcode => exact skip rfl (by simp [Item.drafted]) rfl
    | word opcode value => exact skip rfl (by simp [Item.drafted]) rfl
    | byte opcode value => exact skip rfl (by simp [Item.drafted]) rfl
    | reference opcode label =>
      rw [Item.fixups, Item.fixup, List.singleton_append, patch, List.foldl_cons]
      cases hlabel : a.position? label with
      | none =>
        have hmissing : a.append (.ok done) (.reference opcode label) = .error label := by
          simp only [Assembler.append, Assembler.encodeItem, hlabel]
        rw [hmissing, Assembler.foldl_append_error]
      | some index =>
        have hfound : a.append (.ok done) (.reference opcode label)
            = .ok (Bytes.pushWord (done.push opcode) index.toUInt32) := by
          simp only [Assembler.append, Assembler.encodeItem, hlabel]
        have hsplit : Bytes.toBytes code = (Bytes.toBytes done ++ [opcode])
            ++ (Bytes.littleEndian 0 ++ items.flatMap Item.drafted) := by
          rw [hcode, List.flatMap_cons, Item.drafted]
          simp
        have hlength : (Bytes.toBytes done ++ [opcode]).length = done.size + 1 := by simp
        have hroom : done.size + 1 + 4 ≤ code.size := by
          have h := congrArg List.length hsplit
          rw [List.length_append, hlength, List.length_append, Bytes.length_littleEndian,
            Bytes.length_toBytes] at h
          omega
        have hpatched : Bytes.toBytes (Bytes.setWord code (done.size + 1) index.toUInt32 hroom)
            = Bytes.toBytes (Bytes.pushWord (done.push opcode) index.toUInt32)
              ++ items.flatMap Item.drafted := by
          rw [Bytes.toBytes_setWord index.toUInt32 hroom hlength hsplit rfl]
          simp
        dsimp only
        rw [dif_pos hroom, hfound, ← ih hpatched]
        simp [Item.drafted]

theorem code_eq_ok (a : Assembler) : code a = .ok a.code := by
  obtain ⟨hcode, hfixups⟩ := Draft.foldl_push a.items.toList {}
  rw [code, ← Array.foldl_toList, Assembler.code_eq_foldl, hfixups]
  exact patch_drafted a a.items.toList hcode

/-- **Filling in labels stays in range and gives the image**, or reports the same label. -/
theorem image_eq_ok (a : Assembler) : image a = .ok a.image := by
  rw [image, code_eq_ok, ok_bind, Assembler.image]
  cases a.code <;> rfl

end Checked

end BytecodeHost
