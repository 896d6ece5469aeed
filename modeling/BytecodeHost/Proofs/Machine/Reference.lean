import BytecodeHost.Proofs.Machine.Observation
import BytecodeHost.Proofs.Program.Preparation

/-!
# Execution by instruction index

The reference interpreter knows no stream. Its program counter is the index of an instruction, its
operands are the ones that stand in the image, and a branch, a jump or a call goes to the index that
it names. Only where a program can see a place does the reference need one: a call saves the place
of the next instruction in its frame, and a return has to find the index again. It does so for the
words that a call can have saved and for no others.

One instruction of the stream, at the place of an index, does what the reference does at that
index. Everything but the program counter is the same, and the program counters correspond.

## Main definitions

* `Program.relocate` — the place of an index, as words
* `Reference.IsReturn`, `Reference.returnIndex` — words that calls save, and where they lead
* `Reference.execute`, `Reference.step` — the reference interpreter
* `Instruction.successor` — the index that an instruction goes on to

## Main results

* `Reference.execute_pc`, `Reference.execute_of_pc?_eq_none` — where an instruction goes, and when
  it goes nowhere
* `Reference.step_relocate` — the stream does what the reference does
-/

namespace BytecodeHost

/-! ## Shapes and immediates -/

namespace Shape

/-- Whether instructions of a shape have an immediate. -/
def hasImmediate : Shape → Bool
  | constant | frameAddress | argument | blockCopy | enter | leave | branch => true
  | _ => false

end Shape

namespace Opcode

theorem hasImmediate_eq (op : Opcode) : op.hasImmediate = op.shape.hasImmediate := by
  cases op <;> rfl

theorem isBranch_eq (op : Opcode) : op.isBranch = (op.shape == .branch) := by
  cases op <;> rfl

theorem shape_eq_leave_iff {op : Opcode} : op.shape = .leave ↔ op = .leave := by
  cases op <;> decide

theorem shape_eq_call_iff {op : Opcode} : op.shape = .call ↔ op = .call := by
  cases op <;> decide

end Opcode

/-! ## Places -/

namespace Program

/-- The place of an index. -/
def relocate (I : List Instruction) (k : UInt32) : UInt32 :=
  UInt32.ofNat (place I k.toNat)

/-- No index is larger than its place. -/
theorem le_place {I : List Instruction} {k : Nat} (hk : k ≤ I.length) : k ≤ place I k := by
  induction k with
  | zero => exact Nat.zero_le _
  | succ k ih =>
    have hw := (I[k]).width_pos
    have := ih (by omega)
    rw [place_succ (by omega)]
    omega

namespace Linked

variable {p : Program} {I : List Instruction}

theorem length_lt (hp : p.Linked I) : I.length < 2 ^ 31 := by
  have := le_place (Nat.le_refl I.length)
  have := hp.place_lt
  omega

theorem toNat_succ (hp : p.Linked I) {k : UInt32} (hk : k.toNat < I.length) :
    (k + 1).toNat = k.toNat + 1 := by
  have := hp.length_lt
  rw [UInt32.toNat_add, UInt32.toNat_one]
  omega

theorem toNat_relocate (hp : p.Linked I) {k : UInt32} (hk : k.toNat ≤ I.length) :
    (relocate I k).toNat = place I k.toNat :=
  hp.toNat_ofNat_place hk

/-- The next instruction stands behind the words of this one. -/
theorem relocate_succ (hp : p.Linked I) {k : UInt32} (hk : k.toNat < I.length) :
    relocate I (k + 1) = relocate I k + UInt32.ofNat I[k.toNat].width := by
  rw [relocate, relocate, hp.toNat_succ hk, place_succ hk, UInt32.ofNat_add]

/-- An opcode stands at the place of its index. -/
theorem getElem?_relocate (hp : p.Linked I) {k : UInt32} (hk : k.toNat < I.length) :
    p.code[(relocate I k).toNat]? = some I[k.toNat].op.toByte.toUInt32 := by
  rw [hp.toNat_relocate (by omega), hp.opcode k.toNat hk]

/-- An operand stands behind it. -/
theorem getElem?_relocate_succ (hp : p.Linked I) {k : UInt32} (hk : k.toNat < I.length)
    (himm : I[k.toNat].op.hasImmediate = true) :
    p.code[(relocate I k + 1).toNat]? = some (I[k.toNat].linkedOperand p.offsets) := by
  have hlt := place_lt_place hk (Nat.le_refl I.length)
  have := hp.place_lt
  rw [UInt32.toNat_add, UInt32.toNat_one, hp.toNat_relocate (by omega),
    Nat.mod_eq_of_lt (by omega), hp.operand k.toNat hk himm]

theorem relocate_succ_of_not_hasImmediate (hp : p.Linked I) {k : UInt32}
    (hk : k.toNat < I.length) (himm : I[k.toNat].op.shape.hasImmediate = false) :
    relocate I (k + 1) = relocate I k + 1 := by
  rw [hp.relocate_succ hk, Instruction.width, Opcode.hasImmediate_eq, himm]
  rfl

theorem relocate_succ_of_hasImmediate (hp : p.Linked I) {k : UInt32} (hk : k.toNat < I.length)
    (himm : I[k.toNat].op.shape.hasImmediate = true) :
    relocate I (k + 1) = relocate I k + 1 + 1 := by
  rw [hp.relocate_succ hk, Instruction.width, Opcode.hasImmediate_eq, himm, UInt32.add_assoc]
  rfl

/-- An operand that is no target stands in the stream as it is. -/
theorem getElem?_operand (hp : p.Linked I) {k : UInt32} (hk : k.toNat < I.length)
    (himm : I[k.toNat].op.shape.hasImmediate = true) (hne : I[k.toNat].op.shape ≠ .branch) :
    p.code[(relocate I k + 1).toNat]? = some I[k.toNat].operand := by
  rw [hp.getElem?_relocate_succ hk (by rw [Opcode.hasImmediate_eq, himm]),
    Instruction.linkedOperand, Opcode.isBranch_eq, if_neg (by simpa using hne)]

/-- A target stands in the stream as its place. -/
theorem getElem?_target (hp : p.Linked I) {k : UInt32} (hk : k.toNat < I.length)
    (hbranch : I[k.toNat].op.shape = .branch) :
    p.code[(relocate I k + 1).toNat]? = some (relocate I I[k.toNat].operand) := by
  have hb : I[k.toNat].op.isBranch = true := by
    rw [Opcode.isBranch_eq, hbranch]
    rfl
  rw [hp.getElem?_relocate_succ hk (Opcode.hasImmediate_of_isBranch hb),
    hp.linkedOperand_of_isBranch (List.getElem_mem hk) hb]
  rfl

end Linked

end Program

/-- The registers with the program counter moved. -/
def Registers.relocate (f : UInt32 → UInt32) (r : Registers) : Registers :=
  { r with pc := f r.pc }

namespace Effect

/-- An effect with its program counter moved. -/
def relocate (f : UInt32 → UInt32) : Effect → Effect
  | next r a => next (r.relocate f) a
  | broke r a => broke (r.relocate f) a
  | trap r a => trap (r.relocate f) a
  | finish s a => finish s a
  | fault e a => fault e a
  | stuck a => stuck a

/-- The arena after an effect. -/
def arena : Effect → Arena
  | next _ a | broke _ a | trap _ a | finish _ a | fault _ a | stuck a => a

/-- Where the activation goes on without the host's help. -/
def pc? : Effect → Option UInt32
  | next r _ | broke r _ => some r.pc
  | _ => none

@[simp] theorem arena_relocate (f : UInt32 → UInt32) (e : Effect) :
    (e.relocate f).arena = e.arena := by
  cases e <;> rfl

@[simp] theorem pc?_relocate (f : UInt32 → UInt32) (e : Effect) :
    (e.relocate f).pc? = e.pc?.map f := by
  cases e <;> rfl

end Effect

/-- The index that an instruction other than a return goes on to. -/
def Instruction.successor (i : Instruction) (k : Nat) (s : Operands) : Nat :=
  match i.op.shape with
  | .branch => if i.op.holds s.second s.first then i.operand.toNat else k + 1
  | .jump | .call => s.first.toNat
  | _ => k + 1

/-! ## The reference interpreter -/

namespace Reference

open Program

/-- A word that some call saves: the place of the instruction after it. -/
def IsReturn (I : List Instruction) (w : UInt32) : Prop :=
  ∃ (k : Nat) (h : k < I.length), I[k].op = .call ∧ w = UInt32.ofNat (place I (k + 1))

instance (I : List Instruction) (w : UInt32) : Decidable (IsReturn I w) :=
  inferInstanceAs (Decidable (∃ (k : Nat) (h : k < I.length),
    I[k].op = .call ∧ w = UInt32.ofNat (place I (k + 1))))

/-- The index of the instruction after the call that saves a word. -/
def returnIndex (I : List Instruction) (w : UInt32) : Option UInt32 :=
  ((List.range I.length).find? fun k =>
    (I[k]?.map Instruction.op == some .call) && w == UInt32.ofNat (place I (k + 1))).map
      fun k => UInt32.ofNat (k + 1)

/-- Executes an instruction with a given index. -/
def execute (I : List Instruction) (count : Int32) (i : Instruction) (k frame : UInt32)
    (s : Operands) (a : Arena) : Effect :=
  let r₀ := s.first
  let r₁ := s.second
  let w := i.operand
  match i.op.shape with
  | .invalid => .fault (.badInstruction i.op.toByte (relocate I k)) a
  | .ignore => .next ⟨k + 1, frame, s⟩ a
  | .breakpoint => .broke ⟨k + 1, frame, s⟩ a
  | .constant => .next ⟨k + 1, frame, s.push w⟩ a
  | .frameAddress => .next ⟨k + 1, frame, s.push (w + frame)⟩ a
  | .load1 => .next ⟨k + 1, frame, s.setFirst (a.load1 r₀).toUInt32⟩ a
  | .load2 => .next ⟨k + 1, frame, s.setFirst (a.load2 r₀).toUInt32⟩ a
  | .load4 => .next ⟨k + 1, frame, s.setFirst (a.load4 r₀)⟩ a
  | .store1 => .next ⟨k + 1, frame, s.drop 2⟩ (a.store1 r₁ r₀.toUInt8)
  | .store2 => .next ⟨k + 1, frame, s.drop 2⟩ (a.store2 r₁ r₀.toUInt16)
  | .store4 => .next ⟨k + 1, frame, s.drop 2⟩ (a.store4 r₁ r₀)
  | .argument => .next ⟨k + 1, frame, s.drop 1⟩ (a.store4 (w + frame) r₀)
  | .blockCopy =>
    if a.inRange r₁ w && a.inRange r₀ w then
      .next ⟨k + 1, frame, s.drop 2⟩ (a.moveBytes r₁ r₀ w)
    else .fault (.blockCopy (.copy r₁ r₀ w)) a
  | .call =>
    let a := a.store4 frame (relocate I (k + 1))
    if r₀.toInt32 < 0 then
      .trap ⟨k + 1, frame, s.drop 1⟩ (a.store4 (frame + 4) (returnMarker - r₀))
    else if count.toUInt32 ≤ r₀ then .fault (.callTarget r₀ count) a
    else .next ⟨r₀, frame, s.drop 1⟩ a
  | .push => .next ⟨k + 1, frame, s.raise⟩ a
  | .pop => .next ⟨k + 1, frame, s.drop 1⟩ a
  | .enter => .next ⟨k + 1, frame - w, s⟩ a
  | .leave =>
    let back := a.load4 (frame + w)
    if back = returnMarker then .finish s a
    else
      match returnIndex I back with
      | some j => .next ⟨j, frame + w, s⟩ a
      | none => .stuck a
  | .jump =>
    if count.toUInt32 ≤ r₀ then .fault (.jumpTarget r₀ count) a
    else .next ⟨r₀, frame, s.drop 1⟩ a
  | .branch =>
    if i.op.holds r₁ r₀ then .next ⟨w, frame, s.drop 2⟩ a
    else .next ⟨k + 1, frame, s.drop 2⟩ a
  | .unary => .next ⟨k + 1, frame, s.setFirst (i.op.unary r₀)⟩ a
  | .binary => .next ⟨k + 1, frame, (s.drop 1).setFirst (i.op.binary r₁ r₀)⟩ a
  | .divide =>
    if r₀ = 0 then .fault (.divisionByZero i.op (relocate I k)) a
    else .next ⟨k + 1, frame, (s.drop 1).setFirst (i.op.divide r₁ r₀)⟩ a

/-- Executes the instruction whose index is the program counter. Behind the last instruction there
is none. -/
def step (I : List Instruction) (count : Int32) (r : Registers) (a : Arena) : Effect :=
  match I[r.pc.toNat]? with
  | some i => execute I count i r.pc r.frame r.operands a
  | none => .fault (.badInstruction Opcode.undef.toByte (relocate I r.pc)) a

/-- The engine of the reference interpreter. -/
def engine (I : List Instruction) : Engine where
  size _ := I.length + 1
  step _ := step I
  back := returnIndex I

/-! ## Correspondence -/

variable {p : Program} {I : List Instruction} {count : Int32}

/-- A target that is not refused is an index. -/
theorem le_length (hcount : count.toUInt32.toNat = I.length) {x : UInt32}
    (hx : ¬count.toUInt32 ≤ x) : x.toNat ≤ I.length := by
  rw [UInt32.le_iff_toNat_le] at hx
  omega

/-- The index that a return word leads to has that word for its place. -/
theorem relocate_of_returnIndex (hp : p.Linked I) {w j : UInt32} (h : returnIndex I w = some j) :
    j.toNat ≤ I.length ∧ relocate I j = w := by
  obtain ⟨k, hk, rfl⟩ := Option.map_eq_some_iff.mp h
  have hlt : k < I.length := List.mem_range.mp (List.mem_of_find?_eq_some hk)
  have hmatch := List.find?_some hk
  rw [Bool.and_eq_true, beq_iff_eq, beq_iff_eq] at hmatch
  have hlen := hp.length_lt
  have hj : (UInt32.ofNat (k + 1)).toNat = k + 1 := by
    rw [UInt32.toNat_ofNat']
    exact Nat.mod_eq_of_lt (by omega)
  refine ⟨by omega, ?_⟩
  rw [relocate, hj, hmatch.2]

theorem exists_returnIndex {w : UInt32} (h : IsReturn I w) : ∃ j, returnIndex I w = some j := by
  obtain ⟨k, hk, hcall, hw⟩ := h
  rw [returnIndex]
  cases hfind : (List.range I.length).find? fun k =>
      (I[k]?.map Instruction.op == some .call) && w == UInt32.ofNat (place I (k + 1)) with
  | some j => exact ⟨_, rfl⟩
  | none =>
    have hno := List.find?_eq_none.mp hfind k (List.mem_range.mpr hk)
    simp [List.getElem?_eq_getElem hk, hcall, hw] at hno

/-- A word that a call saves lies in the stream. -/
theorem IsReturn.ne_returnMarker_and_lt {w : UInt32} (h : IsReturn I w) (hp : p.Linked I) :
    w ≠ returnMarker ∧ w.toNat < p.code.size := by
  obtain ⟨k, hk, -, rfl⟩ := h
  have hle := place_le_place (show k + 1 ≤ I.length from hk) (Nat.le_refl _)
  have hlt := hp.place_lt
  have hnat := hp.toNat_ofNat_place (show k + 1 ≤ I.length from hk)
  refine ⟨fun hmarker => ?_, ?_⟩
  · have : returnMarker.toNat = 2 ^ 32 - 1 := rfl
    rw [← hmarker, hnat] at this
    omega
  · rw [hnat, hp.size_code]
    omega

/-- The return word of a `leave` instruction ends the activation or comes from a call. -/
def Returns (I : List Instruction) (i : Instruction) (frame : UInt32) (a : Arena) : Prop :=
  i.op = .leave →
    a.load4 (frame + i.operand) = returnMarker ∨ IsReturn I (a.load4 (frame + i.operand))

instance (I : List Instruction) (i : Instruction) (frame : UInt32) (a : Arena) :
    Decidable (Returns I i frame a) :=
  inferInstanceAs (Decidable (_ → _))

/-- **Where an instruction goes.** It goes on to an index, and only a return does not say to which
one. -/
theorem execute_pc (hp : p.Linked I) (hcount : count.toUInt32.toNat = I.length) {k j : UInt32}
    (hk : k.toNat < I.length) {frame : UInt32} {s : Operands} {a : Arena}
    (h : (execute I count I[k.toNat] k frame s a).pc? = some j) :
    j.toNat ≤ I.length ∧
      (I[k.toNat].op ≠ .leave → j.toNat = I[k.toNat].successor k.toNat s) := by
  have hnext := hp.toNat_succ hk
  have hmem := List.getElem_mem hk
  rw [Instruction.successor]
  rw [execute] at h
  cases hshape : I[k.toNat].op.shape with
  | invalid => simp [hshape, Effect.pc?] at h
  | ignore | breakpoint | constant | frameAddress | load1 | load2 | load4 | store1 | store2
  | store4 | argument | push | pop | enter | unary | binary =>
    simp only [hshape, Effect.pc?, Option.some.injEq] at h
    subst j
    exact ⟨by omega, fun _ => hnext⟩
  | blockCopy =>
    simp only [hshape] at h
    split at h
    · simp only [Effect.pc?, Option.some.injEq] at h
      subst j
      exact ⟨by omega, fun _ => hnext⟩
    · simp [Effect.pc?] at h
  | call =>
    simp only [hshape] at h
    split at h
    · simp [Effect.pc?] at h
    · split at h
      · simp [Effect.pc?] at h
      · rename_i hx
        simp only [Effect.pc?, Option.some.injEq] at h
        subst j
        exact ⟨le_length hcount hx, fun _ => rfl⟩
  | leave =>
    simp only [hshape] at h
    split at h
    · simp [Effect.pc?] at h
    · split at h
      · rename_i j' hj'
        simp only [Effect.pc?, Option.some.injEq] at h
        subst j'
        exact ⟨(relocate_of_returnIndex hp hj').1,
          fun hne => absurd (Opcode.shape_eq_leave_iff.mp hshape) hne⟩
      · simp [Effect.pc?] at h
  | jump =>
    simp only [hshape] at h
    split at h
    · simp [Effect.pc?] at h
    · rename_i hx
      simp only [Effect.pc?, Option.some.injEq] at h
      subst j
      exact ⟨le_length hcount hx, fun _ => rfl⟩
  | branch =>
    have hbranch : I[k.toNat].op.isBranch = true := by rw [Opcode.isBranch_eq, hshape]; rfl
    have htarget := (hp.hasTarget _ hmem).operand_le hbranch
    simp only [hshape] at h
    split at h
    · rename_i hholds
      simp only [Effect.pc?, Option.some.injEq] at h
      subst j
      exact ⟨htarget, fun _ => by rw [if_pos hholds]⟩
    · rename_i hholds
      simp only [Effect.pc?, Option.some.injEq] at h
      subst j
      exact ⟨by omega, fun _ => by rw [if_neg hholds, hnext]⟩
  | divide =>
    simp only [hshape] at h
    split at h
    · simp [Effect.pc?] at h
    · simp only [Effect.pc?, Option.some.injEq] at h
      subst j
      exact ⟨by omega, fun _ => hnext⟩

/-- An instruction other than a return that does not go on by itself asks the host or fails. -/
theorem execute_of_pc?_eq_none {i : Instruction} {k frame : UInt32} {s : Operands} {a : Arena}
    (hleave : i.op ≠ .leave) (h : (execute I count i k frame s a).pc? = none) :
    (i.op = .call ∧ s.first.toInt32 < 0) ∨
      ∃ f a', execute I count i k frame s a = .fault f a' := by
  rw [execute] at h ⊢
  cases hshape : i.op.shape with
  | leave => exact absurd (Opcode.shape_eq_leave_iff.mp hshape) hleave
  | invalid => exact .inr ⟨_, _, rfl⟩
  | ignore | breakpoint | constant | frameAddress | load1 | load2 | load4 | store1 | store2
  | store4 | argument | push | pop | enter | unary | binary => simp [hshape, Effect.pc?] at h
  | branch =>
    simp only [hshape] at h
    split at h <;> contradiction
  | blockCopy =>
    by_cases hrange : (a.inRange s.second i.operand && a.inRange s.first i.operand) = true
    · simp [hshape, hrange, Effect.pc?] at h
    · exact .inr ⟨_, _, if_neg hrange⟩
  | jump =>
    by_cases hcount : count.toUInt32 ≤ s.first
    · exact .inr ⟨_, _, if_pos hcount⟩
    · simp [hshape, hcount, Effect.pc?] at h
  | divide =>
    by_cases hzero : s.first = 0
    · exact .inr ⟨_, _, if_pos hzero⟩
    · simp [hshape, hzero, Effect.pc?] at h
  | call =>
    by_cases hneg : s.first.toInt32 < 0
    · exact .inl ⟨Opcode.shape_eq_call_iff.mp hshape, hneg⟩
    · by_cases hcount : count.toUInt32 ≤ s.first
      · refine .inr ⟨.callTarget s.first count, a.store4 frame (relocate I (k + 1)), ?_⟩
        dsimp only
        rw [if_neg hneg, if_pos hcount]
      · simp [hshape, hneg, hcount, Effect.pc?] at h

/-- A call saves the place of the next instruction, and a trap number behind it if it asks the
host. -/
theorem execute_arena_of_call {i : Instruction} {k frame : UInt32} {s : Operands} {a : Arena}
    (hcall : i.op = .call) :
    (execute I count i k frame s a).arena
      = if s.first.toInt32 < 0 then
          (a.store4 frame (relocate I (k + 1))).store4 (frame + 4) (returnMarker - s.first)
        else a.store4 frame (relocate I (k + 1)) := by
  simp only [execute, Opcode.shape_eq_call_iff.mpr hcall]
  split
  · rfl
  · split <;> rfl

/-- Wherever a program goes on, there is an index. -/
theorem step_pc (hp : p.Linked I) (hcount : count.toUInt32.toNat = I.length) {r : Registers}
    {a : Arena} {j : UInt32} (h : (step I count r a).pc? = some j) : j.toNat ≤ I.length := by
  rw [step] at h
  split at h
  · rename_i i hi
    obtain ⟨hlt, rfl⟩ := List.getElem?_eq_some_iff.mp hi
    exact (execute_pc hp hcount hlt h).1
  · contradiction

/-- The table leads to the place of an index. -/
theorem toInstruction_relocate (hp : p.Linked I) {x : UInt32} (hx : x.toNat ≤ I.length)
    (frame : UInt32) (s : Operands) (a : Arena) :
    toInstruction p x frame s a = .next ⟨relocate I x, frame, s⟩ a := by
  rw [toInstruction, hp.offset x.toNat hx]
  rfl

/-- One instruction of the stream does what the reference does. -/
theorem execute_relocate (hp : p.Linked I) (hcount : count.toUInt32.toNat = I.length)
    {k : UInt32} (hk : k.toNat < I.length) (frame : UInt32) (s : Operands) (a : Arena)
    (hreturn : Returns I I[k.toNat] frame a) :
    BytecodeHost.execute p count I[k.toNat].op (relocate I k + 1) frame s a
      = (execute I count I[k.toNat] k frame s a).relocate (relocate I) := by
  have hmem := List.getElem_mem hk
  have hback : relocate I k + 1 - 1 = relocate I k := UInt32.add_sub_cancel _ _
  have hone := hp.relocate_succ_of_not_hasImmediate hk
  have htwo := hp.relocate_succ_of_hasImmediate hk
  have himm := hp.getElem?_operand hk
  rw [BytecodeHost.execute, execute]
  cases hshape : I[k.toNat].op.shape with
  | invalid =>
    simp only [hback]
    rfl
  | ignore | breakpoint | load1 | load2 | load4 | store1 | store2 | store4 | push | pop | unary
  | binary =>
    rw [hshape] at hone
    simp only [Effect.relocate, Registers.relocate, hone rfl]
  | divide =>
    rw [hshape] at hone
    simp only [hback]
    split
    · rfl
    · simp only [Effect.relocate, Registers.relocate, hone rfl]
  | constant | frameAddress | argument | enter =>
    rw [hshape] at htwo himm
    simp only [withImmediate, himm rfl (by decide), Effect.relocate, Registers.relocate, htwo rfl]
  | blockCopy =>
    rw [hshape] at htwo himm
    simp only [withImmediate, himm rfl (by decide)]
    split
    · simp only [Effect.relocate, Registers.relocate, htwo rfl]
    · rfl
  | call =>
    rw [hshape] at hone
    simp only [hone rfl]
    split
    · simp only [Effect.relocate, Registers.relocate, hone rfl]
    · split
      · rfl
      · rename_i hx
        rw [toInstruction_relocate hp (le_length hcount hx)]
        rfl
  | leave =>
    rw [hshape] at himm
    simp only [withImmediate, himm rfl (by decide)]
    obtain hmarker | hsaved := hreturn (Opcode.shape_eq_leave_iff.mp hshape)
    · rw [if_pos hmarker, if_pos hmarker]
      rfl
    · obtain ⟨j, hj⟩ := exists_returnIndex hsaved
      obtain ⟨hne, hlt⟩ := hsaved.ne_returnMarker_and_lt hp
      rw [if_neg hne, if_neg hne, if_pos hlt, hj]
      simp only [Effect.relocate, Registers.relocate, (relocate_of_returnIndex hp hj).2]
  | jump =>
    dsimp only
    split
    · rfl
    · rename_i hx
      rw [toInstruction_relocate hp (le_length hcount hx)]
      rfl
  | branch =>
    have htarget := hp.getElem?_target hk hshape
    rw [hshape] at htwo
    dsimp only
    split
    · simp only [withImmediate, htarget, Effect.relocate, Registers.relocate]
    · simp only [Effect.relocate, Registers.relocate, htwo rfl]

/-- **The stream does what the reference does.** At the place of an index, the end of the program
included, one instruction of the stream has the effect that the reference has at the index. -/
theorem step_relocate (hp : p.Linked I) (hcount : count.toUInt32.toNat = I.length)
    {r : Registers} (hr : r.pc.toNat ≤ I.length) (a : Arena)
    (hreturn : ∀ h : r.pc.toNat < I.length, Returns I I[r.pc.toNat] r.frame a) :
    BytecodeHost.step p count (r.relocate (relocate I)) a
      = (step I count r a).relocate (relocate I) := by
  rw [BytecodeHost.step, step]
  by_cases hlt : r.pc.toNat < I.length
  · have hop : Opcode.ofByte? I[r.pc.toNat].op.toByte.toUInt32.toUInt8 = some I[r.pc.toNat].op := by
      rw [UInt8.toUInt8_toUInt32, Opcode.ofByte?_toByte]
    simp only [Registers.relocate, hp.getElem?_relocate hlt, hop, List.getElem?_eq_getElem hlt]
    exact execute_relocate hp hcount hlt r.frame r.operands a (hreturn hlt)
  · -- behind the last instruction the stream has its zero word
    have hend : r.pc.toNat = I.length := by omega
    have hpad : p.code[(relocate I r.pc).toNat]? = some 0 := by
      rw [hp.toNat_relocate hr, hend, hp.pad]
    have hnone : I[r.pc.toNat]? = none := List.getElem?_eq_none (by omega)
    simp only [Registers.relocate, hpad, hnone, show Opcode.ofByte? (0 : UInt32).toUInt8
      = some .undef from rfl]
    simp only [BytecodeHost.execute, show Opcode.undef.shape = .invalid from rfl,
      UInt32.add_sub_cancel]
    rfl

end Reference

end BytecodeHost
