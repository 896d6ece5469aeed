import BytecodeHost.Proofs.Image.Assembly
import BytecodeHost.Proofs.Machine.Arithmetic
import BytecodeHost.Proofs.Machine.Block

/-!
# Evaluating expressions

The code of an expression pushes its value: first the code of the operands, left before right, then
the instruction that takes them from the top. What an expression evaluates to is said without the
machine, over the numbers that words stand for.

The induction is over expressions at any place of any program, with any operands below. It needs
room for the slots of the expression, because the top of the operands is a byte: one slot more, and
it would come around to the sentinel. Slots above the top are not spoken of, so what an operand
leaves there is of no interest to the next one.

## Main definitions

* `Expression`, with `Expression.eval`, `Expression.slots` and `Expression.instructions`
* `Expression.directives` — the module that returns an expression
* `Expression.Answers` — what a call of that module returns

## Main results

* `Expression.block_of_eval`, `Expression.endsWith_of_eval_eq_none` — the code of an expression
* `Expression.exists_assembled` — the module is assembled and loaded
* `Expression.call_eval` — a call returns the value
-/

namespace BytecodeHost

open TwosComplement

/-! ## Expressions -/

/-- Expressions over constants with the integer instructions. -/
inductive Expression where
  | const (value : Int32)
  | unary (op : UnaryOp) (operand : Expression)
  | binary (op : BinaryOp) (left right : Expression)

namespace Expression

/-- The value, if no divisor is zero. -/
def eval : Expression → Option Int
  | const value => some value.toInt
  | unary op operand => operand.eval.map op.eval
  | binary op left right => left.eval.bind fun x => right.eval.bind fun y => op.eval x y

/-- The operand slots that evaluation takes. The left operand stays in its slot while the right one
is evaluated. -/
def slots : Expression → Nat
  | const _ => 1
  | unary _ operand => operand.slots
  | binary _ left right => max left.slots (right.slots + 1)

/-- The code of an expression: operands first. -/
def code : Expression → List Directive
  | const value => [.imm Opcode.constant.toByte value]
  | unary op operand => operand.code ++ [.op op.opcode.toByte]
  | binary op left right => left.code ++ (right.code ++ [.op op.opcode.toByte])

/-- The instructions that the code asks for. -/
def instructions : Expression → List Instruction
  | const value => [⟨.constant, value.toUInt32⟩]
  | unary op operand => operand.instructions ++ [⟨op.opcode, 0⟩]
  | binary op left right => left.instructions ++ (right.instructions ++ [⟨op.opcode, 0⟩])

/-- The module that returns an expression. -/
def directives (e : Expression) : List Directive :=
  .imm Opcode.enter.toByte 8 :: (e.code ++ [.imm Opcode.leave.toByte 8])

/-- The program of that module. -/
def program (e : Expression) : List Instruction :=
  ⟨.enter, 8⟩ :: (e.instructions ++ [⟨.leave, 8⟩])

end Expression

/-! ## Single operations -/

section

variable {p : Program} {I : List Instruction} {status : Status}
variable (hp : p.Linked I) (hcount : status.instructionCount.toUInt32.toNat = I.length)
include hp hcount

variable (a : Arena) (frame : UInt32) {k : Nat} {u v : UInt32} {l : List UInt32}

theorem UnaryOp.block {op : UnaryOp} (hi : I[k]? = some ⟨op.opcode, 0⟩) :
    Block p status ⟨a, k, frame, v :: l⟩ ⟨a, k + 1, frame, op.opcode.unary v :: l⟩ :=
  block_unary hp hcount hi (by cases op <;> rfl)

namespace BinaryOp

variable {op : BinaryOp}

omit hp hcount in
theorem shape_opcode (op : BinaryOp) :
    op.opcode.shape = if op.isDivision then .divide else .binary := by
  cases op <;> rfl

/-- An operation with a value puts it in the place of its operands. -/
theorem block_of_eval {z : Int} (hi : I[k]? = some ⟨op.opcode, 0⟩)
    (hz : op.eval (signed u) (signed v) = some z) :
    ∃ w, signed w = z ∧ Block p status ⟨a, k, frame, v :: u :: l⟩ ⟨a, k + 1, frame, w :: l⟩ := by
  have hshape := op.shape_opcode
  have hvalue : z = op.value (signed u) (signed v) := by
    rw [eval] at hz
    split at hz
    · contradiction
    · exact (Option.some.inj hz).symm
  cases hop : op.isDivision with
  | false =>
    rw [hop, if_neg Bool.false_ne_true] at hshape
    refine ⟨op.opcode.binary u v, ?_, block_binary hp hcount hi hshape⟩
    rw [hvalue, value_signed hop]
  | true =>
    rw [hop, if_pos rfl] at hshape
    have hv : v ≠ 0 := by
      intro hzero
      rw [eval_eq_none_iff.mpr ⟨hop, signed_eq_zero_iff.mpr hzero⟩] at hz
      contradiction
    refine ⟨op.opcode.divide u v, ?_, block_divide hp hcount hi hshape hv⟩
    rw [hvalue, value_signed_of_isDivision hop]

/-- An operation without a value is a division by zero. -/
theorem endsWith_of_eval_eq_none (hi : I[k]? = some ⟨op.opcode, 0⟩)
    (hz : op.eval (signed u) (signed v) = none) :
    op.isDivision = true ∧ Spot.EndsWith p status ⟨a, k, frame, v :: u :: l⟩ a returnMarker
      (some (.divisionByZero op.opcode (p.offset k))) := by
  obtain ⟨hop, hzero⟩ := eval_eq_none_iff.mp hz
  have hshape := op.shape_opcode
  rw [hop, if_pos rfl] at hshape
  rw [signed_eq_zero_iff.mp hzero]
  exact ⟨hop, endsWith_of_divide hp hcount hi hshape⟩

end BinaryOp

/-! ## The code of an expression -/

namespace Expression

/-- **The code of an expression pushes its value**, if it has one. -/
theorem block_of_eval {e : Expression} {k : Nat} {l : List UInt32} {v : Int}
    (hcode : Program.Stands I k e.instructions) (hroom : l.length + e.slots ≤ 256)
    (hv : e.eval = some v) :
    ∃ w, signed w = v ∧
      Block p status ⟨a, k, frame, l⟩ ⟨a, k + e.instructions.length, frame, w :: l⟩ := by
  induction e generalizing k l v with
  | const value =>
    rw [slots] at hroom
    refine ⟨value.toUInt32, ?_, block_constant hp hcount hcode.head (by omega)⟩
    rw [signed_toUInt32]
    exact Option.some.inj hv
  | unary op operand ih =>
    obtain ⟨x, hx, rfl⟩ := Option.map_eq_some_iff.mp hv
    rw [instructions] at hcode ⊢
    obtain ⟨w, rfl, hblock⟩ := ih hcode.left hroom hx
    rw [List.length_append, ← Nat.add_assoc]
    exact ⟨op.opcode.unary w, (op.eval_signed w).symm,
      hblock.trans (UnaryOp.block hp hcount a frame hcode.right.head)⟩
  | binary op left right ihl ihr =>
    obtain ⟨x, hx, hv⟩ := Option.bind_eq_some_iff.mp hv
    obtain ⟨y, hy, hv⟩ := Option.bind_eq_some_iff.mp hv
    rw [slots] at hroom
    rw [instructions] at hcode ⊢
    obtain ⟨u, rfl, hleft⟩ := ihl (l := l) hcode.left (by omega) hx
    have hroom' : (u :: l).length + right.slots ≤ 256 := by
      rw [List.length_cons]
      omega
    obtain ⟨w, rfl, hright⟩ := ihr hcode.right.left hroom' hy
    obtain ⟨z, hz, hop⟩ := BinaryOp.block_of_eval hp hcount a frame (l := l)
      hcode.right.right.head hv
    rw [List.length_append, List.length_append, ← Nat.add_assoc, ← Nat.add_assoc]
    exact ⟨z, hz, (hleft.trans hright).trans hop⟩

/-- **The code of an expression without a value ends the activation**, at a division by zero. -/
theorem endsWith_of_eval_eq_none {e : Expression} {k : Nat} {l : List UInt32}
    (hcode : Program.Stands I k e.instructions) (hroom : l.length + e.slots ≤ 256)
    (hv : e.eval = none) :
    ∃ (op : BinaryOp) (pc : UInt32), op.isDivision = true ∧
      Spot.EndsWith p status ⟨a, k, frame, l⟩ a returnMarker
        (some (.divisionByZero op.opcode pc)) := by
  induction e generalizing k l with
  | const value => contradiction
  | unary op operand ih =>
    rw [instructions] at hcode
    exact ih hcode.left hroom (Option.map_eq_none_iff.mp hv)
  | binary op left right ihl ihr =>
    rw [slots] at hroom
    rw [instructions] at hcode
    cases hx : left.eval with
    | none => exact ihl hcode.left (by omega) hx
    | some x =>
      obtain ⟨u, rfl, hleft⟩ :=
        block_of_eval hp hcount a frame (l := l) hcode.left (by omega) hx
      have hroom' : (u :: l).length + right.slots ≤ 256 := by
        rw [List.length_cons]
        omega
      cases hy : right.eval with
      | none =>
        obtain ⟨op, pc, hop, hends⟩ := ihr hcode.right.left hroom' hy
        exact ⟨op, pc, hop, hleft.endsWith hends⟩
      | some y =>
        obtain ⟨w, rfl, hright⟩ :=
          block_of_eval hp hcount a frame hcode.right.left hroom' hy
        have hnone : op.eval (signed u) (signed w) = none := by
          rw [eval, hx, Option.bind_some, hy, Option.bind_some] at hv
          exact hv
        obtain ⟨hop, hends⟩ := BinaryOp.endsWith_of_eval_eq_none hp hcount a frame (l := l)
          hcode.right.right.head hnone
        exact ⟨op, _, hop, (hleft.trans hright).endsWith hends⟩

end Expression

end

/-! ## The module of an expression -/

namespace Expression

/-- The code of an expression has constants and operations. -/
theorem mem_code {e : Expression} {d : Directive} (h : d ∈ e.code) :
    (∃ value, d = .imm Opcode.constant.toByte value) ∨
      ∃ op : Opcode, op.immediateWidth = 0 ∧ d = .op op.toByte := by
  induction e with
  | const value => exact .inl ⟨value, List.mem_singleton.mp h⟩
  | unary op operand ih =>
    obtain h | h := List.mem_append.mp h
    · exact ih h
    · exact .inr ⟨op.opcode, by cases op <;> rfl, List.mem_singleton.mp h⟩
  | binary op left right ihl ihr =>
    obtain h | h := List.mem_append.mp h
    · exact ihl h
    obtain h | h := List.mem_append.mp h
    · exact ihr h
    · exact .inr ⟨op.opcode, by cases op <;> rfl, List.mem_singleton.mp h⟩

theorem mem_directives {e : Expression} {d : Directive} (h : d ∈ e.directives) :
    (∃ (op : Opcode) (value : Int32), op.immediateWidth = 4 ∧ op.isBranch = false ∧
      d = .imm op.toByte value) ∨
      ∃ op : Opcode, op.immediateWidth = 0 ∧ d = .op op.toByte := by
  obtain rfl | h := List.mem_cons.mp h
  · exact .inl ⟨.enter, 8, rfl, rfl, rfl⟩
  obtain h | h := List.mem_append.mp h
  · obtain ⟨value, rfl⟩ | h := mem_code h
    · exact .inl ⟨.constant, value, rfl, rfl, rfl⟩
    · exact .inr h
  · exact .inl ⟨.leave, 8, rfl, rfl, List.mem_singleton.mp h⟩

theorem isInstruction_of_mem {e : Expression} {d : Directive} (h : d ∈ e.directives) :
    d.isInstruction = true := by
  obtain ⟨_, _, -, -, rfl⟩ | ⟨_, -, rfl⟩ := mem_directives h <;> rfl

theorem wellUsed_directives (e : Expression) : Directive.WellUsed e.directives := by
  refine .of_isInstruction (List.cons_ne_nil _ _) (fun d hd => ?_) fun d => isInstruction_of_mem
  obtain ⟨op, value, hwidth, hbranch, rfl⟩ | ⟨op, hwidth, rfl⟩ := mem_directives hd
  · exact .imm hwidth fun h => absurd h (by rw [hbranch]; exact Bool.false_ne_true)
  · exact .op hwidth

theorem denotes_code (ds : List Directive) (e : Expression) :
    List.Forall₂ (Directive.Denotes ds) e.code e.instructions := by
  induction e with
  | const value => exact .cons .imm .nil
  | unary op operand ih => exact List.rel_append ih (.cons .op .nil)
  | binary op left right ihl ihr =>
    exact List.rel_append ihl (List.rel_append ihr (.cons .op .nil))

/-- **The module of an expression is assembled and loaded**, as the program of the expression. -/
theorem exists_assembled (e : Expression) :
    ∃ a image, ({} : Assembler).emitAll e.directives = .ok a ∧ a.image = .ok image ∧
      (image.size ≤ 4 * 2 ^ 20 → ∀ name, ∃ m, Module.load name image = .ok m ∧
        m.header.instructionCount.toUInt32.toNat = e.program.length ∧
        m.program.Linked e.program) := by
  obtain ⟨a, ha⟩ := Assembler.exists_emitAll {} fun d => isInstruction_of_mem (e := e) (d := d)
  obtain ⟨I, image, hI, himage, hload⟩ := Assembler.exists_linked e.wellUsed_directives ha
  have hdenotes : List.Forall₂ (Directive.Denotes e.directives) e.directives e.program :=
    .cons .imm (List.rel_append (denotes_code _ e) (.cons .imm .nil))
  rw [Directive.instructions, List.filter_eq_self.mpr fun d => isInstruction_of_mem] at hI
  obtain rfl := Directive.Denotes.forall₂_unique hI hdenotes
  refine ⟨a, image, ha, himage, fun hsize name => ?_⟩
  obtain ⟨m, hm, hcount, hlinked⟩ := hload hsize name
  refine ⟨m, hm, ?_, hlinked⟩
  have hnat := Bytes.toNat_toUInt32 (x := m.header.instructionCount) (by omega)
  omega

/-! ## Calls -/

/-- What a call of the module of an expression returns, and what is reported meanwhile. -/
structure Answers (e : Expression) (before after : Machine) (r : CallResult) : Prop where
  /-- The value is returned, without an error, and nothing is reported. -/
  value : ∀ v, e.eval = some v →
    signed r.value = v ∧ r.failure = none ∧ after.status.events = before.status.events
  /-- Without a value the result is minus one. The error names a division and its place, and is the
  only one that is reported. -/
  divisionByZero : e.eval = none → ∃ (op : BinaryOp) (pc : UInt32), op.isDivision = true ∧
    signed r.value = -1 ∧ r.failure = some (Fault.divisionByZero op.opcode pc).toFailure ∧
    Failure.kindOf r.failure = .divisionByZero ∧
    after.status.events = before.status.events.push
      ⟨.divisionByZero, (Fault.divisionByZero op.opcode pc).detail, true⟩

variable {e : Expression}

namespace Answers

variable {before after : Machine} {r : CallResult}

theorem of_eval {w : UInt32} (hv : e.eval = some (signed w))
    (hevents : after.status.events = before.status.events) : e.Answers before after ⟨w, none⟩ where
  value _ hv' := ⟨Option.some.inj (hv.symm.trans hv'), rfl, hevents⟩
  divisionByZero hnone := absurd (hv.symm.trans hnone) (Option.some_ne_none _)

theorem of_eval_eq_none {op : BinaryOp} {pc : UInt32} (hv : e.eval = none)
    (hop : op.isDivision = true) (hevents : after.status.events = before.status.events.push
      ⟨.divisionByZero, (Fault.divisionByZero op.opcode pc).detail, true⟩) :
    e.Answers before after
      ⟨returnMarker, some (Fault.divisionByZero op.opcode pc).toFailure⟩ where
  value _ hv' := absurd (hv'.symm.trans hv) (Option.some_ne_none _)
  divisionByZero _ := ⟨op, pc, hop, rfl, rfl, rfl, hevents⟩

/-- An answer is never that the operands are unbalanced. -/
theorem kindOf_ne (h : e.Answers before after r) :
    Failure.kindOf r.failure ≠ .stackCorruption := by
  cases hv : e.eval with
  | none =>
    obtain ⟨_, _, -, -, -, hkind, -⟩ := h.divisionByZero hv
    rw [hkind]
    decide
  | some v =>
    rw [(h.value v hv).2.1]
    decide

end Answers

theorem stands_program (e : Expression) :
    Program.Stands e.program 0 (⟨.enter, 8⟩ :: (e.instructions ++ [⟨.leave, 8⟩])) :=
  .all e.program

/-- The sentinel takes one slot. -/
theorem room_above_sentinel (hslots : e.slots ≤ 255) :
    [Operands.sentinel].length + e.slots ≤ 256 := by
  rw [List.length_singleton]
  omega

section

variable {p : Program} {status : Status} {a : Arena} {frame : UInt32}
variable (hp : p.Linked e.program)
variable (hcount : status.instructionCount.toUInt32.toNat = e.program.length)
variable (hslots : e.slots ≤ 255)
include hp hcount hslots

/-- The program returns the value. -/
theorem endsWith_program_of_eval {v : Int} (hback : a.load4 frame = returnMarker)
    (hv : e.eval = some v) :
    ∃ w, signed w = v ∧
      Spot.EndsWith p status ⟨a, 0, frame, [Operands.sentinel]⟩ a w none := by
  have hstands := e.stands_program
  obtain ⟨w, hw, hblock⟩ := block_of_eval hp hcount a (frame - 8) hstands.tail.left
    (room_above_sentinel hslots) hv
  have hmarker : a.load4 (frame - 8 + 8) = returnMarker := by
    rwa [UInt32.sub_add_cancel]
  have hleave := endsWith_of_leave hp hcount (v := w) hstands.tail.right.head hmarker
  exact ⟨w, hw, (block_enter hp hcount hstands.head).endsWith (hblock.endsWith hleave)⟩

/-- Without a value, the program ends at a division by zero. -/
theorem endsWith_program_of_eval_eq_none (hv : e.eval = none) :
    ∃ (op : BinaryOp) (pc : UInt32), op.isDivision = true ∧
      Spot.EndsWith p status ⟨a, 0, frame, [Operands.sentinel]⟩ a returnMarker
        (some (.divisionByZero op.opcode pc)) := by
  have hstands := e.stands_program
  obtain ⟨op, pc, hop, hends⟩ := endsWith_of_eval_eq_none hp hcount a (frame - 8)
    hstands.tail.left (room_above_sentinel hslots) hv
  exact ⟨op, pc, hop, (block_enter hp hcount hstands.head).endsWith hends⟩

end

/-- **A call returns the value of an expression.** Take an expression that needs at most 255 operand
slots. Its module is assembled, and if the image is not too long, it can be loaded. A machine that
runs the module without an instruction limit, at whatever call level and with whatever in its arena,
answers every call that nobody cancels and that has at most twelve arguments: with the value,
without an error; or, if a divisor is zero, with minus one and the division. The operands are never
unbalanced. -/
theorem call_eval (hslots : e.slots ≤ 255) (name : String) :
    ∃ a image, ({} : Assembler).emitAll e.directives = .ok a ∧ a.image = .ok image ∧
      (image.size ≤ 4 * 2 ^ 20 → ∃ m, Module.load name image = .ok m ∧
        ∀ (vm : Machine) (level : Nat) (c : Invocation),
          vm.Runs m.program m.header.instructionCount level → vm.status.meter.limit = 0 →
          c.interruption = none → c.args.length ≤ 12 →
          ∃ (n : Nat) (vm' : Machine) (r : CallResult),
            (∀ {σ : Type} (host : Host σ) (fuel : Nat) (s : σ),
              Machine.call host (fuel + n) vm s c = some (vm', s, r)) ∧
            e.Answers vm vm' r ∧ Failure.kindOf r.failure ≠ .stackCorruption) := by
  obtain ⟨a, image, ha, himage, hload⟩ := e.exists_assembled
  refine ⟨a, image, ha, himage, fun hsize => ?_⟩
  obtain ⟨m, hm, hcount, hp⟩ := hload hsize name
  refine ⟨m, hm, fun vm level c hruns hlimit hwaits hargs => ?_⟩
  obtain ⟨arena, hloaded⟩ := hruns.loaded
  have hcount' : (Machine.entered vm.status).instructionCount.toUInt32.toNat
      = e.program.length := by
    rw [Machine.entered, hruns.instructionCount]
    exact hcount
  have hfirst : m.program.offset 0 = 0 := hp.offset_eq (Nat.zero_le _)
  cases hv : e.eval with
  | some v =>
    obtain ⟨w, rfl, hreturns⟩ := endsWith_program_of_eval hp hcount' hslots
      (Arena.load4_store4 _ _ _) hv
    obtain ⟨n, vm', hcall, hevents⟩ :=
      Machine.exists_call_of_endsWith hloaded hlimit hwaits hargs hfirst hreturns
    have hanswers : e.Answers vm vm' ⟨w, none⟩ := .of_eval hv hevents
    exact ⟨n, vm', _, hcall, hanswers, hanswers.kindOf_ne⟩
  | none =>
    obtain ⟨op, pc, hop, hfails⟩ := endsWith_program_of_eval_eq_none hp hcount' hslots hv
    obtain ⟨n, vm', hcall, hevents⟩ :=
      Machine.exists_call_of_endsWith hloaded hlimit hwaits hargs hfirst hfails
    have hanswers := Answers.of_eval_eq_none hv hop hevents
    exact ⟨n, vm', _, hcall, hanswers, hanswers.kindOf_ne⟩

/-- The least number by minus one, less a signed shift by a count of more than 31. -/
def sample : Expression :=
  .binary .sub (.binary .divi (.const (-2147483648)) (.const (-1)))
    (.binary .rshi (.const (-7)) (.const 33))

theorem eval_sample : sample.eval = some (-2147483644) := by
  decide

theorem exists_image_sample :
    ∃ a image, ({} : Assembler).emitAll sample.directives = .ok a ∧ a.image = .ok image ∧
      image.size ≤ 4 * 2 ^ 20 :=
  Assembler.exists_image_of_any (by decide +kernel)

/-- The quotient wraps and the shift rounds down. -/
theorem call_eval_sample :
    ∃ a image m, ({} : Assembler).emitAll sample.directives = .ok a ∧ a.image = .ok image ∧
      Module.load "sample" image = .ok m ∧ ∃ (n : Nat) (vm : Machine) (r : CallResult),
        (∀ {σ : Type} (host : Host σ) (fuel : Nat) (s : σ),
          Machine.call host (fuel + n) (Machine.create m 0) s ⟨7, [1, 2, 3], none⟩
            = some (vm, s, r)) ∧
        signed r.value = -2147483644 ∧ r.failure = none := by
  obtain ⟨a, image, ha, himage, hsize⟩ := exists_image_sample
  obtain ⟨a', image', ha', himage', hload⟩ := call_eval (e := sample) (by decide) "sample"
  obtain rfl : a = a' := Except.ok.inj (ha.symm.trans ha')
  obtain rfl : image = image' := Except.ok.inj (himage.symm.trans himage')
  obtain ⟨m, hm, hcalls⟩ := hload hsize
  obtain ⟨n, vm, r, hcall, hanswers, -⟩ := hcalls (Machine.create m 0) 0 ⟨7, [1, 2, 3], none⟩
    (Machine.runs_create m 0) rfl rfl (by decide)
  obtain ⟨hvalue, hfailure, -⟩ := hanswers.value _ eval_sample
  exact ⟨a, image, m, ha, himage, hm, n, vm, r, hcall, hvalue, hfailure⟩

/-- A call with more arguments than there is room for does not return the value. -/
theorem call_refused_sample :
    ∃ a image m, ({} : Assembler).emitAll sample.directives = .ok a ∧ a.image = .ok image ∧
      image.size ≤ 4 * 2 ^ 20 ∧ Module.load "sample" image = .ok m ∧ sample.slots ≤ 255 ∧
      sample.eval = some (-2147483644) ∧ signed returnMarker ≠ -2147483644 ∧
      ∀ {σ : Type} (host : Host σ) (fuel : Nat) (s : σ),
        Machine.call host fuel (Machine.create m 0) s ⟨0, List.replicate 13 0, none⟩
          = some (Machine.create m 0, s,
              ⟨returnMarker, some (Machine.tooManyArguments 13)⟩) := by
  obtain ⟨a, image, ha, himage, hsize⟩ := exists_image_sample
  obtain ⟨a', image', ha', himage', hload⟩ := exists_assembled sample
  obtain rfl : a = a' := Except.ok.inj (ha.symm.trans ha')
  obtain rfl : image = image' := Except.ok.inj (himage.symm.trans himage')
  obtain ⟨m, hm, -⟩ := hload hsize "sample"
  exact ⟨a, image, m, ha, himage, hsize, hm, by decide, eval_sample, by decide,
    fun host fuel s => rfl⟩

end Expression

end BytecodeHost
