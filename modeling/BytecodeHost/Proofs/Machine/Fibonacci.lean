import BytecodeHost.Proofs.Image.Assembly
import BytecodeHost.Proofs.Machine.Frame
import BytecodeHost.Proofs.Machine.Pairing
import BytecodeHost.Proofs.Machine.Subroutine
import Mathlib.Data.Nat.Fib.Basic

/-!
# A recursive routine

The module computes Fibonacci numbers by calling itself twice. Its frames take sixteen bytes of the
program stack, so a call with argument `n` reaches down less than `16 * n` bytes, and while the
second call is under way the result of the first waits among the operands, so `n / 2` operands may
pile up below those of the innermost call.

The contract of the routine says what it needs of a call (`Called`, `Room`) and what it gives back
(`Computes`). That the two frames of a caller and of what it calls do not meet is not said anywhere:
it follows from the range of the arena that a call may change, which ends where the frame of the
caller begins. Then the return place and the argument of the caller are still there when its second
call starts and when it returns.

## Main definitions

* `Fibonacci.directives`, `Fibonacci.program` — the module
* `Fibonacci.Called`, `Fibonacci.Room`, `Fibonacci.Computes` — the contract of the routine

## Main results

* `Fibonacci.computes` — the routine computes Fibonacci numbers
* `Fibonacci.exists_endsWith_program` — the program returns them
* `Fibonacci.call_fib` — so does a call of the module
-/

namespace BytecodeHost

open TwosComplement

namespace Fibonacci

/-! ## The module -/

/-- A call of the routine with a smaller number than it was called with itself. -/
def recursion (less : Int32) : List Directive :=
  [.imm Opcode.frameAddress.toByte 24, .op Opcode.load4.toByte, .imm Opcode.constant.toByte less,
   .op Opcode.sub.toByte, .arg 8, .constLabel "fib", .op Opcode.call.toByte]

/-- The module that returns a Fibonacci number. -/
def directives : List Directive :=
  [.imm Opcode.enter.toByte 16, .imm Opcode.frameAddress.toByte 24, .op Opcode.load4.toByte,
   .arg 8, .constLabel "fib", .op Opcode.call.toByte, .imm Opcode.leave.toByte 16,
   .label "fib", .imm Opcode.enter.toByte 16, .imm Opcode.frameAddress.toByte 24,
   .op Opcode.load4.toByte, .imm Opcode.constant.toByte 2, .branch Opcode.gei.toByte "recurse",
   .imm Opcode.frameAddress.toByte 24, .op Opcode.load4.toByte, .imm Opcode.leave.toByte 16,
   .label "recurse"] ++ recursion 1 ++ recursion 2 ++
  [.op Opcode.add.toByte, .imm Opcode.leave.toByte 16]

/-- The argument of the routine is on top: it is put into the frame, and the routine is called. -/
def pass : List Instruction :=
  [⟨.arg, 8⟩, ⟨.constant, 7⟩, ⟨.call, 0⟩]

/-- The instructions of a recursive call. -/
def recurse (less : UInt32) : List Instruction :=
  [⟨.frameAddress, 24⟩, ⟨.load4, 0⟩, ⟨.constant, less⟩, ⟨.sub, 0⟩] ++ pass

/-- The program of the module. The routine starts at index 7. -/
def program : List Instruction :=
  [⟨.enter, 16⟩, ⟨.frameAddress, 24⟩, ⟨.load4, 0⟩] ++ pass ++ [⟨.leave, 16⟩] ++
  [⟨.enter, 16⟩, ⟨.frameAddress, 24⟩, ⟨.load4, 0⟩, ⟨.constant, 2⟩, ⟨.gei, 15⟩,
   ⟨.frameAddress, 24⟩, ⟨.load4, 0⟩, ⟨.leave, 16⟩] ++
  recurse 1 ++ recurse 2 ++ [⟨.add, 0⟩, ⟨.leave, 16⟩]

theorem stands_recurse_one : Program.Stands program 15 (recurse 1) :=
  ⟨recurse 2 ++ [⟨.add, 0⟩, ⟨.leave, 16⟩], rfl⟩

theorem stands_recurse_two : Program.Stands program 22 (recurse 2) :=
  ⟨[⟨.add, 0⟩, ⟨.leave, 16⟩], rfl⟩

/-! ## The contract of the routine -/

/-- The routine was called from an index, with a word as its argument. -/
structure Called (p : Program) (c : Nat) (a : Arena) (frame w : UInt32) : Prop where
  /-- There is a call at the index. -/
  call : program[c]? = some ⟨.call, 0⟩
  /-- It left the place behind it in the frame. -/
  back : a.load4 frame = p.offset (c + 1)
  /-- The argument is in the frame. -/
  argument : a.load4 (frame + 8) = w

/-- There is room for the operands and the frames of a call with argument `n`. -/
structure Room (n : Nat) (a : Arena) (frame : UInt32) (l : List UInt32) : Prop where
  /-- The sentinel is among the operands. -/
  nonempty : l ≠ []
  /-- Every second call leaves an operand behind. -/
  operands : l.length + n / 2 + 2 ≤ 256
  /-- Frames take sixteen bytes. -/
  below : 16 * n ≤ frame.toNat
  /-- The words of the call are in the arena. -/
  above : frame.toNat + 12 ≤ a.mask.toNat + 1

/-- The arena in which the routine is called. -/
def handOver (p : Program) (c : Nat) (a : Arena) (frame w : UInt32) : Arena :=
  (a.store4 (frame + 8) w).store4 frame (p.offset (c + 1))

section

variable {p : Program} {a : Arena} {frame : UInt32}

theorem agreesOutside_handOver (p : Program) (c : Nat)
    (habove : frame.toNat + 12 ≤ a.mask.toNat + 1) (w : UInt32) :
    Arena.AgreesOutside frame.toNat (frame.toNat + 12) a (handOver p c a frame w) := by
  have hback : (a.store4 (frame + 8) w).index frame = frame.toNat :=
    Arena.index_of_le (show frame.toNat ≤ a.mask.toNat by omega)
  have hargument : a.index (frame + 8) = frame.toNat + 8 :=
    Arena.index_add_of_le (n := 8) (by omega)
  exact (Arena.AgreesOutside.store4 a w (by omega) (by omega)).trans
    (.store4 _ (p.offset (c + 1)) (by omega) (by omega))

theorem called_handOver {c : Nat} (hcall : program[c]? = some ⟨.call, 0⟩)
    (habove : frame.toNat + 12 ≤ a.mask.toNat + 1) (w : UInt32) :
    Called p c (handOver p c a frame w) frame w where
  call := hcall
  back := Arena.load4_store4 _ _ _
  argument := by
    have hargument : a.index (frame + 8) = frame.toNat + 8 :=
      Arena.index_add_of_le (n := 8) (by omega)
    have hapart : a.Apart frame (frame + 8) := by
      rw [Arena.Apart, hargument, Arena.index_of_le (by omega)]
      omega
    have hkept := Arena.load4_store4_of_apart (w := p.offset (c + 1))
      (hapart.congr (b := a.store4 (frame + 8) w) rfl)
    rw [handOver, hkept, Arena.load4_store4]

end

section

variable {p : Program} {status : Status}

/-- The routine computes the Fibonacci number of `n`, and changes only what is right below the frame
that it is called in. -/
def Computes (p : Program) (status : Status) (n : Nat) : Prop :=
  ∀ {c : Nat} {a : Arena} {frame w : UInt32} {l : List UInt32}, Called p c a frame w →
    w.toNat = n → Room n a frame l →
    ∃ a', Block p status ⟨a, 7, frame, l⟩ ⟨a', c + 1, frame, UInt32.ofNat (Nat.fib n) :: l⟩ ∧
      Arena.AgreesOutside (frame.toNat - 16 * n) frame.toNat a a'

/-- The frame of the routine is above its own argument. -/
theorem own_argument (frame : UInt32) : frame - 16 + 24 = frame + 8 := by
  grind

theorem not_holds_of_lt_two {w : UInt32} (hw : signed w < 2) : Opcode.gei.holds w 2 = false :=
  decide_eq_false fun hle => Int.not_le.mpr hw (Int32.le_iff_toInt_le.mp hle)

theorem holds_of_two_le {w : UInt32} (hw : 2 ≤ signed w) : Opcode.gei.holds w 2 = true :=
  decide_eq_true (Int32.le_iff_toInt_le.mpr hw)

variable (hp : p.Linked program) (hcount : status.instructionCount.toUInt32.toNat = program.length)
include hp hcount

variable {a : Arena} {frame : UInt32} {k : Nat} {l : List UInt32}

/-- To the routine, with the argument on top. -/
theorem block_pass (hcode : Program.Stands program k pass) {u v : UInt32}
    (hroom : l.length ≤ 254) :
    Block p status ⟨a, k, frame, v :: u :: l⟩ ⟨handOver p (k + 2) a frame v, 7, frame, u :: l⟩ := by
  have hroom' : (u :: l).length ≤ 255 := Nat.succ_le_succ hroom
  exact ((block_argument hp hcount hcode.head).trans
    (block_constant hp hcount hcode.tail.head hroom')).trans
    (block_call hp hcount hcode.tail.tail.head (by decide) (by decide))

/-- A recursive call pushes a Fibonacci number. -/
theorem Computes.exists_recurse {m : Nat} (h : Computes p status m) {less v : UInt32}
    (hcode : Program.Stands program k (recurse less)) (hv : a.load4 (frame + 24) = v)
    (hm : (v - less).toNat = m) (hroom : Room m a frame l) :
    ∃ a', Block p status ⟨a, k, frame, l⟩
        ⟨a', k + 7, frame, UInt32.ofNat (Nat.fib m) :: l⟩ ∧
      Arena.AgreesOutside (frame.toNat - 16 * m) (frame.toNat + 12) a a' := by
  obtain ⟨u, l, rfl⟩ := List.exists_cons_of_ne_nil hroom.nonempty
  have hoperands := hroom.operands
  rw [List.length_cons] at hoperands
  have hroom' : (v :: u :: l).length ≤ 255 := by
    rw [List.length_cons, List.length_cons]
    omega
  have hword : Block p status ⟨a, k, frame, u :: l⟩
      ⟨a, k + 2, frame, a.load4 (frame + 24) :: u :: l⟩ :=
    block_frameWord hp hcount hcode.head hcode.tail.head (Nat.le_of_succ_le hroom')
  rw [hv] at hword
  have hargument := (hword.trans (block_constant hp hcount hcode.tail.tail.head hroom')).trans
    (block_binary hp hcount hcode.tail.tail.tail.head rfl)
  have henter := hargument.trans (block_pass hp hcount hcode.right (by omega))
  have hcalled : Called p (k + 6) (handOver p (k + 6) a frame (v - less)) frame (v - less) :=
    called_handOver hcode.right.tail.tail.head hroom.above _
  obtain ⟨a', hblock, hagrees⟩ := h hcalled hm
    ⟨hroom.nonempty, hroom.operands, hroom.below, hroom.above⟩
  exact ⟨a', henter.trans hblock,
    ((agreesOutside_handOver p _ hroom.above _).mono (by omega) (Nat.le_refl _)).trans
      (hagrees.mono (Nat.le_refl _) (by omega))⟩

/-- The routine compares its argument with two. -/
theorem Called.block_compare {c : Nat} {w : UInt32} (h : Called p c a frame w)
    (hroom : l.length ≤ 254) :
    Block p status ⟨a, 7, frame, l⟩ ⟨a, 11, frame - 16, 2 :: w :: l⟩ := by
  have hword : Block p status ⟨a, 8, frame - 16, l⟩
      ⟨a, 10, frame - 16, a.load4 (frame - 16 + 24) :: l⟩ :=
    block_frameWord hp hcount (v := 0) rfl rfl (Nat.le_succ_of_le hroom)
  rw [own_argument, h.argument] at hword
  exact ((block_enter hp hcount rfl).trans hword).trans
    (block_constant hp hcount rfl (Nat.succ_le_succ hroom))

/-- The routine gives back a number that is less than two. -/
theorem Called.block_of_lt_two {c : Nat} {w : UInt32} (h : Called p c a frame w)
    (hw : signed w < 2) (hnonempty : l ≠ []) (hroom : l.length ≤ 254) :
    Block p status ⟨a, 7, frame, l⟩ ⟨a, c + 1, frame, w :: l⟩ := by
  obtain ⟨u, l, rfl⟩ := List.exists_cons_of_ne_nil hnonempty
  have hstays : Block p status ⟨a, 11, frame - 16, 2 :: w :: u :: l⟩
      ⟨a, 12, frame - 16, u :: l⟩ :=
    block_branch_of_not_holds hp hcount rfl rfl (not_holds_of_lt_two hw)
  have hword : Block p status ⟨a, 12, frame - 16, u :: l⟩
      ⟨a, 14, frame - 16, a.load4 (frame - 16 + 24) :: u :: l⟩ :=
    block_frameWord hp hcount (v := 0) rfl rfl (Nat.le_succ_of_le hroom)
  rw [own_argument, h.argument] at hword
  have hleave : Block p status ⟨a, 14, frame - 16, w :: u :: l⟩
      ⟨a, c + 1, frame - 16 + 16, w :: u :: l⟩ :=
    block_leave hp hcount rfl h.call (by rw [UInt32.sub_add_cancel]; exact h.back)
  rw [UInt32.sub_add_cancel] at hleave
  exact (((h.block_compare hp hcount hroom).trans hstays).trans hword).trans hleave

theorem computes_of_lt_two {n : Nat} (hn : n < 2) (hfib : Nat.fib n = n) : Computes p status n := by
  intro c a frame w l hcalled hw hroom
  have hoperands := hroom.operands
  have hword : w = UInt32.ofNat (Nat.fib n) := by rw [hfib, ← hw, UInt32.ofNat_toNat]
  have hsigned : signed w < 2 := by
    rw [signed_of_lt (by omega)]
    omega
  rw [← hword]
  exact ⟨a, hcalled.block_of_lt_two hp hcount hsigned hroom.nonempty (by omega), .refl a⟩

/-- The routine calls itself twice. -/
theorem Computes.add_two {n : Nat} (h : Computes p status n) (h' : Computes p status (n + 1)) :
    Computes p status (n + 2) := by
  intro c a frame w l hcalled hw hroom
  obtain ⟨hnonempty, hoperands, hbelow, habove⟩ := hroom
  obtain ⟨u, l, rfl⟩ := List.exists_cons_of_ne_nil hnonempty
  rw [List.length_cons] at hoperands
  have hlt := frame.toNat_lt
  have hown : (frame - 16).toNat = frame.toNat - 16 :=
    UInt32.toNat_sub_of_le _ _ (UInt32.le_iff_toNat_le.mpr (show 16 ≤ frame.toNat by omega))
  have hless : ∀ less : UInt32, less.toNat ≤ 2 → (w - less).toNat = n + 2 - less.toNat := by
    intro less hle
    rw [UInt32.toNat_sub_of_le _ _ (UInt32.le_iff_toNat_le.mpr (by omega)), hw]
  have hsigned : 2 ≤ signed w := by
    rw [signed_of_lt (by omega)]
    omega
  have hcompare := (hcalled.block_compare hp hcount (l := u :: l)
    (by rw [List.length_cons]; omega)).trans
    (block_branch_of_holds hp hcount rfl rfl (holds_of_two_le hsigned))
  -- The frame in which the routine was called lies above everything that its own calls change.
  have hback : a.index frame = frame.toNat := Arena.index_of_le (by omega)
  have hindex : a.index (frame + 8) = frame.toNat + 8 :=
    Arena.index_add_of_le (n := 8) (by omega)
  have hargument : a.load4 (frame - 16 + 24) = w := by rw [own_argument, hcalled.argument]
  obtain ⟨b, hfirst, hagrees⟩ := h'.exists_recurse hp hcount (l := u :: l) stands_recurse_one
    hargument (hless 1 (by decide))
    ⟨hnonempty, by rw [List.length_cons]; omega, by omega, by omega⟩
  have hmask := congrArg UInt32.toNat hagrees.mask
  have hargument' : b.load4 (frame - 16 + 24) = w := by
    rw [own_argument, hagrees.load4 (by omega), hcalled.argument]
  obtain ⟨b', hsecond, hagrees'⟩ := h.exists_recurse hp hcount
    (l := UInt32.ofNat (Nat.fib (n + 1)) :: u :: l) stands_recurse_two hargument'
    (hless 2 (by decide))
    ⟨List.cons_ne_nil _ _, by rw [List.length_cons, List.length_cons]; omega, by omega, by omega⟩
  have hchanges : Arena.AgreesOutside (frame.toNat - 16 * (n + 2)) frame.toNat a b' :=
    (hagrees.mono (by omega) (by omega)).trans (hagrees'.mono (by omega) (by omega))
  have hadd : Block p status
      ⟨b', 29, frame - 16, UInt32.ofNat (Nat.fib n) :: UInt32.ofNat (Nat.fib (n + 1)) :: u :: l⟩
      ⟨b', 30, frame - 16, Opcode.add.binary (UInt32.ofNat (Nat.fib (n + 1)))
        (UInt32.ofNat (Nat.fib n)) :: u :: l⟩ :=
    block_binary hp hcount rfl rfl
  have hsum : Opcode.add.binary (UInt32.ofNat (Nat.fib (n + 1))) (UInt32.ofNat (Nat.fib n))
      = UInt32.ofNat (Nat.fib (n + 2)) := by
    rw [Nat.fib_add_two, UInt32.ofNat_add, UInt32.add_comm]
    rfl
  have hleave : Block p status ⟨b', 30, frame - 16, UInt32.ofNat (Nat.fib (n + 2)) :: u :: l⟩
      ⟨b', c + 1, frame - 16 + 16, UInt32.ofNat (Nat.fib (n + 2)) :: u :: l⟩ :=
    block_leave hp hcount rfl hcalled.call
      (by rw [UInt32.sub_add_cancel, hchanges.load4 (.inr (by omega)), hcalled.back])
  rw [hsum] at hadd
  rw [UInt32.sub_add_cancel] at hleave
  exact ⟨b', (((hcompare.trans hfirst).trans hsecond).trans hadd).trans hleave, hchanges⟩

/-- **The routine computes Fibonacci numbers.** -/
theorem computes (n : Nat) : Computes p status n := by
  induction n using Nat.twoStepInduction with
  | zero => exact computes_of_lt_two hp hcount (by decide) rfl
  | one => exact computes_of_lt_two hp hcount (by decide) rfl
  | more n h h' => exact h.add_two hp hcount h'

/-! ## The program -/

/-- The program calls the routine with its command. -/
theorem block_start (hroom : l.length ≤ 254) (hnonempty : l ≠ []) :
    Block p status ⟨a, 0, frame, l⟩
      ⟨handOver p 5 a (frame - 16) (a.load4 (frame + 8)), 7, frame - 16, l⟩ := by
  obtain ⟨u, l, rfl⟩ := List.exists_cons_of_ne_nil hnonempty
  have hword : Block p status ⟨a, 1, frame - 16, u :: l⟩
      ⟨a, 3, frame - 16, a.load4 (frame - 16 + 24) :: u :: l⟩ :=
    block_frameWord hp hcount (v := 0) rfl rfl (Nat.le_succ_of_le hroom)
  rw [own_argument] at hword
  exact ((block_enter hp hcount rfl).trans hword).trans
    (block_pass hp hcount (k := 3) ⟨program.drop 6, rfl⟩ (Nat.le_of_succ_le hroom))

/-- **The program returns its command, or a Fibonacci number**, and changes only what is right below
the frame that it is called in. -/
theorem exists_endsWith_program {w : UInt32} (hw : a.load4 (frame + 8) = w)
    (hback : a.load4 frame = returnMarker) (hcommand : signed w ≤ 500)
    (hbelow : 8016 ≤ frame.toNat) (habove : frame.toNat ≤ a.mask.toNat) :
    ∃ v b, Spot.EndsWith p status ⟨a, 0, frame, [Operands.sentinel]⟩ b v none ∧
      (signed w < 2 → v = w) ∧ (2 ≤ signed w → v = UInt32.ofNat (Nat.fib (signed w).toNat)) ∧
      Arena.AgreesOutside (frame.toNat - 16 - 16 * (signed w).toNat) frame.toNat a b := by
  have hlt := frame.toNat_lt
  have hown : (frame - 16).toNat = frame.toNat - 16 :=
    UInt32.toNat_sub_of_le _ _ (UInt32.le_iff_toNat_le.mpr (show 16 ≤ frame.toNat by omega))
  have hindex : a.index frame = frame.toNat := Arena.index_of_le habove
  have hstart : Block p status ⟨a, 0, frame, [Operands.sentinel]⟩
      ⟨handOver p 5 a (frame - 16) (a.load4 (frame + 8)), 7, frame - 16, [Operands.sentinel]⟩ :=
    block_start hp hcount (by decide) (List.cons_ne_nil _ _)
  rw [hw] at hstart
  have hcalled : Called p 5 (handOver p 5 a (frame - 16) w) (frame - 16) w :=
    called_handOver rfl (by omega) w
  have hhandOver : Arena.AgreesOutside (frame - 16).toNat ((frame - 16).toNat + 12) a
      (handOver p 5 a (frame - 16) w) := agreesOutside_handOver p 5 (by omega) w
  -- Whatever the routine changes, the program returns what it gives back.
  have hends : ∀ {v : UInt32} {b : Arena} {start : Nat},
      Block p status ⟨handOver p 5 a (frame - 16) w, 7, frame - 16, [Operands.sentinel]⟩
        ⟨b, 6, frame - 16, [v, Operands.sentinel]⟩ →
      Arena.AgreesOutside start frame.toNat a b →
      Spot.EndsWith p status ⟨a, 0, frame, [Operands.sentinel]⟩ b v none := by
    intro v b start hblock hagrees
    refine (hstart.trans hblock).endsWith (endsWith_of_leave hp hcount (w := 16) rfl ?_)
    rw [UInt32.sub_add_cancel, hagrees.load4 (.inr (by omega)), hback]
  by_cases hsmall : signed w < 2
  · have hagrees := hhandOver.mono (show frame.toNat - 16 - 16 * (signed w).toNat ≤ _ by omega)
      (show _ ≤ frame.toNat by omega)
    exact ⟨w, _, hends (hcalled.block_of_lt_two hp hcount hsmall (List.cons_ne_nil _ _) (by decide))
      hagrees, fun _ => rfl, fun h => absurd h (by omega), hagrees⟩
  · have hnat : w.toNat = (signed w).toNat := by
      have := unsigned_signed w
      rw [unsigned] at this
      omega
    have hroom : Room (signed w).toNat (handOver p 5 a (frame - 16) w) (frame - 16)
        [Operands.sentinel] :=
      ⟨List.cons_ne_nil _ _, by rw [List.length_singleton]; omega, by omega,
        by rw [hhandOver.mask]; omega⟩
    obtain ⟨b, hblock, hrest⟩ := computes hp hcount (signed w).toNat hcalled hnat hroom
    have hagrees := (hhandOver.mono (show frame.toNat - 16 - 16 * (signed w).toNat ≤ _ by omega)
      (show _ ≤ frame.toNat by omega)).trans (hrest.mono (by omega) (by omega))
    exact ⟨_, b, hends hblock hagrees, fun h => absurd h hsmall, fun _ => rfl, hagrees⟩

end

/-! ## Calls -/

theorem places_fib : Directive.Places directives "fib" 7 :=
  ⟨directives.take 7, directives.drop 8, rfl, by simp [directives, recursion], rfl⟩

theorem places_recurse : Directive.Places directives "recurse" 15 :=
  ⟨directives.take 16, directives.drop 17, rfl, by simp [directives, recursion], rfl⟩

theorem proper_recursion (less : Int32) : ∀ d ∈ recursion less, Directive.Proper directives d :=
  List.forall_iff_forall_mem.mp
    ⟨.imm rfl (by decide), .op rfl, .imm rfl (fun h => nomatch h), .op rfl, .arg _,
      .constLabel places_fib, .op rfl⟩

theorem wellUsed_directives : Directive.WellUsed directives where
  proper := by
    refine List.forall_mem_append.mpr ⟨List.forall_mem_append.mpr ⟨List.forall_mem_append.mpr
      ⟨List.forall_iff_forall_mem.mp ?_, proper_recursion 1⟩, proper_recursion 2⟩,
      List.forall_iff_forall_mem.mp ⟨.op rfl, .imm rfl (by decide)⟩⟩
    exact ⟨.imm rfl (by decide), .imm rfl (by decide), .op rfl, .arg _, .constLabel places_fib,
      .op rfl, .imm rfl (by decide), .label _, .imm rfl (by decide), .imm rfl (by decide), .op rfl,
      .imm rfl (by decide), .branch rfl places_recurse, .imm rfl (by decide), .op rfl,
      .imm rfl (by decide), .label _⟩
  nonempty := by decide
  reserved_le := by decide

theorem denotes_recursion (less : Int32) :
    List.Forall₂ (Directive.Denotes directives) (recursion less) (recurse less.toUInt32) :=
  .cons .imm <| .cons .op <| .cons .imm <| .cons .op <| .cons .arg <|
    .cons (.constLabel places_fib) <| .cons .op .nil

theorem denotes_directives :
    List.Forall₂ (Directive.Denotes directives) (Directive.instructions directives) program := by
  have hend : List.Forall₂ (Directive.Denotes directives)
      [.op Opcode.add.toByte, .imm Opcode.leave.toByte 16] [⟨.add, 0⟩, ⟨.leave, 16⟩] :=
    .cons .op (.cons .imm .nil)
  have hroutine :=
    List.rel_append (List.rel_append (denotes_recursion 1) (denotes_recursion 2)) hend
  exact .cons .imm <| .cons .imm <| .cons .op <| .cons .arg <| .cons (.constLabel places_fib) <|
    .cons .op <| .cons .imm <| .cons .imm <| .cons .imm <| .cons .op <| .cons .imm <|
    .cons (.branch places_recurse) <| .cons .imm <| .cons .op <| .cons .imm hroutine

/-- The module is assembled and loaded, and its arena is all program stack. -/
theorem exists_assembled (name : String) :
    ∃ a image m, ({} : Assembler).emitAll directives = .ok a ∧ a.image = .ok image ∧
      Module.load name image = .ok m ∧ m.arena.size = 65536 ∧
      m.header.instructionCount.toUInt32.toNat = program.length ∧ m.program.Linked program := by
  have hevaluated : ∃ a image, ({} : Assembler).emitAll directives = .ok a ∧
      a.image = .ok image ∧
      (decide (image.size ≤ 4 * 2 ^ 20) && (Header.decode image).arenaSize == 65536) = true :=
    Assembler.exists_image_satisfying (by decide +kernel)
  obtain ⟨a, image, ha, himage, hevaluated⟩ := hevaluated
  rw [Bool.and_eq_true, decide_eq_true_iff, beq_iff_eq] at hevaluated
  obtain ⟨I, image', hI, himage', hload⟩ := Assembler.exists_linked wellUsed_directives ha
  obtain rfl : image = image' := Except.ok.inj (himage.symm.trans himage')
  obtain rfl := Directive.Denotes.forall₂_unique hI denotes_directives
  obtain ⟨m, hm, hcount, hlinked⟩ := hload hevaluated.1 name
  have hnat := Bytes.toNat_toUInt32 (x := m.header.instructionCount) (by omega)
  exact ⟨a, image, m, ha, himage, hm, (Module.size_arena hm).1.trans hevaluated.2, by omega,
    hlinked⟩

/-- **A call returns a Fibonacci number.** The module is assembled and loaded. A machine that runs
it without an instruction limit, freshly created or after any calls, answers every call that nobody
cancels, that has at most twelve arguments and a command of at most 500: with the command if it is
less than two, and with the Fibonacci number of the command otherwise, cut to 32 bits in two's
complement. It takes sixteen bytes of the program stack for each nested call, changes nothing below,
and is ready for the next call. -/
theorem call_fib (name : String) :
    ∃ a image m, ({} : Assembler).emitAll directives = .ok a ∧ a.image = .ok image ∧
      Module.load name image = .ok m ∧
      ∀ (vm : Machine) (b : Arena) (c : Invocation), vm.Idle m 0 b → b.mask = m.arena.mask →
        c.interruption = none → c.args.length ≤ 12 → signed c.command ≤ 500 →
        ∃ (n : Nat) (vm' : Machine) (b' : Arena) (value : UInt32),
          (∀ {σ : Type} (host : Host σ) (fuel : Nat) (s : σ),
            Machine.call host (fuel + n) vm s c = some (vm', s, ⟨value, none⟩)) ∧
          (signed c.command < 2 → signed value = signed c.command) ∧
          (2 ≤ signed c.command → signed value = wrap (Nat.fib (signed c.command).toNat)) ∧
          vm'.Idle m 0 b' ∧ b'.mask = m.arena.mask ∧
          ∀ j : Nat, (j : Int) < 65460 - 16 * max (signed c.command) 1 →
            Bytes.byteAt b'.bytes j = Bytes.byteAt b.bytes j := by
  obtain ⟨a, image, m, ha, himage, hm, hsize, hcount, hp⟩ := exists_assembled name
  refine ⟨a, image, m, ha, himage, hm, fun vm b c hidle hmask hwaits hargs hcommand => ?_⟩
  have hcount' : (Machine.entered vm.status).instructionCount.toUInt32.toNat = program.length := by
    rw [Machine.entered, hidle.instructionCount]
    exact hcount
  have hfirst : m.program.offset 0 = 0 := hp.offset_eq (Nat.zero_le _)
  have hstack : vm.status.programStack - callFrameSize = 65476 := by
    rw [hidle.programStack, hsize]
    rfl
  have hbytes : b.mask.toNat + 1 = 65536 := by
    rw [hmask, ← Arena.toNat_size, hsize]
    rfl
  have hpush : Arena.AgreesOutside (65476 : UInt32).toNat ((65476 : UInt32).toNat + 60) b
      (b.pushFrame 65476 c) :=
    Arena.agreesOutside_pushFrame hargs (show 65476 + 60 ≤ b.mask.toNat + 1 by omega)
  have hframe : (b.pushFrame 65476 c).HoldsFrame 65476 c :=
    Arena.holdsFrame_pushFrame hargs (by rw [Arena.toNat_size]; omega)
  obtain ⟨value, b', hends, hsmall, hlarge, hagrees⟩ := exists_endsWith_program hp hcount'
    hframe.command (Arena.load4_store4 _ _ _) hcommand (by decide)
    (by rw [hpush.mask]; exact show 65476 ≤ b.mask.toNat by omega)
  rw [← hstack] at hends
  obtain ⟨n, vm', hcall, hidle'⟩ :=
    hidle.exists_call_of_endsWith hwaits hargs hfirst hends
  refine ⟨n, vm', b', value, hcall, fun h => by rw [hsmall h], fun h => ?_, hidle',
    (hagrees.mask.trans hpush.mask).trans hmask, fun j hj => ?_⟩
  · rw [hlarge h, signed_eq_wrap, UInt32.toNat_ofNat', wrap_mod]
  · have hbelow : j < 65476 - 16 - 16 * (signed c.command).toNat := by omega
    exact (hagrees.byte j (.inl hbelow)).trans (hpush.byte j (.inl (show j < 65476 by omega)))

/-- The 47th Fibonacci number does not fit into a signed word. -/
theorem call_fib_fortySeven :
    ∃ a image m, ({} : Assembler).emitAll directives = .ok a ∧ a.image = .ok image ∧
      Module.load "fib" image = .ok m ∧ ∃ (n : Nat) (vm : Machine) (value : UInt32),
        (∀ {σ : Type} (host : Host σ) (fuel : Nat) (s : σ),
          Machine.call host (fuel + n) (Machine.create m 0) s ⟨47, [], none⟩
            = some (vm, s, ⟨value, none⟩)) ∧
        signed value = -1323752223 := by
  obtain ⟨a, image, m, ha, himage, hm, hcalls⟩ := call_fib "fib"
  obtain ⟨n, vm, -, value, hcall, -, hlarge, -⟩ := hcalls (Machine.create m 0) m.arena
    ⟨47, [], none⟩ (Machine.idle_create m 0 m.name) rfl rfl (by decide) (by decide)
  have hwraps : wrap (Nat.fib 47) = -1323752223 := by decide +kernel
  exact ⟨a, image, m, ha, himage, hm, n, vm, value, hcall, (hlarge (by decide)).trans hwraps⟩

end Fibonacci

end BytecodeHost
