import BytecodeHost.Proofs.Machine.Arithmetic
import BytecodeHost.Proofs.Machine.Block
import BytecodeHost.Proofs.Machine.Pairing

/-!
# Code that calls code

A call instruction leaves the place of the next instruction in the first word of its frame, and the
code that was called finds it there again when it gives the frame back. Nothing else remembers where
to go on, so what can be said about a called routine depends on what it leaves alone in the arena.

Here are the blocks of the instructions that work on frames: they load words of a frame, put
arguments there, and go to a routine and back.

## Main results

* `block_frameWord`, `block_argument`, `block_pop` — words of frames
* `block_branch_of_holds`, `block_branch_of_not_holds` — both ways of a branch
* `block_call`, `block_leave` — to a routine and back
* `Machine.Idle.exists_call_of_endsWith` — a call of code that ends without a fault
-/

namespace BytecodeHost

open TwosComplement

section

variable {p : Program} {I : List Instruction} {status : Status}
variable (hp : p.Linked I) (hcount : status.instructionCount.toUInt32.toNat = I.length)
include hp hcount

/-! ## Words of frames -/

variable {a : Arena} {k : Nat} {frame w u v : UInt32} {l : List UInt32}

theorem block_frameAddress (hi : I[k]? = some ⟨.frameAddress, w⟩) (hroom : l.length ≤ 255) :
    Block p status ⟨a, k, frame, l⟩ ⟨a, k + 1, frame, (w + frame) :: l⟩ :=
  block_of_execute hp hcount hi (show Opcode.frameAddress ≠ .leave by decide) fun _ s hs =>
    ⟨s.push (w + frame), hs.push hroom _, rfl⟩

theorem block_load4 (hi : I[k]? = some ⟨.load4, w⟩) :
    Block p status ⟨a, k, frame, v :: l⟩ ⟨a, k + 1, frame, a.load4 v :: l⟩ := by
  refine block_of_execute hp hcount hi (show Opcode.load4 ≠ .leave by decide) fun _ s hs =>
    ⟨s.setFirst (a.load4 v), hs.setFirst _, ?_⟩
  rw [Reference.execute, Opcode.shape, hs.first]

/-- A word of the frame is pushed: its address first, then what is there. -/
theorem block_frameWord (haddress : I[k]? = some ⟨.frameAddress, w⟩)
    (hload : I[k + 1]? = some ⟨.load4, v⟩) (hroom : l.length ≤ 255) :
    Block p status ⟨a, k, frame, l⟩ ⟨a, k + 2, frame, a.load4 (frame + w) :: l⟩ := by
  rw [UInt32.add_comm frame]
  exact (block_frameAddress hp hcount haddress hroom).trans (block_load4 hp hcount hload)

theorem block_argument (hi : I[k]? = some ⟨.arg, w⟩) :
    Block p status ⟨a, k, frame, v :: u :: l⟩
      ⟨a.store4 (frame + w) v, k + 1, frame, u :: l⟩ := by
  refine block_of_execute hp hcount hi (show Opcode.arg ≠ .leave by decide) fun _ s hs =>
    ⟨s.drop 1, hs.drop, ?_⟩
  rw [UInt32.add_comm frame, Reference.execute, Opcode.shape, hs.first]

theorem block_pop (hi : I[k]? = some ⟨.pop, w⟩) :
    Block p status ⟨a, k, frame, v :: u :: l⟩ ⟨a, k + 1, frame, u :: l⟩ :=
  block_of_execute hp hcount hi (show Opcode.pop ≠ .leave by decide) fun _ s hs =>
    ⟨s.drop 1, hs.drop, rfl⟩

/-! ## Branches -/

omit hp hcount in
/-- The operands of a branch are taken from the top. -/
theorem Operands.Holds.drop_two {s : Operands} {x : UInt32} (h : s.Holds (v :: u :: x :: l)) :
    (s.drop 2).Holds (x :: l) := by
  have htop : s.drop 2 = (s.drop 1).drop 1 := by
    rw [Operands.drop, Operands.drop, Operands.drop]
    congr 1
    grind
  rw [htop]
  exact h.drop.drop

theorem block_branch_of_holds {op : Opcode} {x : UInt32} (hi : I[k]? = some ⟨op, w⟩)
    (hshape : op.shape = .branch) (hholds : op.holds u v = true) :
    Block p status ⟨a, k, frame, v :: u :: x :: l⟩ ⟨a, w.toNat, frame, x :: l⟩ := by
  have hbranch : op.isBranch = true := by
    rw [Opcode.isBranch_eq, hshape]
    rfl
  have htarget := (hp.hasTarget _ (List.mem_of_getElem? hi)).operand_le hbranch
  refine block_of_next hp hcount hi htarget (fun hleave => ?_) fun _ s _ hs =>
    ⟨w, s.drop 2, rfl, hs.drop_two, ?_⟩
  · rw [show op = .leave from hleave] at hshape
    contradiction
  · rw [Reference.execute, hshape, hs.first, hs.second]
    exact if_pos hholds

theorem block_branch_of_not_holds {op : Opcode} {x : UInt32} (hi : I[k]? = some ⟨op, w⟩)
    (hshape : op.shape = .branch) (hholds : op.holds u v = false) :
    Block p status ⟨a, k, frame, v :: u :: x :: l⟩ ⟨a, k + 1, frame, x :: l⟩ := by
  refine block_of_execute hp hcount hi (fun hleave => ?_) fun _ s hs =>
    ⟨s.drop 2, hs.drop_two, ?_⟩
  · rw [show op = .leave from hleave] at hshape
    contradiction
  · rw [Reference.execute, hshape, hs.first, hs.second]
    exact if_neg (by rw [hholds]; exact Bool.false_ne_true)

/-! ## Calls and returns -/

omit hcount in
/-- The place behind a call instruction is where a return from it goes. -/
theorem Reference.returnIndex_offset {k : Nat} (hi : I[k]? = some ⟨.call, w⟩) :
    Reference.IsReturn I (p.offset (k + 1)) ∧
      ∃ t : UInt32, t.toNat = k + 1 ∧ Reference.returnIndex I (p.offset (k + 1)) = some t := by
  obtain ⟨hk, hcall⟩ := List.getElem?_eq_some_iff.mp hi
  have hoffset : p.offset (k + 1) = UInt32.ofNat (Program.place I (k + 1)) := hp.offset_eq hk
  have hreturn : Reference.IsReturn I (p.offset (k + 1)) := ⟨k, hk, by rw [hcall], hoffset⟩
  obtain ⟨t, ht⟩ := Reference.exists_returnIndex hreturn
  obtain ⟨hle, hplace⟩ := Reference.relocate_of_returnIndex hp ht
  exact ⟨hreturn, t, hp.offset_inj hle hk (hplace.trans hoffset), ht⟩

omit hcount in
/-- What a call instruction leaves in its frame is the place behind it. -/
theorem Program.Linked.relocate_add_one {j : UInt32} (hj : j.toNat < I.length) :
    Program.relocate I (j + 1) = p.offset (j.toNat + 1) := by
  rw [← hp.toNat_succ hj]
  exact (hp.offset_toNat (by rw [hp.toNat_succ hj]; exact hj)).symm

/-- To a routine: its index comes from the top of the operands. -/
theorem block_call (hi : I[k]? = some ⟨.call, w⟩) (hsign : 0 ≤ signed v)
    (htarget : v.toNat < I.length) :
    Block p status ⟨a, k, frame, v :: u :: l⟩
      ⟨a.store4 frame (p.offset (k + 1)), v.toNat, frame, u :: l⟩ := by
  have hk : k < I.length := (List.getElem?_eq_some_iff.mp hi).1
  refine block_of_next hp hcount hi (Nat.le_of_lt htarget) (fun h => nomatch h)
    fun j s hj hs => ⟨v, s.drop 1, rfl, hs.drop, ?_⟩
  have hplace : Program.relocate I (j + 1) = p.offset (k + 1) :=
    hj ▸ hp.relocate_add_one (hj ▸ hk)
  have hnotTrap : ¬v.toInt32 < 0 := by
    rw [Int32.lt_iff_toInt_lt, Int32.toInt_zero]
    exact Int.not_lt.mpr hsign
  have hlt : ¬status.instructionCount.toUInt32 ≤ v := by
    rw [UInt32.le_iff_toNat_le, hcount]
    exact Nat.not_le.mpr htarget
  rw [Reference.execute, Opcode.shape, hs.first, hplace]
  dsimp only
  rw [if_neg hnotTrap, if_neg hlt]

/-- Back from a routine: the frame that it gives back has the place behind the call. -/
theorem block_leave {c : Nat} {w' : UInt32} (hi : I[k]? = some ⟨.leave, w⟩)
    (hcall : I[c]? = some ⟨.call, w'⟩) (hback : a.load4 (frame + w) = p.offset (c + 1)) :
    Block p status ⟨a, k, frame, l⟩ ⟨a, c + 1, frame + w, l⟩ := by
  obtain ⟨hreturn, t, ht, hindex⟩ := Reference.returnIndex_offset hp hcall
  have hne := (hreturn.ne_returnMarker_and_lt hp).1
  refine block_of_next hp hcount hi (List.getElem?_eq_some_iff.mp hcall).1
    (fun _ => .inr (hback ▸ hreturn)) fun _ s _ hs => ⟨t, s, ht, hs, ?_⟩
  rw [Reference.execute, Opcode.shape]
  dsimp only
  rw [hback, if_neg hne, hindex]

end

/-! ## Machines between two calls -/

/-- **A call of code that ends without a fault** returns the value that it ends with, and leaves the
machine idle with the arena that the code leaves behind. -/
theorem Machine.Idle.exists_call_of_endsWith {m : Module} {vm : Machine} {a b : Arena}
    {c : Invocation} {w : UInt32} (h : vm.Idle m 0 b) (hwaits : c.interruption = none)
    (hargs : c.args.length ≤ 12) (hoffset : m.program.offset 0 = 0)
    (hends : Spot.EndsWith m.program (entered vm.status)
      ⟨b.pushFrame (vm.status.programStack - callFrameSize) c, 0,
        vm.status.programStack - callFrameSize, [Operands.sentinel]⟩ a w none) :
    ∃ (n : Nat) (vm' : Machine),
      (∀ {σ : Type} (host : Host σ) (fuel : Nat) (s : σ),
        Machine.call host (fuel + n) vm s c = some (vm', s, ⟨w, none⟩)) ∧ vm'.Idle m 0 a := by
  obtain ⟨n, meter, hcall⟩ :=
    exists_close_of_endsWith h.loaded h.limit hwaits hargs hoffset hends
  refine ⟨n, leave vm.status ⟨some ⟨m.program, a⟩, { entered vm.status with meter }⟩, hcall, ?_⟩
  obtain ⟨a', -, hidle⟩ := h.call (hcall (σ := Unit) (fun _ => pure (.value 0)) 0 ())
    h.instructionCount h.heap
  obtain rfl : a = a' := (Loaded.mk.inj (Option.some.inj hidle.loaded)).2
  exact hidle

end BytecodeHost
