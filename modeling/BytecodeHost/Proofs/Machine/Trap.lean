import BytecodeHost.Proofs.Machine.Budget
import BytecodeHost.Proofs.Machine.Frame
import BytecodeHost.Proofs.Machine.Operands

/-!
# Traps

A call instruction with a negative target raises a trap. The return place and the trap number go
into the first two words of the frame, where the module can write too, and the host is handed the
sixteen words after the first. The answer takes the place of the target, and execution goes on where
the frame says by then.

While it answers, the host may write to the arena and call back into the machine. It cannot take the
program away, because a call is in progress. So if it has left the return place alone, the
activation goes on behind the call instruction, and everything but the answer is as before.

## Main results

* `Arena.toList_loadWords` — the words that a trap hands over
* `Script.kept_run` — what a machine keeps while a trap is answered
* `Activation.run_trap` — a trap from the call instruction to the one after it
-/

namespace BytecodeHost

/-! ## Words of a trap -/

namespace Arena

theorem toList_loadWords (a : Arena) (address : UInt32) (n : Nat) (ws : Array UInt32) :
    (a.loadWords address n ws).toList
      = ws.toList ++ (List.range n).map fun i => a.load4 (address + UInt32.ofNat (4 * i)) := by
  induction n generalizing address ws with
  | zero => rw [loadWords, List.range_zero, List.map_nil, List.append_nil]
  | succ n ih =>
    have hshift : ∀ i, address + 4 + UInt32.ofNat (4 * i)
        = address + UInt32.ofNat (4 * (i + 1)) := by
      intro i
      rw [Nat.add_comm i 1, ← add_words]
      rfl
    rw [loadWords, ih, Array.toList_push, List.append_assoc, List.range_succ_eq_map, List.map_cons,
      List.map_map, add_no_words]
    simp only [hshift, Function.comp_def, List.singleton_append]

theorem getElem?_loadWords (a : Arena) (address : UInt32) {n i : Nat} (h : i < n) :
    (a.loadWords address n #[])[i]? = some (a.load4 (address + UInt32.ofNat (4 * i))) := by
  rw [← Array.getElem?_toList, toList_loadWords, List.nil_append, List.getElem?_map,
    List.getElem?_range h, Option.map_some]

end Arena

/-! ## Answering a trap -/

variable {σ : Type}

/-- **What a machine keeps while a trap is answered**: its fabric, its call level and its program
stack, whatever the host asks and however often it calls back. -/
theorem Script.kept_run {α : Type} {host : Host σ} {fuel : Nat} (script : Script σ α)
    {m m' : Machine} {s' : σ} {a : α} (hlevel : m.status.callLevel ≠ 0)
    (h : script.run (Machine.call host fuel) m = some (m', s', a)) :
    m'.fabric = m.fabric ∧ m'.status.callLevel = m.status.callLevel ∧
      m'.status.programStack = m.status.programStack := by
  induction script generalizing m with
  | done s a =>
    obtain rfl := (Prod.mk.inj (Option.some.inj h)).1
    exact ⟨rfl, rfl, rfl⟩
  | ask q k ih =>
    obtain ⟨hfabric, heap, lastError, events, hstatus⟩ := Request.served_perform hlevel q
    have hlevel' : (q.perform m).1.status.callLevel = m.status.callLevel := by rw [hstatus]; rfl
    have hstack' : (q.perform m).1.status.programStack = m.status.programStack := by
      rw [hstatus]
      rfl
    obtain ⟨h₁, h₂, h₃⟩ := ih _ (hlevel'.trans_ne hlevel) h
    exact ⟨h₁.trans hfabric, h₂.trans hlevel', h₃.trans hstack'⟩
  | call s c k ih =>
    rw [run] at h
    split at h
    · rename_i m₁ s₁ r hcall
      obtain ⟨hfabric, hlevel', -, hstack'⟩ := Machine.kept_call hcall
      obtain ⟨h₁, h₂, h₃⟩ := ih s₁ r (hlevel'.trans_ne hlevel) h
      exact ⟨h₁.trans hfabric, h₂.trans hlevel', h₃.trans hstack'⟩
    · contradiction

/-! ## The frame of a trap -/

/-- Writes the return place and the number of a trap into its frame. -/
def Arena.markTrap (a : Arena) (frame pc target : UInt32) : Arena :=
  (a.store4 frame pc).store4 (frame + 4) (returnMarker - target)

namespace Arena

variable {a : Arena} {frame pc target : UInt32}

/-- The words of the frame of a trap are apart. -/
theorem apart_frame (frame : UInt32) (hsize : 128 ≤ a.size.toNat) {i j : Nat} (hij : i < j)
    (hj : j ≤ 16) : a.Apart (frame + UInt32.ofNat (4 * i)) (frame + UInt32.ofNat (4 * j)) :=
  a.apart_add frame hij (by omega)

theorem load4_markTrap_frame (hsize : 128 ≤ a.size.toNat) :
    (a.markTrap frame pc target).load4 frame = pc := by
  have hapart := a.apart_frame frame hsize (show 0 < 1 by omega) (by omega)
  rw [add_no_words] at hapart
  exact (load4_store4_of_apart (hapart.congr (b := a.store4 frame pc) rfl).symm).trans
    (load4_store4 a frame pc)

theorem load4_markTrap_argument (hsize : 128 ≤ a.size.toNat) {j : Nat} (hpos : 1 ≤ j)
    (hj : j ≤ 15) :
    (a.markTrap frame pc target).load4 (frame + UInt32.ofNat (4 + 4 * j))
      = a.load4 (frame + UInt32.ofNat (4 + 4 * j)) := by
  have hfirst := a.apart_frame frame hsize (show 0 < j + 1 by omega) (by omega)
  have hsecond := a.apart_frame frame hsize (show 1 < j + 1 by omega) (by omega)
  rw [add_no_words] at hfirst
  rw [show 4 + 4 * j = 4 * (j + 1) by omega]
  exact (load4_store4_of_apart (hsecond.congr (b := a.store4 frame pc) rfl)).trans
    (load4_store4_of_apart hfirst)

end Arena

/-- The number of a trap is one less than minus its target, and no target is too small for that. -/
theorem toInt_trapNumber {target : UInt32} (h : target.toInt32 < 0) :
    (returnMarker - target).toInt32.toInt = -1 - target.toInt32.toInt := by
  have hneg : target.toInt32.toInt < 0 := Int32.lt_iff_toInt_lt.mp h
  have hle : -2 ^ 31 ≤ target.toInt32.toInt := Int32.le_toInt _
  rw [UInt32.toInt32_sub, Int32.toInt_sub, show returnMarker.toInt32.toInt = -1 from rfl]
  exact Int.bmod_eq_of_le (by omega) (by omega)

/-! ## From the call instruction to the one after it -/

/-- The opcode at a place of a program. -/
def Program.HasOpcode (p : Program) (pc : UInt32) (op : Opcode) : Prop :=
  ∃ word, p.code[pc.toNat]? = some word ∧ Opcode.ofByte? word.toUInt8 = some op

/-- The instruction with the opcode at the program counter is executed. -/
theorem step_of_hasOpcode {p : Program} {r : Registers} {op : Opcode} (count : Int32)
    (h : p.HasOpcode r.pc op) (a : Arena) :
    step p count r a = execute p count op (r.pc + 1) r.frame r.operands a := by
  obtain ⟨word, hword, hop⟩ := h
  rw [step, hword]
  dsimp only
  rw [hop]

/-- An argument that is stored in a frame of at most seventeen words. The other words stay. -/
theorem step_arg {p : Program} (count : Int32) {r : Registers} {a : Arena} {i : Nat}
    (hop : p.HasOpcode r.pc .arg)
    (hoperand : p.code[(r.pc + 1).toNat]? = some (UInt32.ofNat (4 + 4 * i)))
    (hi : i ≤ 15) (hsize : 128 ≤ a.size.toNat) :
    ∃ r' a', step p count r a = .next r' a' ∧ r'.frame = r.frame ∧
      a'.load4 (r.frame + UInt32.ofNat (4 + 4 * i)) = r.operands.first ∧
      ∀ j ≤ 15, j ≠ i → a'.load4 (r.frame + UInt32.ofNat (4 + 4 * j))
        = a.load4 (r.frame + UInt32.ofNat (4 + 4 * j)) := by
  have hstep : step p count r a = .next ⟨r.pc + 1 + 1, r.frame, r.operands.drop 1⟩
      (a.store4 (UInt32.ofNat (4 + 4 * i) + r.frame) r.operands.first) := by
    rw [step_of_hasOpcode count hop, execute, Opcode.shape]
    dsimp only
    rw [withImmediate, hoperand]
  refine ⟨_, _, hstep, rfl, ?_, fun j hj hne => Arena.load4_store4_of_apart ?_⟩
  · rw [UInt32.add_comm (UInt32.ofNat _)]
    exact Arena.load4_store4 a _ _
  · rw [UInt32.add_comm (UInt32.ofNat _)]
    have hword : ∀ k : Nat, 4 + 4 * k = 4 * (k + 1) := fun k => by omega
    rw [hword i, hword j]
    rcases Nat.lt_or_gt_of_ne hne with h | h
    · exact (a.apart_frame r.frame hsize (by omega) (by omega)).symm
    · exact a.apart_frame r.frame hsize (by omega) (by omega)

namespace Activation

/-- The arena that a trap is raised with. -/
def trapArena (x : Activation) : Arena :=
  x.arena.markTrap x.registers.frame (x.registers.pc + 1) x.registers.operands.first

/-- The trap that a call instruction raises. -/
def trapped (x : Activation) (i : Option Interruption) (executed : Nat) : Pending where
  interruption := i
  words := x.trapArena.loadWords (x.registers.frame + 4) trapWords #[]
  frame := x.registers.frame
  operands := x.registers.operands.drop 1
  executed := executed

/-- The machine that the host is handed, given the state after the accounting. -/
def trapMachine (x : Activation) (status : Status) : Machine where
  loaded := some ⟨x.program, x.trapArena⟩
  status := { status with programStack := x.registers.frame - 4 }

/-- **A call instruction with a negative target raises a trap.** -/
theorem advance_call {x y : Activation} {i : Option Interruption}
    (haccount : x.account i = (y, none))
    (hop : x.program.HasOpcode x.registers.pc .call)
    (htarget : x.registers.operands.first.toInt32 < 0) (s : σ) :
    x.advance i s = .traps (x.trapped i y.executed) (x.trapMachine y.status) := by
  have hstep : ∀ count, step x.program count x.registers x.arena
      = .trap ⟨x.registers.pc + 1, x.registers.frame, x.registers.operands.drop 1⟩ x.trapArena := by
    intro count
    rw [step_of_hasOpcode count hop, execute, Opcode.shape]
    dsimp only
    rw [if_pos htarget]
    rfl
  obtain ⟨executed, fault, hcases⟩ := x.account_cases i
  obtain ⟨rfl, rfl⟩ := Prod.mk.inj (hcases.symm.trans haccount)
  rw [advance, haccount]
  dsimp only
  rw [hstep]
  rfl

section

variable {x y : Activation} {i : Option Interruption} (haccount : x.account i = (y, none))

include haccount

/-- A call instruction that raises a trap goes on as the host answers it. -/
theorem run_of_call (hop : x.program.HasOpcode x.registers.pc .call)
    (htarget : x.registers.operands.first.toInt32 < 0) {σ : Type} (host : Host σ) (fuel : Nat)
    (s : σ) :
    run host (fuel + 1) i x s
      = ((host (x.trapped i y.executed).words s).run (Machine.call host fuel)
          (x.trapMachine y.status)).bind fun (m, s, reply) =>
        match (x.trapped i y.executed).resume m s reply with
        | .ok x => run host fuel i x s
        | .error e => some e := by
  rw [run_succ, advance_call haccount hop htarget s]
  rfl

theorem callLevel_of_account : y.status.callLevel = x.status.callLevel := by
  obtain ⟨executed, fault, hcases⟩ := x.account_cases i
  obtain ⟨rfl, rfl⟩ := Prod.mk.inj (hcases.symm.trans haccount)
  rfl

end

/-- Behind the trap number, a host is handed words of the frame. -/
theorem getElem?_words_trapped {x : Activation} (hsize : 128 ≤ x.arena.size.toNat)
    (i : Option Interruption) (executed : Nat) {j : Nat} (hpos : 1 ≤ j) (hj : j ≤ 15) :
    (x.trapped i executed).words[j]?
      = some (x.arena.load4 (x.registers.frame + UInt32.ofNat (4 + 4 * j))) := by
  rw [trapped, Arena.getElem?_loadWords _ _ (show j < trapWords from Nat.lt_succ_of_le hj),
    ← Arena.load4_markTrap_argument hsize hpos hj, UInt32.ofNat_add, ← UInt32.add_assoc]
  rfl

/-- The answer to a trap takes the slot of the call target, and no other slot is touched. -/
theorem operands_resume {x : Activation} (executed : Nat) (v : Int64) (l : Loaded)
    (status : Status) :
    let operands := (resume x.registers.frame (x.registers.operands.drop 1) executed v l
      status).registers.operands
    operands.top = x.registers.operands.top ∧ operands.first = v.toInt32.toUInt32 ∧
      ∀ k ≠ x.registers.operands.top, operands.slot k = x.registers.operands.slot k := by
  dsimp only
  rw [resume, Operands.push_drop_one]
  exact ⟨rfl, Operands.slot_setSlot_self _ _ _, fun k hk => Operands.slot_setSlot_of_ne hk _⟩

/-- **A trap, from the call instruction to the one after it.** The activation is any one of a call
in progress that is granted a call instruction with a negative target on top of its operands. Its
host is handed sixteen words: the trap number, which is minus one less the target and never
negative, and the words of the frame behind it, among them what an argument instruction has stored
there. If the host answers with a value, whatever it has asked and however often it has called back,
and the return place is what it was, the activation goes on behind the call instruction, in the same
frame, with the value in the slot that held the target and with all other slots as they were. -/
theorem run_trap {x y : Activation} {i : Option Interruption} (haccount : x.account i = (y, none))
    (hop : x.program.HasOpcode x.registers.pc .call)
    (htarget : x.registers.operands.first.toInt32 < 0) (hsize : 128 ≤ x.arena.size.toNat)
    (hlevel : x.status.callLevel ≠ 0) :
    ∃ (trap : Pending) (number : UInt32) (a : Arena) (m : Machine),
      number = returnMarker - x.registers.operands.first ∧
      number.toInt32.toInt = -1 - x.registers.operands.first.toInt32.toInt ∧
      0 ≤ number.toInt32.toInt ∧
      a = (x.arena.store4 x.registers.frame (x.registers.pc + 1)).store4 (x.registers.frame + 4)
        number ∧
      m = ⟨some ⟨x.program, a⟩, { y.status with programStack := x.registers.frame - 4 }⟩ ∧
      (∀ {σ : Type} (host : Host σ) (fuel : Nat) (s : σ), run host (fuel + 1) i x s
        = ((host trap.words s).run (Machine.call host fuel) m).bind fun (m, s, reply) =>
          match trap.resume m s reply with
          | .ok x => run host fuel i x s
          | .error e => some e) ∧
      trap.words.size = 16 ∧ trap.words[0]? = some number ∧
      (∀ j, 1 ≤ j → j ≤ 15 → trap.words[j]?
        = some (x.arena.load4 (x.registers.frame + UInt32.ofNat (4 + 4 * j)))) ∧
      (∀ (count : Int32) (r : Registers) (b : Arena) (j : Nat), 1 ≤ j → j ≤ 15 →
        r.frame = x.registers.frame → b.mask = x.arena.mask → x.program.HasOpcode r.pc .arg →
        x.program.code[(r.pc + 1).toNat]? = some (UInt32.ofNat (4 + 4 * j)) →
        ∃ r' b', step x.program count r b = .next r' b' ∧ r'.frame = r.frame ∧
          b'.load4 (r.frame + UInt32.ofNat (4 + 4 * j)) = r.operands.first ∧
          (x.arena = b' → trap.words[j]? = some r.operands.first) ∧
          ∀ k ≤ 15, k ≠ j → b'.load4 (r.frame + UInt32.ofNat (4 + 4 * k))
            = b.load4 (r.frame + UInt32.ofNat (4 + 4 * k))) ∧
      ∀ {σ : Type} (host : Host σ) (fuel : Nat) (s : σ) (m' : Machine) (s' : σ) (v : Int64),
        (host trap.words s).run (Machine.call host fuel) m = some (m', s', .value v) →
        ∃ a', m'.loaded = some ⟨x.program, a'⟩ ∧
          (a'.load4 x.registers.frame = a.load4 x.registers.frame →
            ∃ z : Activation, run host (fuel + 1) i x s = run host fuel i z s' ∧
              z.machine = m' ∧ z.executed = y.executed ∧
              z.registers.pc = x.registers.pc + 1 ∧ z.registers.frame = x.registers.frame ∧
              z.registers.operands.top = x.registers.operands.top ∧
              z.registers.operands.first = v.toInt32.toUInt32 ∧
              ∀ k ≠ x.registers.operands.top,
                z.registers.operands.slot k = x.registers.operands.slot k) := by
  have hword := fun (j : Nat) (hpos : 1 ≤ j) (hj : j ≤ 15) =>
    getElem?_words_trapped hsize i y.executed hpos hj
  refine ⟨x.trapped i y.executed, returnMarker - x.registers.operands.first, x.trapArena,
    x.trapMachine y.status, rfl, toInt_trapNumber htarget, ?_, rfl, rfl,
    run_of_call haccount hop htarget, ?_, ?_, hword, ?_, ?_⟩
  · rw [toInt_trapNumber htarget]
    have := Int32.lt_iff_toInt_lt.mp htarget
    rw [Int32.toInt_zero] at this
    omega
  · rw [trapped, ← Array.length_toList, Arena.toList_loadWords]
    simp [trapWords]
  · rw [trapped, Arena.getElem?_loadWords _ _ (show 0 < trapWords by decide), Arena.add_no_words]
    exact congrArg some (Arena.load4_store4 _ _ _)
  · intro count r b j hpos hj hframe hmask hop hoperand
    have hsize' : 128 ≤ b.size.toNat := by rwa [Arena.size, hmask]
    obtain ⟨r', b', hstep, hframe', hfirst, hothers⟩ := step_arg count hop hoperand hj hsize'
    refine ⟨r', b', hstep, hframe', hfirst, ?_, hothers⟩
    rintro rfl
    rw [hword j hpos hj, ← hframe, hfirst]
  · intro σ host fuel s m' s' v hscript
    have hlevel' : y.status.callLevel ≠ 0 := callLevel_of_account haccount ▸ hlevel
    obtain ⟨hfabric, -, -⟩ := Script.kept_run _ (m := x.trapMachine y.status) hlevel' hscript
    obtain ⟨a', hloaded, -⟩ := Machine.exists_loaded_of_fabric hfabric rfl
    refine ⟨a', hloaded, fun hkept => ?_⟩
    obtain ⟨l', status⟩ := m'
    obtain rfl : l' = some ⟨x.program, a'⟩ := hloaded
    have hpc := hkept.trans (Arena.load4_markTrap_frame hsize)
    have hoperands := x.operands_resume y.executed v ⟨x.program, a'⟩ status
    refine ⟨.resume x.registers.frame (x.registers.operands.drop 1) y.executed v
      ⟨x.program, a'⟩ status, ?_, rfl, rfl, hpc, rfl, hoperands⟩
    rw [run_of_call haccount hop htarget, hscript]
    rfl

end Activation

/-- The instruction that is executed next, if there is one: the activation, and when its caller
stops waiting. -/
def Point.executing? : Point σ → Option (Option Interruption × Activation)
  | ⟨.executing _ i x _, _⟩ => some (i, x)
  | _ => none

theorem Point.exists_of_executing? {γ : Point σ} {i : Option Interruption} {x : Activation}
    (h : γ.executing? = some (i, x)) :
    ∃ before s callers, γ = ⟨.executing before i x s, callers⟩ := by
  unfold executing? at h
  split at h
  · obtain ⟨rfl, rfl⟩ := Prod.mk.inj (Option.some.inj h)
    exact ⟨_, _, _, rfl⟩
  · contradiction

/-- The value that a script answers a trap with, and the word at an address when it does. -/
def TrapReply.value? (address : UInt32) : Machine × σ × TrapReply → Option (Int64 × UInt32)
  | (⟨some l, _⟩, _, .value v) => some (v, l.arena.load4 address)
  | _ => none

theorem TrapReply.exists_of_value? {address : UInt32} {y : Machine × σ × TrapReply} {v : Int64}
    {w : UInt32} (h : value? address y = some (v, w)) :
    ∃ l status s, y = (⟨some l, status⟩, s, .value v) ∧ l.arena.load4 address = w := by
  unfold value? at h
  split at h
  · obtain ⟨rfl, rfl⟩ := Prod.mk.inj (Option.some.inj h)
    exact ⟨_, _, _, rfl, rfl⟩
  · contradiction

namespace Activation

/-- A trap that is answered after a call back, which fails for want of instructions. -/
theorem run_trap_sample :
    ∃ (mod : Module) (before : Status) (i : Option Interruption) (x z : Activation)
      (callers : List (Caller Unit)),
      (Module.load "sample" Module.sampleImage).toOption = some mod ∧
      Point.steps Machine.insistent 2 (.start (Machine.create mod 4) () ⟨5, [1, 2], none⟩)
        = ⟨.executing before i x (), callers⟩ ∧
      run Machine.insistent 9 i x () = run Machine.insistent 8 i z () ∧
      z.registers.pc = x.registers.pc + 1 ∧ z.registers.operands.first = 0 := by
  have hcourse : (Module.load "sample" Module.sampleImage).toOption.bind (fun mod =>
      (Point.steps Machine.insistent 2
        (.start (Machine.create mod 4) () ⟨5, [1, 2], none⟩)).executing?.bind fun (i, x) =>
      ((Machine.insistent #[] ()).run (Machine.call Machine.insistent 8)
        (x.trapMachine (x.account i).1.status)).bind fun y =>
      (TrapReply.value? x.registers.frame y).map fun answer =>
        ((x.account i).2.isNone,
          x.program.code[x.registers.pc.toNat]?.map fun w => Opcode.ofByte? w.toUInt8,
          decide (x.registers.operands.first.toInt32 < 0 ∧ 128 ≤ x.arena.size.toNat ∧
            x.status.callLevel ≠ 0),
          answer.1, answer.2 == x.trapArena.load4 x.registers.frame))
      = some (true, some (some .call), true, 0, true) := by
    decide +kernel
  obtain ⟨mod, hmod, hcourse⟩ := Option.bind_eq_some_iff.mp hcourse
  obtain ⟨⟨i, x⟩, hx, hcourse⟩ := Option.bind_eq_some_iff.mp hcourse
  obtain ⟨y, hy, hcourse⟩ := Option.bind_eq_some_iff.mp hcourse
  obtain ⟨⟨v, w⟩, hv, hcourse⟩ := Option.map_eq_some_iff.mp hcourse
  simp only [Prod.mk.injEq, Option.isNone_iff_eq_none, Option.map_eq_some_iff, decide_eq_true_eq,
    beq_iff_eq] at hcourse
  obtain ⟨hgranted, hop, ⟨htarget, hsize, hlevel⟩, rfl, rfl⟩ := hcourse
  obtain ⟨before, s, callers, hn⟩ := Point.exists_of_executing? hx
  obtain ⟨l, status, s', rfl, hkept⟩ := TrapReply.exists_of_value? hv
  obtain ⟨trap, number, a, m, rfl, -, -, rfl, rfl, -, -, -, -, -, hanswers⟩ :=
    run_trap (i := i) (y := (x.account i).1) (Prod.ext rfl hgranted) hop htarget hsize hlevel
  obtain ⟨a', hloaded, hgoesOn⟩ := hanswers Machine.insistent 8 () _ s' 0 hy
  obtain rfl : l = ⟨x.program, a'⟩ := Option.some.inj hloaded
  obtain ⟨z, hz, -, -, hpc, -, -, hfirst, -⟩ := hgoesOn hkept
  exact ⟨mod, before, i, x, z, callers, hmod, hn, hz, hpc, hfirst⟩

end Activation

end BytecodeHost
