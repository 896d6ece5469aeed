import Mathlib.Algebra.Order.BigOperators.Group.List
import Mathlib.Data.List.Forall2
import BytecodeHost.Proofs.Image.Fixups
import BytecodeHost.Proofs.Image.Format
import BytecodeHost.Proofs.Image.Header

/-!
# Assembling and loading

An assembler is told what to write directive by directive; a loader finds instructions in bytes. For
directives that are used as they are meant to be, the second undoes the first: the image can be
loaded, and the stream of the loaded program has one instruction for each directive that emits one,
with the operand that the directive asked for.

Where a label ends up is said without the assembler. It stands at the number of instructions before
its last placement, whether that comes before or after its uses.

## Main definitions

* `Directive.instructions`, `Directive.Places` — the directives that emit instructions, and the
  index that a label ends up with
* `Directive.Proper`, `Directive.WellUsed` — how directives are meant to be used
* `Directive.Denotes` — the instruction that a directive asks for

## Main results

* `Assembler.position_of_places` — the assembler knows the index of a placed label
* `Assembler.exists_code` — the code section has the instructions that were asked for
* `Assembler.load_assembled` — assembling and loading gives back the program
-/

namespace BytecodeHost

/-! ## Directives -/

namespace Directive

/-- Whether a directive emits an instruction. -/
def isInstruction : Directive → Bool
  | op _ | imm .. | arg _ | branch .. | constLabel _ | trap _ => true
  | label _ | data _ | string _ | reserve _ => false

/-- The directives that emit instructions. -/
def instructions (ds : List Directive) : List Directive :=
  ds.filter isInstruction

/-- A label ends up with an index: the number of instructions before its last placement. -/
def Places (ds : List Directive) (name : String) (k : Nat) : Prop :=
  ∃ before after, ds = before ++ label name :: after ∧ label name ∉ after ∧
    k = (instructions before).length

/-- The bytes that a directive reserves. -/
def reserved : Directive → Int32
  | reserve size => size
  | _ => 0

/-- A directive is used as it is meant to be, among directives `ds`. -/
inductive Proper (ds : List Directive) : Directive → Prop where
  | label (name : String) : Proper ds (.label name)
  /-- The opcode has no immediate. -/
  | op {op : Opcode} (hwidth : op.immediateWidth = 0) : Proper ds (.op op.toByte)
  /-- The opcode has an immediate of four bytes, and a branch has a target. -/
  | imm {op : Opcode} {value : Int32} (hwidth : op.immediateWidth = 4)
    (htarget : op.isBranch = true → 0 ≤ value.toInt ∧ value.toInt ≤ (instructions ds).length) :
    Proper ds (.imm op.toByte value)
  | arg (offset : UInt8) : Proper ds (.arg offset)
  /-- The opcode has an immediate of four bytes, and the label is placed somewhere. -/
  | branch {op : Opcode} {name : String} {k : Nat} (hwidth : op.immediateWidth = 4)
    (hplace : Places ds name k) : Proper ds (.branch op.toByte name)
  /-- The label is placed somewhere. -/
  | constLabel {name : String} {k : Nat} (hplace : Places ds name k) : Proper ds (.constLabel name)
  | trap (number : Int32) : Proper ds (.trap number)
  | data (words : List Int32) : Proper ds (.data words)
  | string (bytes : ByteArray) : Proper ds (.string bytes)
  /-- The size is not negative. -/
  | reserve {size : Int32} (hsize : 0 ≤ size.toInt) : Proper ds (.reserve size)

/-- Directives are used as they are meant to be: each by itself, there is an instruction, and the
reserved bytes leave room for the program stack. -/
structure WellUsed (ds : List Directive) : Prop where
  /-- Every directive is proper. -/
  proper : ∀ d ∈ ds, Proper ds d
  /-- There is an instruction. -/
  nonempty : 0 < (instructions ds).length
  /-- The bss segment is not too long. -/
  reserved_le : (ds.map fun d => d.reserved.toInt).sum + 64 * 2 ^ 10 ≤ 10485760

theorem Proper.reserved_nonneg {ds : List Directive} {d : Directive} (h : Proper ds d) :
    0 ≤ d.reserved.toInt := by
  cases h with
  | reserve h => exact h
  | _ => exact Int.le_refl 0

theorem sum_reserved_nonneg {ds : List Directive} (h : ∀ d ∈ ds, 0 ≤ d.reserved.toInt) :
    0 ≤ (ds.map fun d => d.reserved.toInt).sum := by
  refine List.sum_nonneg fun x hx => ?_
  obtain ⟨d, hd, rfl⟩ := List.mem_map.mp hx
  exact h d hd

theorem reserved_of_isInstruction {d : Directive} (h : d.isInstruction = true) :
    d.reserved = 0 := by
  cases d with
  | label | data | string | reserve => contradiction
  | _ => rfl

theorem sum_reserved_eq_zero {ds : List Directive} (h : ∀ d ∈ ds, d.reserved = 0) :
    (ds.map fun d => d.reserved.toInt).sum = 0 := by
  refine List.sum_eq_zero fun x hx => ?_
  obtain ⟨d, hd, rfl⟩ := List.mem_map.mp hx
  rw [h d hd, Int32.toInt_zero]

/-- Proper directives are well used if all of them emit instructions. -/
theorem WellUsed.of_isInstruction {ds : List Directive} (hnonempty : ds ≠ [])
    (hproper : ∀ d ∈ ds, Proper ds d) (hds : ∀ d ∈ ds, d.isInstruction = true) : WellUsed ds where
  proper := hproper
  nonempty := by
    rw [instructions, List.filter_eq_self.mpr hds]
    exact List.length_pos_iff.mpr hnonempty
  reserved_le := by
    rw [sum_reserved_eq_zero fun d hd => reserved_of_isInstruction (hds d hd)]
    decide

/-- The instruction that a directive asks for, with the index of a label as its operand. -/
inductive Denotes (ds : List Directive) : Directive → Instruction → Prop where
  | op {op : Opcode} : Denotes ds (.op op.toByte) ⟨op, 0⟩
  | imm {op : Opcode} {value : Int32} : Denotes ds (.imm op.toByte value) ⟨op, value.toUInt32⟩
  | arg {offset : UInt8} : Denotes ds (.arg offset) ⟨.arg, offset.toUInt32⟩
  | branch {op : Opcode} {name : String} {k : Nat} (hplace : Places ds name k) :
    Denotes ds (.branch op.toByte name) ⟨op, UInt32.ofNat k⟩
  | constLabel {name : String} {k : Nat} (hplace : Places ds name k) :
    Denotes ds (.constLabel name) ⟨.constant, UInt32.ofNat k⟩
  | trap {number : Int32} : Denotes ds (.trap number) ⟨.constant, (-1 - number).toUInt32⟩

/-- What the assembler notes for a directive. -/
def item? : Directive → Option Item
  | op opcode => some (.plain opcode)
  | imm opcode value => some (.word opcode value.toUInt32)
  | arg offset => some (.byte Opcode.arg.toByte offset)
  | branch opcode name => some (.reference opcode name)
  | constLabel name => some (.reference Opcode.constant.toByte name)
  | trap number => some (.word Opcode.constant.toByte (-1 - number).toUInt32)
  | label _ | data _ | string _ | reserve _ => none

theorem filterMap_item?_instructions (ds : List Directive) :
    (instructions ds).filterMap item? = ds.filterMap item? := by
  induction ds with
  | nil => rfl
  | cons d ds ih =>
    cases d <;>
      simpa [instructions, isInstruction, item?, List.filter_cons, List.filterMap_cons] using ih

theorem length_filterMap_item? (ds : List Directive) :
    (ds.filterMap item?).length = (instructions ds).length := by
  induction ds with
  | nil => rfl
  | cons d ds ih =>
    cases d <;>
      simpa [instructions, isInstruction, item?, List.filter_cons, List.filterMap_cons] using ih

/-- No label is behind the last instruction. -/
theorem Places.le {ds : List Directive} {name : String} {k : Nat} (h : Places ds name k) :
    k ≤ (instructions ds).length := by
  obtain ⟨before, after, rfl, -, rfl⟩ := h
  simp [instructions]

/-- A label ends up with one index. -/
theorem Places.unique {ds : List Directive} {name : String} {k l : Nat} (hk : Places ds name k)
    (hl : Places ds name l) : k = l := by
  obtain ⟨before, after, rfl, hafter, rfl⟩ := hk
  obtain ⟨before', after', heq, hafter', rfl⟩ := hl
  obtain ⟨between, rfl, hrest⟩ | ⟨between, rfl, hrest⟩ := List.append_eq_append_iff.mp heq
  · cases between with
    | nil => simp
    | cons d between =>
      obtain ⟨-, rfl⟩ := List.cons.inj hrest
      exact absurd (List.mem_append_right between (.head after')) hafter
  · cases between with
    | nil => simp
    | cons d between =>
      obtain ⟨-, rfl⟩ := List.cons.inj hrest
      exact absurd (List.mem_append_right between (.head after)) hafter'

/-- **A directive asks for one instruction.** -/
theorem Denotes.unique {ds : List Directive} {d : Directive} {i j : Instruction}
    (hi : Denotes ds d i) (hj : Denotes ds d j) : i = j := by
  have hop : ∀ {op op' : Opcode}, op.toByte = op'.toByte → op = op' := by
    intro op op' h
    have hof := congrArg Opcode.ofByte? h
    rwa [Opcode.ofByte?_toByte, Opcode.ofByte?_toByte, Option.some_inj] at hof
  generalize hd : d = d' at hj
  -- only directives of one kind are equal
  cases hi <;> cases hj <;> simp only [reduceCtorEq, Directive.op.injEq, Directive.imm.injEq,
    Directive.arg.injEq, Directive.branch.injEq, Directive.constLabel.injEq,
    Directive.trap.injEq] at hd
  case op.op =>
    rw [hop hd]
  case imm.imm =>
    rw [hop hd.1, hd.2]
  case arg.arg =>
    rw [hd]
  case branch.branch hk _ _ _ hl =>
    obtain ⟨hd, rfl⟩ := hd
    rw [hop hd, hk.unique hl]
  case constLabel.constLabel hk _ _ hl =>
    subst hd
    rw [hk.unique hl]
  case trap.trap =>
    rw [hd]

/-- Directives ask for one list of instructions. -/
theorem Denotes.forall₂_unique {ds es : List Directive} {I J : List Instruction}
    (hI : List.Forall₂ (Denotes ds) es I) (hJ : List.Forall₂ (Denotes ds) es J) : I = J :=
  List.right_unique_forall₂' (fun _ _ _ hi hj => hi.unique hj) hI hJ

end Directive

/-! ## What directives leave behind -/

namespace Assembler

open Directive

theorem reserveNull_cases (a : Assembler) :
    a.reserveNull.items = a.items ∧ a.reserveNull.labels = a.labels ∧
      a.reserveNull.bss = a.bss := by
  rw [reserveNull]
  split <;> exact ⟨rfl, rfl, rfl⟩

/-- What one directive does to instructions, labels and reserved bytes. -/
theorem emit_cases {a b : Assembler} {d : Directive} {r : Option Int32}
    (h : a.emit d = .ok (b, r)) :
    b.items.toList = a.items.toList ++ d.item?.toList ∧ b.bss = a.bss + d.reserved ∧
      ∀ name, (d = .label name ∧ b.position? name = some a.count) ∨
        (d ≠ .label name ∧ b.position? name = a.position? name) := by
  obtain ⟨hitems, hlabels, hbss⟩ := a.reserveNull_cases
  cases d with
  | label name =>
    obtain ⟨rfl, -⟩ := Prod.mk.inj (Except.ok.inj h)
    refine ⟨by simp [item?], by simp [reserved], fun name' => ?_⟩
    by_cases hname : name = name'
    · subst hname
      exact .inl ⟨rfl, by simp [position?]⟩
    · have hne : (name' == name) = false := by simpa using Ne.symm hname
      exact .inr ⟨by simpa using hname, by simp [position?, hne, List.lookup_cons]⟩
  | op | imm | arg | branch | constLabel | trap =>
    obtain ⟨rfl, -⟩ := Prod.mk.inj (Except.ok.inj h)
    exact ⟨by simp [push, item?], by simp [push, reserved], by simp [push, position?]⟩
  | data words =>
    rw [emit] at h
    split at h
    · contradiction
    · obtain ⟨rfl, -⟩ := Prod.mk.inj (Except.ok.inj h)
      exact ⟨by simp [hitems, item?], by simp [hbss, reserved], by simp [position?, hlabels]⟩
  | string bytes =>
    rw [emit] at h
    split at h
    · contradiction
    · obtain ⟨rfl, -⟩ := Prod.mk.inj (Except.ok.inj h)
      exact ⟨by simp [hitems, item?], by simp [hbss, reserved], by simp [position?, hlabels]⟩
  | reserve size =>
    obtain ⟨rfl, -⟩ := Prod.mk.inj (Except.ok.inj h)
    exact ⟨by simp [hitems, item?], by simp [hbss, reserved], by simp [position?, hlabels]⟩

theorem emitAll_cons {a b : Assembler} {d : Directive} {ds : List Directive}
    (h : a.emitAll (d :: ds) = .ok b) : ∃ c r, a.emit d = .ok (c, r) ∧ c.emitAll ds = .ok b := by
  rw [emitAll] at h
  split at h
  · rename_i c r hemit
    exact ⟨c, r, hemit, h⟩
  · contradiction

theorem emitAll_append {a b : Assembler} {ds es : List Directive}
    (h : a.emitAll (ds ++ es) = .ok b) : ∃ c, a.emitAll ds = .ok c ∧ c.emitAll es = .ok b := by
  induction ds generalizing a with
  | nil => exact ⟨a, rfl, h⟩
  | cons d ds ih =>
    obtain ⟨c, r, hemit, hrest⟩ := emitAll_cons h
    obtain ⟨c', hds, hes⟩ := ih hrest
    exact ⟨c', by rw [emitAll, hemit]; exact hds, hes⟩

theorem emitAll_append_of_emitAll {a b : Assembler} {ds : List Directive} (h : a.emitAll ds = .ok b)
    (es : List Directive) : a.emitAll (ds ++ es) = b.emitAll es := by
  induction ds generalizing a with
  | nil =>
    obtain rfl := Except.ok.inj h
    rfl
  | cons d ds ih =>
    obtain ⟨c, r, hemit, hrest⟩ := emitAll_cons h
    rw [List.cons_append, emitAll, hemit]
    exact ih hrest

/-- Literals are placed as long as nothing is reserved. -/
theorem exists_emitAll_string {a : Assembler} (hbss : a.bss = 0) (strings : List ByteArray) :
    ∃ b, a.emitAll (strings.map .string) = .ok b := by
  induction strings generalizing a with
  | nil => exact ⟨a, rfl⟩
  | cons bytes strings ih =>
    obtain ⟨-, -, hbss'⟩ := a.reserveNull_cases
    obtain ⟨b, hb⟩ :=
      ih (a := { a.reserveNull with lit := (a.reserveNull.lit ++ bytes).push 0 }) (hbss'.trans hbss)
    refine ⟨b, ?_⟩
    rw [List.map_cons, emitAll, emit, hbss, if_neg (by decide)]
    exact hb

/-- Only placements are refused. -/
theorem exists_emitAll (a : Assembler) {ds : List Directive}
    (hds : ∀ d ∈ ds, d.isInstruction = true) : ∃ b, a.emitAll ds = .ok b := by
  induction ds generalizing a with
  | nil => exact ⟨a, rfl⟩
  | cons d ds ih =>
    have hd := hds d (.head ds)
    have hemit : ∃ c r, a.emit d = .ok (c, r) := by
      cases d with
      | label | data | string | reserve => contradiction
      | _ => exact ⟨_, _, rfl⟩
    obtain ⟨c, r, hemit⟩ := hemit
    obtain ⟨b, hb⟩ := ih c fun e he => hds e (.tail d he)
    exact ⟨b, by rw [emitAll, hemit]; exact hb⟩

theorem items_emitAll {a b : Assembler} {ds : List Directive} (h : a.emitAll ds = .ok b) :
    b.items.toList = a.items.toList ++ ds.filterMap item? := by
  induction ds generalizing a with
  | nil =>
    obtain rfl := Except.ok.inj h
    simp
  | cons d ds ih =>
    obtain ⟨c, r, hemit, hrest⟩ := emitAll_cons h
    obtain ⟨hitems, -, -⟩ := emit_cases hemit
    rw [ih hrest, hitems, List.append_assoc]
    cases hitem : d.item? with
    | none => rw [List.filterMap_cons_none hitem]; rfl
    | some item => rw [List.filterMap_cons_some hitem]; rfl

theorem size_items_emitAll {b : Assembler} {ds : List Directive}
    (h : ({} : Assembler).emitAll ds = .ok b) : b.items.size = (instructions ds).length := by
  rw [← Array.length_toList, items_emitAll h, ← length_filterMap_item?]
  simp

/-- A label that is not placed again stays where it is. -/
theorem position_emitAll {a b : Assembler} {ds : List Directive} {name : String}
    (h : a.emitAll ds = .ok b) (hname : Directive.label name ∉ ds) :
    b.position? name = a.position? name := by
  induction ds generalizing a with
  | nil =>
    obtain rfl := Except.ok.inj h
    rfl
  | cons d ds ih =>
    obtain ⟨c, r, hemit, hrest⟩ := emitAll_cons h
    obtain ⟨-, -, hposition⟩ := emit_cases hemit
    rw [ih hrest fun hmem => hname (.tail d hmem)]
    obtain ⟨rfl, -⟩ | ⟨-, hkept⟩ := hposition name
    · exact absurd (.head ds) hname
    · exact hkept

/-- **The assembler knows the index of every label that is placed.** -/
theorem position_of_places {a : Assembler} {ds : List Directive} {name : String} {k : Nat}
    (h : ({} : Assembler).emitAll ds = .ok a) (hplace : Places ds name k) :
    a.position? name = some (Int32.ofNat k) := by
  obtain ⟨before, after, rfl, hafter, rfl⟩ := hplace
  obtain ⟨b, hbefore, hrest⟩ := emitAll_append h
  obtain ⟨c, r, hemit, hlast⟩ := emitAll_cons hrest
  obtain ⟨-, -, hposition⟩ := emit_cases hemit
  obtain ⟨-, hplaced⟩ | ⟨hne, -⟩ := hposition name
  · rw [position_emitAll hlast hafter, hplaced, count, size_items_emitAll hbefore]
  · exact absurd rfl hne

/-- Reserved bytes add up. -/
theorem bss_emitAll {a b : Assembler} {ds : List Directive} (h : a.emitAll ds = .ok b)
    (hnonneg : ∀ d ∈ ds, 0 ≤ d.reserved.toInt) (ha : 0 ≤ a.bss.toInt)
    (hsum : a.bss.toInt + (ds.map fun d => d.reserved.toInt).sum < 2 ^ 31) :
    b.bss.toInt = a.bss.toInt + (ds.map fun d => d.reserved.toInt).sum := by
  induction ds generalizing a with
  | nil =>
    obtain rfl := Except.ok.inj h
    simp
  | cons d ds ih =>
    obtain ⟨c, r, hemit, hrest⟩ := emitAll_cons h
    obtain ⟨-, hbss, -⟩ := emit_cases hemit
    have hd := hnonneg d (.head ds)
    have htail := sum_reserved_nonneg fun e he => hnonneg e (.tail d he)
    rw [List.map_cons, List.sum_cons] at hsum ⊢
    have hc : c.bss.toInt = a.bss.toInt + d.reserved.toInt := by
      rw [hbss, Bytes.toInt_add_of_lt (by omega) (by omega)]
    rw [ih hrest (fun e he => hnonneg e (.tail d he)) (by omega) (by omega), hc, Int.add_assoc]

end Assembler

/-! ## The code section -/

namespace Directive

/-- A proper directive that emits an instruction denotes one, and the assembler writes its bytes. -/
theorem Proper.exists_denotes {ds : List Directive} {d : Directive} {a : Assembler}
    (h : Proper ds d) (hd : d.isInstruction = true) (ha : ({} : Assembler).emitAll ds = .ok a) :
    ∃ i item, Denotes ds d i ∧ d.item? = some item ∧ i.Encodable ∧
      ((instructions ds).length < 2 ^ 31 → i.HasTarget (instructions ds).length) ∧
      ∀ code, ∃ code', a.encodeItem code item = .ok code' ∧
        Bytes.toBytes code' = Bytes.toBytes code ++ i.bytes := by
  -- four bytes hold any operand
  have encodable : ∀ {op : Opcode} {w : UInt32}, op.immediateWidth = 4 →
      (⟨op, w⟩ : Instruction).Encodable := by
    intro op w hwidth
    rw [Instruction.Encodable, hwidth]
    exact w.toNat_lt
  have written : ∀ {op : Opcode} {w : UInt32} (code : ByteArray), op.immediateWidth = 4 →
      Bytes.toBytes (Bytes.pushWord (code.push op.toByte) w)
        = Bytes.toBytes code ++ (⟨op, w⟩ : Instruction).bytes := by
    intro op w code hwidth
    simp [Instruction.bytes, Instruction.immediate, hwidth]
  -- an instruction whose operand is the index of a label
  have reference : ∀ {op : Opcode} {name : String} {k : Nat}, op.immediateWidth = 4 →
      Places ds name k →
      ((instructions ds).length < 2 ^ 31 →
        (⟨op, UInt32.ofNat k⟩ : Instruction).HasTarget (instructions ds).length) ∧
      ∀ code, ∃ code', a.encodeItem code (.reference op.toByte name) = .ok code' ∧
        Bytes.toBytes code' = Bytes.toBytes code ++ (⟨op, UInt32.ofNat k⟩ : Instruction).bytes := by
    intro op name k hwidth hplace
    refine ⟨fun hlen _ => ?_, fun code => ⟨_, ?_, written code hwidth⟩⟩
    · have hle := hplace.le
      have hk : (UInt32.ofNat k).toNat = k := by
        rw [UInt32.toNat_ofNat']
        exact Nat.mod_eq_of_lt (by omega)
      rw [Bytes.toInt_toInt32, hk, if_pos (by omega)]
      omega
    · simp only [Assembler.encodeItem, Assembler.position_of_places ha hplace]
      rfl
  cases h with
  | label | data | string | reserve => contradiction
  | @op op hwidth =>
    refine ⟨_, _, .op, rfl, ?_, fun _ hb => ?_, fun code => ⟨_, rfl, ?_⟩⟩
    · rw [Instruction.Encodable, hwidth]
      exact Nat.zero_lt_one
    · rw [Opcode.immediateWidth_of_isBranch hb] at hwidth
      contradiction
    · simp [Instruction.bytes, Instruction.immediate, hwidth]
  | @imm op value hwidth htarget =>
    refine ⟨_, _, .imm, rfl, encodable hwidth, fun _ hb => ?_, fun code => ⟨_, rfl, ?_⟩⟩
    · rw [Int32.toInt32_toUInt32]
      exact htarget hb
    · exact written code hwidth
  | arg offset =>
    refine ⟨_, _, .arg, rfl, ?_, fun _ hb => ?_, fun code => ⟨_, rfl, ?_⟩⟩
    · have := offset.toNat_lt
      rw [Instruction.Encodable, UInt8.toNat_toUInt32]
      exact this
    · contradiction
    · simp [Instruction.bytes, Instruction.immediate, Opcode.immediateWidth]
  | branch hwidth hplace =>
    exact ⟨_, _, .branch hplace, rfl, encodable hwidth, reference hwidth hplace⟩
  | constLabel hplace =>
    exact ⟨_, _, .constLabel hplace, rfl, encodable rfl, reference rfl hplace⟩
  | trap number =>
    refine ⟨_, _, .trap, rfl, encodable rfl, fun _ hb => ?_, fun code => ⟨_, rfl, ?_⟩⟩
    · contradiction
    · exact written code rfl

end Directive

namespace Assembler

open Directive

/-- Appending proper directives one by one. -/
theorem exists_foldl_append {ds es : List Directive} {a : Assembler}
    (ha : ({} : Assembler).emitAll ds = .ok a)
    (hes : ∀ d ∈ es, d.isInstruction = true ∧ Proper ds d) (code : ByteArray) :
    ∃ I, List.Forall₂ (Denotes ds) es I ∧ (∀ i ∈ I, i.Encodable) ∧
      ((instructions ds).length < 2 ^ 31 → ∀ i ∈ I, i.HasTarget (instructions ds).length) ∧
      ∃ code', (es.filterMap item?).foldl a.append (.ok code) = .ok code' ∧
        Bytes.toBytes code' = Bytes.toBytes code ++ I.flatMap Instruction.bytes := by
  induction es generalizing code with
  | nil => exact ⟨[], .nil, by simp, by simp, code, rfl, by simp⟩
  | cons d es ih =>
    obtain ⟨hd, hproper⟩ := hes d (.head es)
    obtain ⟨i, item, hdenotes, hitem, henc, htarget, hwrite⟩ := hproper.exists_denotes hd ha
    obtain ⟨code₁, hcode₁, hbytes₁⟩ := hwrite code
    obtain ⟨I, hI, hencI, htargetI, code₂, hcode₂, hbytes₂⟩ :=
      ih (fun e he => hes e (.tail d he)) code₁
    have happend : a.append (.ok code) item = .ok code₁ := hcode₁
    refine ⟨i :: I, .cons hdenotes hI, by simpa using ⟨henc, hencI⟩, fun hlen => ?_, code₂, ?_, ?_⟩
    · simpa using ⟨htarget hlen, htargetI hlen⟩
    · rw [List.filterMap_cons_some hitem, List.foldl_cons, happend, hcode₂]
    · rw [hbytes₂, hbytes₁, List.flatMap_cons, List.append_assoc]

/-- **The code section has the instructions that were asked for.** -/
theorem exists_code {ds : List Directive} {a : Assembler} (hds : ∀ d ∈ ds, Proper ds d)
    (ha : ({} : Assembler).emitAll ds = .ok a) :
    ∃ I code, List.Forall₂ (Denotes ds) (instructions ds) I ∧ (∀ i ∈ I, i.Encodable) ∧
      ((instructions ds).length < 2 ^ 31 → ∀ i ∈ I, i.HasTarget (instructions ds).length) ∧
      a.code = .ok code ∧ Bytes.toBytes code = I.flatMap Instruction.bytes := by
  have hes : ∀ d ∈ instructions ds, d.isInstruction = true ∧ Proper ds d := by
    intro d hd
    obtain ⟨hmem, hd⟩ := List.mem_filter.mp hd
    exact ⟨hd, hds d hmem⟩
  obtain ⟨I, hI, henc, htarget, code, hcode, hbytes⟩ := exists_foldl_append ha hes .empty
  refine ⟨I, code, hI, henc, htarget, ?_, hbytes⟩
  rw [code_eq_foldl, items_emitAll ha, ← filterMap_item?_instructions, ← hcode]
  simp

/-- The data section starts behind the code. -/
theorem toInt_dataOffset {codeSize : Nat} (hcode : codeSize ≤ 4 * 2 ^ 20) :
    (Int32.ofNat Header.byteSize + Int32.ofNat codeSize).toInt = 32 + codeSize := by
  have hlength : (Int32.ofNat codeSize).toInt = codeSize := Int32.toInt_ofNat_of_lt (by omega)
  have hoffset : (Int32.ofNat Header.byteSize).toInt = 32 := rfl
  rw [Bytes.toInt_add_of_lt (by omega) (by omega), hoffset, hlength]

/-- The bss segment has room for the program stack. -/
theorem toInt_add_stackReserve {bss : Int32} (hbss : 0 ≤ bss.toInt)
    (hbss' : bss.toInt + 64 * 2 ^ 10 ≤ 10485760) :
    (bss + stackReserve).toInt = bss.toInt + 64 * 2 ^ 10 := by
  have hstack : stackReserve.toInt = 64 * 2 ^ 10 := by decide
  rw [Bytes.toInt_add_of_lt (by omega) (by omega), hstack]

theorem decode_assembled {a : Assembler} {code image : ByteArray}
    (himage : (a.header (Int32.ofNat code.size)).encode ++ code ++ a.data ++ a.lit = image) :
    Header.decode image = a.header (Int32.ofNat code.size) := by
  rw [← himage, ByteArray.append_assoc, ByteArray.append_assoc, Header.decode_encode_append]

/-- The fields of an assembled header are the sizes of what was assembled. -/
theorem acceptable_header {a : Assembler} {codeSize : Nat} (hitems : 0 < a.items.size)
    (hcode : a.items.size ≤ codeSize) (hbss : 0 ≤ a.bss.toInt)
    (hbss' : a.bss.toInt + 64 * 2 ^ 10 ≤ 10485760)
    (hsize : 32 + codeSize + a.data.size + a.lit.size ≤ 4 * 2 ^ 20) :
    (a.header (Int32.ofNat codeSize)).Acceptable (32 + codeSize + a.data.size + a.lit.size) ∧
      (a.header (Int32.ofNat codeSize)).instructionCount.toInt = a.items.size ∧
      (a.header (Int32.ofNat codeSize)).codeOffset.toInt = 32 ∧
      (a.header (Int32.ofNat codeSize)).codeLength.toInt = codeSize := by
  have toInt : ∀ {n : Nat}, n ≤ 4 * 2 ^ 20 → (Int32.ofNat n).toInt = n := fun hn =>
    Int32.toInt_ofNat_of_lt (by omega)
  have hcount : (Int32.ofNat a.items.size).toInt = a.items.size := toInt (by omega)
  have hlength : (Int32.ofNat codeSize).toInt = codeSize := toInt (by omega)
  have hdata : (Int32.ofNat a.data.size).toInt = a.data.size := toInt (by omega)
  have hlit : (Int32.ofNat a.lit.size).toInt = a.lit.size := toInt (by omega)
  have hoffset : (Int32.ofNat Header.byteSize).toInt = 32 := rfl
  have hdataOffset := toInt_dataOffset (show codeSize ≤ 4 * 2 ^ 20 by omega)
  have hreserve := toInt_add_stackReserve hbss hbss'
  have hacceptable :
      (a.header (Int32.ofNat codeSize)).Acceptable (32 + codeSize + a.data.size + a.lit.size) :=
    { instructionCount := by rw [header, count, hcount]; omega
      codeOffset := by rw [header, hoffset]; decide
      codeLength := by rw [header, hlength]; omega
      dataOffset := by rw [header, hdataOffset]; omega
      dataLength := by rw [header, hdata]; omega
      litLength := by rw [header, hlit]; omega
      bssLength := by rw [header, hreserve]; exact Int.add_nonneg hbss (by decide)
      bssLength_le := by rw [header, hreserve]; exact hbss'
      code_le := by rw [header, hoffset, hlength]; omega
      data_le := by rw [header, hdataOffset, hdata, hlit]; omega }
  exact ⟨hacceptable, hcount, hoffset, hlength⟩

/-- The header of an assembled image fits, and the code section is the code. -/
theorem fits_assembled {a : Assembler} {code : ByteArray} (hitems : 0 < a.items.size)
    (hcode : a.items.size ≤ code.size) (hbss : 0 ≤ a.bss.toInt)
    (hbss' : a.bss.toInt + 64 * 2 ^ 10 ≤ 10485760) {image : ByteArray}
    (himage : (a.header (Int32.ofNat code.size)).encode ++ code ++ a.data ++ a.lit = image)
    (hsize : image.size ≤ 4 * 2 ^ 20) :
    Header.Fits image ∧ (Header.decode image).instructionCount.toInt = a.items.size ∧
      (Header.decode image).codeSection image = Bytes.toBytes code := by
  have hsum : image.size = 32 + code.size + a.data.size + a.lit.size := by simp [← himage]
  rw [hsum] at hsize
  obtain ⟨hacceptable, hcount, hoffset, hlength⟩ := acceptable_header hitems hcode hbss hbss' hsize
  have hdecode := decode_assembled himage
  refine ⟨⟨by omega, by omega, by rw [hdecode]; rfl, ?_⟩, by rw [hdecode, hcount], ?_⟩
  · rw [hdecode, hsum]
    exact hacceptable
  · rw [hdecode, Header.codeSection, hoffset, hlength, ← himage, Bytes.toBytes_append,
      Bytes.toBytes_append, Bytes.toBytes_append, List.append_assoc, List.append_assoc]
    rw [List.drop_left' (by simp), List.take_left' (by simp)]

/-- The reserved bytes of well used directives add up to what the bss segment has room for. -/
theorem bss_of_wellUsed {ds : List Directive} {a : Assembler} (hds : WellUsed ds)
    (ha : ({} : Assembler).emitAll ds = .ok a) :
    0 ≤ a.bss.toInt ∧ a.bss.toInt + 64 * 2 ^ 10 ≤ 10485760 := by
  have hreserved : ∀ d ∈ ds, 0 ≤ d.reserved.toInt := fun d hd => (hds.proper d hd).reserved_nonneg
  have hnonneg := sum_reserved_nonneg hreserved
  have hle := hds.reserved_le
  have hzero : ({} : Assembler).bss.toInt = 0 := rfl
  have hbss := bss_emitAll ha hreserved (Int.le_refl 0) (by omega)
  omega

/-- **What well used directives assemble to is a module**, with the program that they denote. -/
theorem exists_linked {ds : List Directive} {a : Assembler} (hds : WellUsed ds)
    (ha : ({} : Assembler).emitAll ds = .ok a) :
    ∃ I image, List.Forall₂ (Denotes ds) (instructions ds) I ∧ a.image = .ok image ∧
      (image.size ≤ 4 * 2 ^ 20 → ∀ name, ∃ m, Module.load name image = .ok m ∧
        m.header.instructionCount.toInt = I.length ∧ m.program.Linked I) := by
  obtain ⟨I, code, hI, henc, htarget, hcode, hbytes⟩ := exists_code hds.proper ha
  have hlen : (instructions ds).length = I.length := hI.length_eq
  have hitems : a.items.size = I.length := by rw [size_items_emitAll ha, hlen]
  have hnonempty := hds.nonempty
  have hwide : a.items.size ≤ code.size := by
    have h := Instruction.length_le_length_flatMap_bytes I
    rwa [← hbytes, Bytes.length_toBytes, ← hitems] at h
  obtain ⟨hbss, hbss'⟩ := bss_of_wellUsed hds ha
  refine ⟨I, _, hI, by rw [image, hcode], fun hsize name => ?_⟩
  obtain ⟨hfits, hcount, hsection⟩ := fits_assembled (by omega) hwide hbss hbss' rfl hsize
  have hcodeSize : code.size ≤ 4 * 2 ^ 20 := by
    simp only [ByteArray.size_append] at hsize
    omega
  have htargets : ∀ i ∈ I, i.HasTarget I.length := by
    rw [← hlen]
    exact htarget (by omega)
  obtain ⟨m, hm, hheader, hlinked⟩ := Module.load_of_code name hfits (by rw [hcount, hitems]) henc
    ⟨[], by rw [List.append_nil, hsection, hbytes]⟩ htargets
  exact ⟨m, hm, by rw [hheader, hcount, hitems], hlinked⟩

/-- **Assembling and loading gives back the program.** Take directives that are used as they are
meant to be and are placed in an allowed order. They assemble, also if labels are filled in
afterwards by offset. If the image is not too long, it can be loaded; the program has one
instruction for each directive that emits one; and at the place of an instruction stand the opcode
and the operand that its directive asked for, the operand of a branch being the place of the
index. -/
theorem load_assembled {ds : List Directive} {a : Assembler} (hds : WellUsed ds)
    (ha : ({} : Assembler).emitAll ds = .ok a) (name : String) :
    ∃ image, a.image = .ok image ∧ Checked.image a = .ok (.ok image) ∧
      (image.size ≤ 4 * 2 ^ 20 →
        ∃ m, Module.load name image = .ok m ∧
          m.header.instructionCount.toInt = (instructions ds).length ∧
          m.program.offsets.size = (instructions ds).length + 1 ∧
          ∀ (k : Nat) (h : k < (instructions ds).length), ∃ i,
            Denotes ds (instructions ds)[k] i ∧
            m.program.code[(m.program.offset k).toNat]? = some i.op.toByte.toUInt32 ∧
            (i.op.hasImmediate = true →
              m.program.code[(m.program.offset k).toNat + 1]?
                = some (if i.op.isBranch then m.program.offset i.operand.toNat
                    else i.operand))) := by
  obtain ⟨I, image, hI, himage, hload⟩ := exists_linked hds ha
  have hlen : (instructions ds).length = I.length := hI.length_eq
  refine ⟨image, himage, by rw [Checked.image_eq_ok, himage], fun hsize => ?_⟩
  obtain ⟨m, hm, hcount, hlinked⟩ := hload hsize name
  refine ⟨m, hm, by rw [hcount, hlen], by rw [hlinked.size_offsets, hlen], fun k hk => ?_⟩
  have hk' : k < I.length := by omega
  refine ⟨I[k], hI.get hk hk', ?_, fun himm => ?_⟩
  · rw [hlinked.toNat_offset (by omega), hlinked.opcode k hk']
  · rw [hlinked.toNat_offset (by omega), hlinked.operand k hk' himm]
    rfl

/-- An image that was evaluated is as it was found to be. -/
theorem exists_image_satisfying {ds : List Directive} {q : ByteArray → Bool}
    (hok : (({} : Assembler).emitAll ds).toOption.any
      (fun a => a.image.toOption.any fun image => q image) = true) :
    ∃ a image, ({} : Assembler).emitAll ds = .ok a ∧ a.image = .ok image ∧ q image = true := by
  cases ha : ({} : Assembler).emitAll ds with
  | error e =>
    rw [ha] at hok
    contradiction
  | ok a =>
    cases himage : a.image with
    | error e =>
      rw [ha, Except.toOption, Option.any_some, himage] at hok
      contradiction
    | ok image =>
      rw [ha, Except.toOption, Option.any_some, himage] at hok
      exact ⟨a, image, rfl, himage, hok⟩

/-- An image that was evaluated is not too long. -/
theorem exists_image_of_any {ds : List Directive}
    (hok : (({} : Assembler).emitAll ds).toOption.any (fun a =>
      a.image.toOption.any fun image => image.size ≤ 4 * 2 ^ 20) = true) :
    ∃ a image, ({} : Assembler).emitAll ds = .ok a ∧ a.image = .ok image ∧
      image.size ≤ 4 * 2 ^ 20 := by
  obtain ⟨a, image, ha, himage, hsize⟩ := exists_image_satisfying hok
  exact ⟨a, image, ha, himage, of_decide_eq_true hsize⟩

/-- Directives with a placement in each segment, a label that is used before it is placed, and one
that is placed twice. -/
def sampleDirectives : List Directive :=
  [.data [7], .string "done".toUTF8, .reserve 16, .label "loop", .imm Opcode.enter.toByte 24,
   .label "loop", .imm Opcode.constant.toByte 3, .arg 8, .constLabel "end", .op Opcode.pop.toByte,
   .trap 0, .op Opcode.call.toByte, .imm Opcode.constant.toByte 0,
   .branch Opcode.ne.toByte "loop", .imm Opcode.constant.toByte 1, .imm Opcode.constant.toByte 1,
   .imm Opcode.eq.toByte 11, .label "end", .imm Opcode.leave.toByte 24]

theorem places_loop_sampleDirectives : Places sampleDirectives "loop" 1 :=
  ⟨sampleDirectives.take 5, sampleDirectives.drop 6, rfl, by simp [sampleDirectives], rfl⟩

theorem wellUsed_sampleDirectives : WellUsed sampleDirectives where
  proper := by
    have hend : Places sampleDirectives "end" 12 :=
      ⟨sampleDirectives.take 17, sampleDirectives.drop 18, rfl, by simp [sampleDirectives], rfl⟩
    exact List.forall_iff_forall_mem.mp
      ⟨.data _, .string _, .reserve (by decide), .label _, .imm rfl (by decide),
        .label _, .imm rfl (by decide), .arg _, .constLabel hend, .op rfl,
        .trap _, .op rfl, .imm rfl (by decide),
        .branch rfl places_loop_sampleDirectives, .imm rfl (by decide), .imm rfl (by decide),
        .imm rfl (by decide), .label _, .imm rfl (by decide)⟩
  nonempty := by decide
  reserved_le := by decide

theorem exists_image_sampleDirectives :
    ∃ a image, ({} : Assembler).emitAll sampleDirectives = .ok a ∧ a.image = .ok image ∧
      image.size ≤ 4 * 2 ^ 20 :=
  exists_image_of_any (by decide +kernel)

/-- The sample can be loaded, and its branch goes to where the label was placed last. -/
theorem load_assembled_sampleDirectives :
    ∃ a image m, ({} : Assembler).emitAll sampleDirectives = .ok a ∧ a.image = .ok image ∧
      Module.load "sample" image = .ok m ∧ m.header.instructionCount.toInt = 13 ∧
      m.program.offsets.size = 14 ∧
      m.program.code[(m.program.offset 8).toNat + 1]? = some (m.program.offset 1) := by
  obtain ⟨a, image, ha, himage, hsize⟩ := exists_image_sampleDirectives
  obtain ⟨image', himage', -, hload⟩ := load_assembled wellUsed_sampleDirectives ha "sample"
  obtain rfl : image = image' := Except.ok.inj (himage.symm.trans himage')
  obtain ⟨m, hm, hcount, hoffsets, hprogram⟩ := hload hsize
  obtain ⟨i, hi, -, hoperand⟩ := hprogram 8 (by decide)
  obtain rfl : i = ⟨.ne, 1⟩ := hi.unique (.branch places_loop_sampleDirectives)
  exact ⟨a, image, m, ha, himage, hm, hcount, hoffsets, hoperand rfl⟩

end Assembler

end BytecodeHost
