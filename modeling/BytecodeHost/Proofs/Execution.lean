import Mathlib.Data.List.Forall2
import BytecodeHost.Execution
import BytecodeHost.Proofs.Machine.Pairing

/-!
# Calls with the standard traps

A standard trap depends on the arena, on its own arguments and on where output goes. The one
exception is the clock, which two calls at different times read differently. Calls that leave the
clock alone therefore print the same and come to the same, whatever was printed before, if the
buffers keep everything.

## Main definitions

* `Machine.Indistinct` — machines that standard traps cannot tell apart
* `OutputBuffer.print`, `OutputBuffer.SamePrint` — output is added, the same to two buffers
* `Turn`, `Machine.Takes`, `Machine.Answers` — a call and how it went, and calls one after another

## Main results

* `StandardTrap.pairedExcept_standard` — standard traps do the same on such machines
* `Machine.Takes.exists_callStandard` — idle machines with one arena take a turn alike
* `Machine.answers_of_answers?` — how calls go can be found out by making them
-/

namespace BytecodeHost

variable {σ τ : Type}

/-! ## Traps -/

/-- Registries with the same numbers, in the same order, whose handlers do the same. -/
theorem Registry.pairedExcept_host {number : UInt32} {R : Machine → Machine → Prop}
    {S : σ → τ → Prop} {r : Registry σ} {r' : Registry τ}
    (h : List.Forall₂ (fun e e' => e.1 = e'.1 ∧ (e.1 ≠ number.toInt32 →
      ∀ words, HostM.Paired R S (e.2 words) (e'.2 words))) r.handlers r'.handlers) :
    Host.PairedExcept number R S r.host r'.host := by
  intro words hnumber
  have hnumber : (trapNumber words).toInt32 ≠ number.toInt32 := fun heq =>
    hnumber (congrArg Int32.toUInt32 heq)
  obtain ⟨handlers⟩ := r
  obtain ⟨handlers'⟩ := r'
  rw [host, host, find?, find?]
  dsimp only at h ⊢
  rw [trapNumber] at hnumber
  generalize (words.getD 0 0).toInt32 = k at hnumber ⊢
  induction h with
  | nil => exact .pure _
  | @cons e e' handlers handlers' he _ ih =>
    obtain ⟨j, handler⟩ := e
    obtain ⟨j', handler'⟩ := e'
    obtain ⟨rfl, he⟩ : j = j' ∧ _ := he
    rw [List.lookup_cons, List.lookup_cons]
    cases hjk : k == j with
    | true =>
      obtain rfl := beq_iff_eq.mp hjk
      exact he hnumber words
    | false => exact ih

/-- Machines in a relation cannot be told apart by standard traps: they have the same loaded, and
the requests that the traps make keep the relation and are answered alike. -/
structure Machine.Indistinct (R : Machine → Machine → Prop) : Prop where
  loaded : ∀ {m n}, R m n → m.loaded = n.loaded
  validateRange : ∀ {m n}, R m n → ∀ address length,
    R (m.validateRange address length).1 (n.validateRange address length).1 ∧
      (m.validateRange address length).2 = (n.validateRange address length).2
  cString : ∀ {m n}, R m n → ∀ address,
    R (m.cString address).1 (n.cString address).1 ∧ (m.cString address).2 = (n.cString address).2
  poke : ∀ {m n}, R m n → ∀ offset bytes, R (m.poke offset bytes) (n.poke offset bytes)
  malloc : ∀ {m n}, R m n → ∀ size,
    R (m.malloc size).1 (n.malloc size).1 ∧ (m.malloc size).2 = (n.malloc size).2

theorem Machine.indistinct_twin (count : Int32) : Indistinct (Twin count) :=
  ⟨Twin.loaded, Twin.validateRange, Twin.cString, Twin.poke, Twin.malloc⟩

theorem Machine.indistinct_eq : Indistinct Eq where
  loaded := congrArg Machine.loaded
  validateRange := by rintro m _ rfl address length; exact ⟨rfl, rfl⟩
  cString := by rintro m _ rfl address; exact ⟨rfl, rfl⟩
  poke := by rintro m _ rfl offset bytes; rfl
  malloc := by rintro m _ rfl size; exact ⟨rfl, rfl⟩

namespace StandardTrap

variable {R : Machine → Machine → Prop} {S : σ → τ → Prop} {write : Writer σ} {write' : Writer τ}

theorem paired_checkRange (hR : Machine.Indistinct R) (address length : UInt32) :
    HostM.Paired R S (checkRange address length) (checkRange address length) :=
  .ask fun _ _ h => hR.validateRange h address length

theorem paired_readString (hR : Machine.Indistinct R) (address : UInt32) :
    HostM.Paired R S (readString address) (readString address) :=
  .ask fun _ _ h => hR.cString h address

theorem paired_writeRange (hR : Machine.Indistinct R) (address : UInt32) (bytes : ByteArray) :
    HostM.Paired R S (writeRange address bytes) (writeRange address bytes) :=
  .ask fun _ _ h => ⟨hR.poke h address.toNat bytes, rfl⟩

theorem paired_readRange (hR : Machine.Indistinct R) (address length : UInt32) :
    HostM.Paired R S (readRange address length) (readRange address length) := by
  refine .inspect fun m n h => ?_
  rw [hR.loaded h]
  cases n.loaded with
  | none => exact .pure _
  | some l => exact .pure _

theorem paired_print (hR : Machine.Indistinct R)
    (hwrite : ∀ p, HostM.Paired R S (write p) (write' p)) (words : Array UInt32) :
    HostM.Paired R S (print write words) (print write' words) := by
  refine .bind (paired_readString hR _) fun r => ?_
  cases r with
  | error f => exact .pure _
  | ok s => exact .bind (hwrite _) fun _ => .pure _

theorem paired_abort (hR : Machine.Indistinct R) (words : Array UInt32) :
    HostM.Paired R S (abort words) (abort words) := by
  refine .bind (paired_readString hR _) fun r => ?_
  cases r with
  | error f => exact .pure _
  | ok s => exact .pure _

theorem paired_malloc (hR : Machine.Indistinct R) (words : Array UInt32) :
    HostM.Paired R S (malloc words) (malloc words) := by
  refine .bind (.ask fun _ _ h => hR.malloc h _) fun r => ?_
  cases r with
  | error f => exact .pure _
  | ok address => exact .pure _

theorem paired_memset (hR : Machine.Indistinct R) (words : Array UInt32) :
    HostM.Paired R S (memset words) (memset words) := by
  refine .ite (.pure _) (.ite (.pure _) (.bind (paired_checkRange hR _ _) fun r => ?_))
  cases r with
  | error f => exact .pure _
  | ok => exact .bind (paired_writeRange hR _ _) fun _ => .pure _

theorem paired_memcpy (hR : Machine.Indistinct R) (words : Array UInt32) :
    HostM.Paired R S (memcpy words) (memcpy words) := by
  refine .ite (.pure _) (.ite (.pure _) (.bind (paired_checkRange hR _ _) fun r => ?_))
  cases r with
  | error f => exact .pure _
  | ok =>
    refine .bind (paired_checkRange hR _ _) fun r => ?_
    cases r with
    | error f => exact .pure _
    | ok =>
      exact .bind (paired_readRange hR _ _) fun _ =>
        .bind (paired_writeRange hR _ _) fun _ => .pure _

theorem paired_hash (hR : Machine.Indistinct R) (words : Array UInt32) :
    HostM.Paired R S (hash words) (hash words) := by
  refine .ite (.pure _) (.bind (paired_checkRange hR _ _) fun r => ?_)
  cases r with
  | error f => exact .pure _
  | ok =>
    refine .ite (.bind (paired_writeRange hR _ _) fun _ => .pure _) ?_
    refine .bind (paired_checkRange hR _ _) fun r => ?_
    cases r with
    | error f => exact .pure _
    | ok =>
      exact .bind (paired_readRange hR _ _) fun _ =>
        .bind (paired_writeRange hR _ _) fun _ => .pure _

/-- The number of the clock trap. -/
def clockNumber : UInt32 := 2

/-- **Standard traps do the same on machines that they cannot tell apart**, if their writers do. The
clocks count only if the clock trap does. -/
theorem pairedExcept_standard (hR : Machine.Indistinct R)
    (hwrite : ∀ p, HostM.Paired R S (write p) (write' p)) {clock : HostM σ Int64}
    {clock' : HostM τ Int64} {number : UInt32}
    (hclock : clockNumber ≠ number → HostM.Paired R S clock clock') :
    Host.PairedExcept number R S (Registry.standard write clock).host
      (Registry.standard write' clock').host := by
  refine Registry.pairedExcept_host ?_
  refine .cons ⟨rfl, fun _ => paired_print hR hwrite⟩ ?_
  refine .cons ⟨rfl, fun _ => paired_abort hR⟩ ?_
  refine .cons ⟨rfl, fun h words => .bind (hclock fun heq => h (congrArg UInt32.toInt32 heq))
    fun _ => .pure _⟩ ?_
  refine .cons ⟨rfl, fun _ => paired_hash hR⟩ ?_
  refine .cons ⟨rfl, fun _ => paired_malloc hR⟩ ?_
  refine .cons ⟨rfl, fun _ words => .bind (hwrite _) fun _ => .pure _⟩ ?_
  refine .cons ⟨rfl, fun _ => paired_memset hR⟩ ?_
  exact .cons ⟨rfl, fun _ => paired_memcpy hR⟩ .nil

end StandardTrap

/-! ## Output -/

namespace OutputBuffer

/-- A buffer with bytes added, none of them dropped. -/
def print (b : OutputBuffer) (p : ByteArray) : OutputBuffer :=
  { b with bytes := b.bytes ++ p }

theorem write_of_limit_le {b : OutputBuffer} (h : b.limit ≤ 0) (p : ByteArray) :
    (b.write p).1 = b.print p := by
  rw [write]
  exact congrArg Prod.fst (if_neg fun hcut => absurd hcut.1 (Int.not_lt.mpr h))

theorem print_empty (b : OutputBuffer) : b.print .empty = b := by
  rw [print, ByteArray.append_empty]

theorem print_print (b : OutputBuffer) (p q : ByteArray) :
    (b.print p).print q = b.print (p ++ q) := by
  rw [print, print, print, ByteArray.append_assoc]

/-- The same was added to two buffers. -/
def SamePrint (b b' c c' : OutputBuffer) : Prop :=
  ∃ p, c = b.print p ∧ c' = b'.print p

/-- Buffers that keep everything have the same added to them by the same output. -/
theorem paired_writer {b b' : OutputBuffer} (h : b.limit ≤ 0) (h' : b'.limit ≤ 0) {count : Int32}
    (p : ByteArray) :
    HostM.Paired (Machine.Twin count) (SamePrint b b') (writer p) (writer p) := by
  refine .bind (.modify ?_) fun _ => .pure _
  rintro _ _ ⟨q, rfl, rfl⟩
  refine ⟨q ++ p, ?_, ?_⟩
  · rw [write_of_limit_le (b := b.print q) h, print_print]
  · rw [write_of_limit_le (b := b'.print q) h', print_print]

end OutputBuffer

/-! ## Turns -/

/-- A call that a machine answered. -/
structure Turn where
  /-- What the call took from outside. -/
  env : Environment
  /-- The command word. -/
  command : UInt32
  /-- The arguments after it. -/
  args : List UInt32
  /-- The result word. -/
  value : UInt32
  /-- How many instructions were charged. -/
  instructions : UInt64
  /-- What was printed. -/
  printed : ByteArray

/-- The call of a turn, made by a caller that may stop waiting. -/
def Turn.invocation (t : Turn) (i : Option Interruption) : Invocation :=
  ⟨t.command, t.args, i⟩

namespace Machine

/-- A machine answers a call, over a buffer, as a turn says: with success and without the clock. -/
structure Takes (m : Machine) (out : OutputBuffer) (t : Turn) (m' : Machine)
    (out' : OutputBuffer) : Prop where
  /-- The call succeeds. -/
  call : m.callStandard t.env out (t.invocation none) = some (m', out', ⟨t.value, none⟩)
  /-- The clock is not read. -/
  clock : Point.Avoids (standardRegistry t.env).host StandardTrap.clockNumber
    (.start m out (t.invocation none))
  /-- The instructions are charged. -/
  instructions : m'.status.meter.used = t.instructions
  /-- The output is added. -/
  printed : out'.bytes = out.bytes ++ t.printed

/-- **Idle machines with one arena take a turn alike.** If one of them takes it, the other answers
the call with the same result, the same instructions and the same output, and then they are idle
with one arena again. The second call may have a caller that waits long enough, another environment
with fuel enough, and another buffer. -/
theorem Takes.exists_callStandard {mod : Module} {limit : UInt64} {a : Arena} {m m' n : Machine}
    {out out₁ out' : OutputBuffer} {t : Turn} (h : m.Takes out t m' out₁)
    (hm : m.Idle mod limit a) (hn : n.Idle mod limit a) (hout : out.limit ≤ 0)
    (hout' : out'.limit ≤ 0) {env : Environment} (hfuel : t.env.fuel ≤ env.fuel)
    {i : Option Interruption} (hwaits : Waits i t.env.fuel) :
    out₁.limit ≤ 0 ∧ ∃ n' a', n.callStandard env out' (t.invocation i)
        = some (n', out'.print t.printed, ⟨t.value, none⟩) ∧
      n'.status.meter.used = t.instructions ∧ a'.mask = a.mask ∧ m'.Idle mod limit a' ∧
      n'.Idle mod limit a' := by
  have hhosts : Host.PairedExcept StandardTrap.clockNumber (Twin mod.header.instructionCount)
      (OutputBuffer.SamePrint out out') (standardRegistry t.env).host (standardRegistry env).host :=
    StandardTrap.pairedExcept_standard (indistinct_twin _) (OutputBuffer.paired_writer hout hout')
      fun h => absurd rfl h
  have hstart : OutputBuffer.SamePrint out out' out out' :=
    ⟨.empty, out.print_empty.symm, out'.print_empty.symm⟩
  obtain ⟨n', _, a', hcall, ⟨printed, rfl, rfl⟩, hmask, hm', hn', hmeter⟩ :=
    call_paired hhosts hm hn hstart hwaits h.clock h.call
  obtain rfl : printed = t.printed := (ByteArray.append_right_inj _).mp h.printed
  exact ⟨hout, n', a', call_mono _ hfuel hcall,
    (congrArg Meter.used hmeter).trans h.instructions, hmask, hm', hn'⟩

/-- A machine takes turns one after another, with one buffer. -/
inductive Answers : Machine → OutputBuffer → List Turn → Machine → Prop where
  | nil {m : Machine} {out : OutputBuffer} : Answers m out [] m
  | cons {m m' m'' : Machine} {out out' : OutputBuffer} {t : Turn} {ts : List Turn}
    (h : m.Takes out t m' out') (hrest : Answers m' out' ts m'') : Answers m out (t :: ts) m''

/-- Makes the calls of some turns and checks that they go like that. Their courses are followed for
the given number of steps to see that they leave the clock alone. -/
def answers? (n : Nat) : Machine → OutputBuffer → List Turn → Option Machine
  | m, _, [] => some m
  | m, out, t :: ts =>
    match m.callStandard t.env out (t.invocation none) with
    | some (m', out', ⟨value, none⟩) =>
      if value = t.value ∧ m'.status.meter.used = t.instructions ∧
          out'.bytes = out.bytes ++ t.printed ∧
          Point.avoids? (standardRegistry t.env).host StandardTrap.clockNumber n
            (.start m out (t.invocation none)) then
        answers? n m' out' ts
      else none
    | _ => none

theorem answers_of_answers? {n : Nat} {m m' : Machine} {out : OutputBuffer} {ts : List Turn}
    (h : m.answers? n out ts = some m') : m.Answers out ts m' := by
  induction ts generalizing m out with
  | nil =>
    obtain rfl := Option.some.inj h
    exact .nil
  | cons t ts ih =>
    rw [answers?] at h
    split at h
    · rename_i m₁ out₁ value hcall
      split at h
      · rename_i hturn
        obtain ⟨rfl, hinstructions, hprinted, havoids⟩ := hturn
        exact .cons ⟨hcall, Point.avoids_of_avoids? havoids, hinstructions, hprinted⟩ (ih h)
      · contradiction
    · contradiction

end Machine

end BytecodeHost
