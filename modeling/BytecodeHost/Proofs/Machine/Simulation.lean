import BytecodeHost.Proofs.Machine.Reference
import BytecodeHost.Proofs.Machine.Safety

/-!
# The stream simulates the program

The machine runs a stream of words; the program is a list of instructions. As long as every return
reloads a word that a call has saved, a run of the stream is a run of the reference interpreter with
every program counter moved to the place of its index. Nothing else differs: the same instructions
are dispatched with the same operands on the same arena, the host sees the same machine at every
trap, and the activations end in the same way, calls back included.

The condition on returns cannot be dropped. A module may overwrite a saved word, and then the
stream goes on in the middle of an instruction, where no index is.

## Main definitions

* `Moment.relocate`, `Observed.relocate` — what is seen, with program counters moved
* `Observed.Corresponds` — two runs agree as long as a condition on moments holds
* `Moment.Returns` — a return reloads the return marker or a word that a call saves
* `Program.Follows` — what a stream does at the places of its instructions

## Main results

* `Engine.observe_corresponds` — activations of the stream and of the reference correspond
* `Program.Linked.follows` — a linked program follows its instructions
* `Machine.stream_simulates` — what a loaded module does, instruction by instruction and in the
  course of a call
-/

namespace BytecodeHost

open Program

/-! ## Relocated observations -/

/-- A moment with its program counter moved. -/
def Moment.relocate (f : UInt32 → UInt32) : Moment → Moment
  | dispatched p count r a => dispatched p count (r.relocate f) a
  | moment => moment

namespace Observed

variable {α β : Type} {Q : Moment → Prop} {f : UInt32 → UInt32}

/-- What is seen, with program counters moved. -/
def relocate (f : UInt32 → UInt32) (o : Observed α) : Observed α :=
  ⟨o.moments.map (Moment.relocate f), o.result⟩

@[simp] theorem result_relocate (o : Observed α) : (o.relocate f).result = o.result := rfl

theorem relocate_note (m : Moment) (o : Observed α) :
    (note m o).relocate f = note (m.relocate f) (o.relocate f) := rfl

theorem relocate_andThen (o : Observed α) (g : α → Observed β) :
    (o.andThen g).relocate f = (o.relocate f).andThen fun a => (g a).relocate f := by
  obtain ⟨moments, _ | a⟩ := o
  · rfl
  · simp [andThen, relocate]

/-- As long as all moments of a run satisfy a condition, it is another one with program counters
moved. -/
def Corresponds (Q : Moment → Prop) (f : UInt32 → UInt32) (o o' : Observed α) : Prop :=
  (∀ m ∈ o.moments, Q m) → o = o'.relocate f

theorem Corresponds.rfl_give (a : α) : Corresponds Q f (give a) (give a) :=
  fun _ => rfl

theorem Corresponds.rfl_exhausted : Corresponds Q f (exhausted : Observed α) exhausted :=
  fun _ => rfl

theorem Corresponds.note {m : Moment} {o o' : Observed α}
    (h : Q (m.relocate f) → Corresponds Q f o o') :
    Corresponds Q f (note (m.relocate f) o) (note m o') := by
  intro hQ
  have ho := h (hQ _ (by simp [Observed.note])) fun m hm => hQ m (by simp [Observed.note, hm])
  rw [relocate_note, ho]

theorem Corresponds.andThen {o o' : Observed α} {g g' : α → Observed β}
    (h : Corresponds Q f o o') (hg : ∀ a, o.result = some a → Corresponds Q f (g a) (g' a)) :
    Corresponds Q f (o.andThen g) (o'.andThen g') := by
  intro hQ
  rw [moments_andThen] at hQ
  have ho := h fun m hm => hQ m (List.mem_append_left _ hm)
  have hresult : o.result = o'.result := by rw [ho, result_relocate]
  rw [relocate_andThen, ← ho]
  cases hr : o.result with
  | none => simp [Observed.andThen, hr]
  | some a =>
    have hrest := hg a hr fun m hm => hQ m (List.mem_append_right _ (by simpa [hr] using hm))
    simp [Observed.andThen, hr, hrest]

end Observed

/-! ## Scripts and calls -/

/-- Scripts correspond if their calls back do. -/
theorem Script.observe_corresponds {σ α : Type} {Q : Moment → Prop} {P : Machine → Prop}
    {f : UInt32 → UInt32}
    {callBack callBack' : Machine → σ → Invocation → Observed (Machine × σ × CallResult)}
    (hask : ∀ (q : Request) (m : Machine), P m → P (q.perform m).1)
    (hkeep : ∀ m s c, P m → ∀ y, (callBack m s c).result = some y → P y.1)
    (hcall : ∀ m s c, P m → (callBack m s c).Corresponds Q f (callBack' m s c))
    (script : Script σ α) {m : Machine} (hm : P m) :
    (script.observe callBack m).Corresponds Q f (script.observe callBack' m) := by
  induction script generalizing m with
  | done s a => exact .rfl_give _
  | ask q k ih => exact ih _ (hask q m hm)
  | call s c k ih =>
    refine (hcall m s c hm).andThen fun y hy => ?_
    exact ih _ _ (hkeep m s c hm y hy)

/-- An activation with its program counter moved. -/
def Activation.relocate (f : UInt32 → UInt32) (x : Activation) : Activation :=
  { x with registers := x.registers.relocate f }

/-- Calls correspond if their activations do. -/
theorem Machine.observe_corresponds {σ : Type} {Q : Moment → Prop} {I : List Instruction}
    {run run' : Option Interruption → Activation → σ → Observed (Ended σ)} {p : Program}
    {count : Int32} {level : Nat}
    (hrun : ∀ i x s, x.machine.Runs p count (level + 1) → x.registers.pc.toNat ≤ I.length →
      (run i (x.relocate (relocate I)) s).Corresponds Q (relocate I) (run' i x s))
    {m : Machine} (hm : m.Runs p count level) (s : σ) (c : Invocation) :
    (m.observe run s c).Corresponds Q (relocate I) (m.observe run' s c) := by
  obtain ⟨l, status⟩ := m
  obtain ⟨arena, rfl : l = some ⟨p, arena⟩⟩ := hm.loaded
  rw [observe, observe]
  split
  · exact .rfl_give _
  · refine Observed.Corresponds.note (m := .entered arena _ c) fun _ => ?_
    have h := hrun c.interruption (activation ⟨p, arena⟩ status c) s (runs_activation c hm)
      (Nat.zero_le _)
    refine Observed.Corresponds.andThen h fun e _ => ?_
    exact Observed.Corresponds.note (m := .ended e.fault) fun _ => .rfl_give _

/-! ## Activations -/

namespace Activation

theorem charge_relocate (f : UInt32 → UInt32) (x : Activation)
    (interruption : Option Interruption) :
    (x.relocate f).charge interruption
      = ((x.charge interruption).1.relocate f, (x.charge interruption).2) := by
  obtain ⟨program, arena, status, registers, executed⟩ := x
  rw [charge, charge]
  dsimp only [relocate]
  split
  · cases interruption with
    | none => rfl
    | some i =>
      dsimp only
      split <;> rfl
  · rfl

end Activation

/-- A return reloads the return marker or a word that a call saves; after a trap it is a word that a
call saves. -/
def Moment.Returns (I : List Instruction) : Moment → Prop
  | dispatched _ _ r a => ∀ (k : Nat) (h : k < I.length), r.pc = UInt32.ofNat (place I k) →
    Reference.Returns I I[k] r.frame a
  | resumed a frame => Reference.IsReturn I (a.load4 frame)
  | _ => True

instance (I : List Instruction) : DecidablePred (Moment.Returns I)
  | .dispatched _ _ r a =>
    inferInstanceAs (Decidable (∀ (k : Nat) (h : k < I.length), r.pc = UInt32.ofNat (place I k) →
      Reference.Returns I I[k] r.frame a))
  | .resumed a frame => inferInstanceAs (Decidable (Reference.IsReturn I (a.load4 frame)))
  | .entered .. | .trapped .. | .ended _ => inferInstanceAs (Decidable True)

namespace Engine

variable {σ : Type} (host : Host σ) {p : Program} {I : List Instruction} {count : Int32}
  {level : Nat}

/-- At the place of an index accounting is charging, and so it is at the index itself. -/
theorem accountBy_relocate (hp : p.Linked I) {x : Activation} (hx : x.program = p)
    (hpc : x.registers.pc.toNat ≤ I.length) (interruption : Option Interruption) :
    (x.relocate (relocate I)).accountBy stream interruption
        = ((x.charge interruption).1.relocate (relocate I), (x.charge interruption).2) ∧
      x.accountBy (Reference.engine I) interruption = x.charge interruption := by
  have hplace := place_le_place hpc (Nat.le_refl _)
  constructor
  · rw [Activation.accountBy, if_neg, Activation.charge_relocate]
    change ¬x.program.code.size ≤ (relocate I x.registers.pc).toNat
    rw [hx, hp.size_code, hp.toNat_relocate hpc]
    omega
  · rw [Activation.accountBy, if_neg]
    change ¬I.length + 1 ≤ x.registers.pc.toNat
    omega

/-- **Activations correspond.** The stream is at the place of the index that the reference is at,
and stays so: the program counter comes from an instruction, which the reference follows, or from
the arena, where the condition on returns gives the index back. -/
theorem observe_corresponds (hp : p.Linked I) (hcount : count.toUInt32.toNat = I.length)
    (hlevel : level ≠ 0) (fuel : Nat) (interruption : Option Interruption) (x : Activation) (s : σ)
    (hx : x.machine.Runs p count level) (hpc : x.registers.pc.toNat ≤ I.length) :
    (stream.observe host fuel interruption (x.relocate (relocate I)) s).Corresponds
      (Moment.Returns I) (relocate I)
      ((Reference.engine I).observe host fuel interruption x s) := by
  induction fuel generalizing interruption x s level with
  | zero => exact .rfl_exhausted
  | succ fuel ih =>
    have hprogram := hx.program_eq
    obtain ⟨hstream, hreference⟩ := accountBy_relocate hp hprogram hpc interruption
    obtain ⟨meter, executed', fault, hcharge, -⟩ := x.charge_cases interruption
    rw [observe, observe, hstream, hreference, hcharge]
    obtain ⟨program, arena, status, registers, executed⟩ := x
    obtain rfl : program = p := hprogram
    obtain rfl : status.instructionCount = count := hx.instructionCount
    cases fault with
    | some f => exact .rfl_give _
    | none =>
      refine Observed.Corresponds.note
        (m := .dispatched program status.instructionCount registers arena) fun hreturn => ?_
      have hstep := Reference.step_relocate hp hcount hpc arena fun h => hreturn _ h rfl
      rw [show stream.step = BytecodeHost.step from rfl,
        show (Reference.engine I).step program = Reference.step I from rfl]
      dsimp only
      rw [hstep]
      have hbound : ∀ j, (Reference.step I status.instructionCount registers arena).pc? = some j →
          j.toNat ≤ I.length := fun j => Reference.step_pc hp hcount
      cases hs : Reference.step I status.instructionCount registers arena with
      | next r a =>
        refine ih hlevel _ ⟨_, _, _, r, _⟩ _ ⟨⟨a, rfl⟩, rfl, hx.callLevel⟩ (hbound r.pc ?_)
        rw [hs]
        rfl
      | broke r a =>
        refine ih hlevel _ ⟨_, _, _, r, _⟩ _ ⟨⟨a, rfl⟩, rfl, hx.callLevel⟩ (hbound r.pc ?_)
        rw [hs]
        rfl
      | finish operands a => exact .rfl_give _
      | fault f a => exact .rfl_give _
      | stuck a => exact .rfl_give _
      | trap r a =>
        obtain ⟨pc, frame, operands⟩ := r
        refine Observed.Corresponds.note (m := .trapped a frame) fun _ => ?_
        -- the host is given one machine in both runs, and its calls back correspond by induction
        have hpad := hp.padded hcount
        have hcall : ∀ (m : Machine) (s : σ) (c : Invocation),
            m.Runs program status.instructionCount level →
              (m.observe (stream.observe host fuel) s c).Corresponds (Moment.Returns I) (relocate I)
                (m.observe ((Reference.engine I).observe host fuel) s c) :=
          fun m s c hm =>
            Machine.observe_corresponds
              (fun i x s hx hpc => ih (Nat.succ_ne_zero level) i x s hx hpc) hm s c
        have hkeep : ∀ (m : Machine) (s : σ) (c : Invocation),
            m.Runs program status.instructionCount level →
              (m.observe (stream.observe host fuel) s c).Meets (Moment.Safe host)
                fun y => y.1.Runs program status.instructionCount level :=
          fun m s c hm => observeCall_safe host hpad fuel hm s c
        have hm : Machine.Runs program status.instructionCount level
            ⟨some ⟨program, a⟩, { status with meter, programStack := frame - 4 }⟩ :=
          ⟨⟨a, rfl⟩, rfl, hx.callLevel⟩
        refine Observed.Corresponds.andThen
          (Script.observe_corresponds (Request.runs_perform hlevel)
            (fun m s c hm => (hkeep m s c hm).result) hcall _ hm) ?_
        rintro ⟨m, s, v | f | message⟩ hy
        · obtain ⟨hruns, -⟩ :=
            (Script.observe_meets (Request.runs_perform hlevel) hkeep _ hm).result _ hy
          obtain ⟨l, status'⟩ := m
          obtain ⟨a', rfl : l = some ⟨program, a'⟩⟩ := hruns.loaded
          refine Observed.Corresponds.note (m := .resumed a' frame) fun hsaved => ?_
          obtain ⟨j, hj⟩ := Reference.exists_returnIndex hsaved
          obtain ⟨hle, hplace⟩ := Reference.relocate_of_returnIndex hp hj
          have hresume := ih hlevel interruption (.resumeAt j frame operands executed' v
            ⟨program, a'⟩ status') s ⟨⟨a', rfl⟩, hruns.instructionCount, hruns.callLevel⟩ hle
          dsimp only
          rw [show (Reference.engine I).back (a'.load4 frame) = some j from hj, ← hplace]
          exact hresume
        · exact .rfl_give _
        · exact .rfl_give _

end Engine

/-! ## Loaded modules -/

/-- What a stream does at the places of its instructions. -/
structure Program.Follows (p : Program) (I : List Instruction) (count : Int32) : Prop where
  /-- The table holds the places. -/
  offset_eq : ∀ k : UInt32, k.toNat ≤ I.length → p.offset k.toNat = relocate I k
  /-- Every instruction but a return goes on to the place of its successor, unless it fails or asks
  the host. -/
  next : ∀ (k : Nat) (h : k < I.length) (frame : UInt32) (s : Operands) (a : Arena),
    I[k].op ≠ .leave → ¬(I[k].op = .call ∧ s.first.toInt32 < 0) →
    (∃ f a', step p count ⟨p.offset k, frame, s⟩ a = .fault f a') ∨
      (step p count ⟨p.offset k, frame, s⟩ a).pc? = some (p.offset (I[k].successor k s)) ∧
        I[k].successor k s ≤ I.length
  /-- A call saves the place of the next instruction. -/
  call : ∀ (k : Nat) (h : k < I.length) (frame : UInt32) (s : Operands) (a : Arena),
    I[k].op = .call → (step p count ⟨p.offset k, frame, s⟩ a).arena
      = if s.first.toInt32 < 0 then
          (a.store4 frame (p.offset (k + 1))).store4 (frame + 4) (returnMarker - s.first)
        else a.store4 frame (p.offset (k + 1))
  /-- There is no instruction behind the last one. -/
  last : ∀ (frame : UInt32) (s : Operands) (a : Arena),
    ∃ f, step p count ⟨p.offset I.length, frame, s⟩ a = .fault f a ∧ f.kind = .badInstruction

namespace Program.Linked

variable {p : Program} {I : List Instruction} {count : Int32}

theorem offset_toNat (hp : p.Linked I) {k : UInt32} (hk : k.toNat ≤ I.length) :
    p.offset k.toNat = relocate I k :=
  hp.offset_eq hk

/-- The indices of a program are words. -/
theorem exists_index (hp : p.Linked I) {k : Nat} (hk : k ≤ I.length) :
    ∃ w : UInt32, w.toNat = k := by
  have := hp.length_lt
  refine ⟨UInt32.ofNat k, ?_⟩
  rw [UInt32.toNat_ofNat']
  exact Nat.mod_eq_of_lt (by omega)

/-- The stream at the place of an instruction. -/
theorem step_offset (hp : p.Linked I) (hcount : count.toUInt32.toNat = I.length) {k : UInt32}
    (hk : k.toNat < I.length) {frame : UInt32} (s : Operands) {a : Arena}
    (hreturn : Reference.Returns I I[k.toNat] frame a) :
    step p count ⟨p.offset k.toNat, frame, s⟩ a
      = (Reference.execute I count I[k.toNat] k frame s a).relocate (relocate I) := by
  have h := Reference.step_relocate hp hcount (r := ⟨k, frame, s⟩) (Nat.le_of_lt hk) a
    fun _ => hreturn
  rw [Reference.step, List.getElem?_eq_getElem hk] at h
  rw [hp.offset_toNat (Nat.le_of_lt hk)]
  exact h

/-- **A linked program follows its instructions.** -/
theorem follows (hp : p.Linked I) (hcount : count.toUInt32.toNat = I.length) :
    p.Follows I count where
  offset_eq k hk := hp.offset_toNat hk
  next k hk frame s a hleave htrap := by
    obtain ⟨k, rfl⟩ := hp.exists_index (Nat.le_of_lt hk)
    rw [hp.step_offset hcount hk s fun h => absurd h hleave]
    cases hpc : (Reference.execute I count I[k.toNat] k frame s a).pc? with
    | none =>
      obtain h | ⟨f, a', h⟩ := Reference.execute_of_pc?_eq_none hleave hpc
      · exact absurd h htrap
      · exact .inl ⟨f, a', by rw [h, Effect.relocate]⟩
    | some j =>
      obtain ⟨hle, hsuccessor⟩ := Reference.execute_pc hp hcount hk hpc
      rw [← hsuccessor hleave, Effect.pc?_relocate, hpc, hp.offset_toNat hle]
      exact .inr ⟨rfl, hle⟩
  call k hk frame s a hcall := by
    obtain ⟨k, rfl⟩ := hp.exists_index (Nat.le_of_lt hk)
    have hnext := hp.toNat_succ hk
    rw [hp.step_offset hcount hk s fun h => by simp [hcall] at h, Effect.arena_relocate,
      Reference.execute_arena_of_call hcall, ← hnext, hp.offset_toNat (by omega)]
  last frame s a := by
    obtain ⟨k, hk⟩ := hp.exists_index (Nat.le_refl _)
    have h := Reference.step_relocate hp hcount (r := ⟨k, frame, s⟩) (by simp [hk]) a
      fun hlt => by simp [hk] at hlt
    rw [Reference.step, List.getElem?_eq_none (by simp [hk])] at h
    rw [← hk, hp.offset_toNat (by omega)]
    exact ⟨_, h, rfl⟩

end Program.Linked

/-- An activation that dispatches behind the last instruction ends there. -/
theorem Activation.run_last {σ : Type} (host : Host σ) {p : Program} {I : List Instruction}
    {count : Int32} {level : Nat} (hp : p.Follows I count) (fuel : Nat)
    {interruption : Option Interruption} {x y : Activation} (s : σ)
    (hx : x.machine.Runs p count level) (hpc : x.registers.pc = p.offset I.length)
    (haccount : x.account interruption = (y, none)) :
    ∃ f, run host (fuel + 1) interruption x s = some (y.fail s f) ∧ f.kind = .badInstruction := by
  obtain ⟨hy, hregisters, -, -⟩ := Engine.accountBy_stream_cases host haccount hx
  obtain ⟨program, arena, status, ⟨pc, frame, operands⟩, executed⟩ := y
  obtain rfl : program = p := hy.program_eq
  obtain rfl : status.instructionCount = count := hy.instructionCount
  obtain rfl : pc = program.offset I.length := by
    rw [← hpc, ← hregisters]
  obtain ⟨f, hstep, hkind⟩ := hp.last frame operands arena
  refine ⟨f, ?_, hkind⟩
  rw [run, haccount]
  dsimp only
  rw [hstep]

namespace Machine

variable {σ : Type}

/-- **The stream simulates the program.** Take any image that can be loaded, with the instructions
of its code section. At the places of the instructions the stream does what they say. An activation
that comes to the place behind the last one ends with a bad instruction. And a call in whose course
every return reloads a word that a call saves is the call of the reference interpreter with indices
for places: the same instructions in the same order on the same arena, with the same result. -/
theorem stream_simulates {name : String} {image : ByteArray} {m : Module}
    (hload : Module.load name image = .ok m) :
    ∃ I, Instruction.decodeAll (m.header.codeBytes image)
        m.header.instructionCount.toInt.toNat = .ok I ∧
      I.size = m.header.instructionCount.toInt.toNat ∧
      m.program.Follows I.toList m.header.instructionCount ∧
      (∀ (level : Nat) (host : Host σ) (fuel : Nat) (interruption : Option Interruption)
        (x y : Activation) (s : σ), x.machine.Runs m.program m.header.instructionCount level →
        x.registers.pc = m.program.offset I.size → x.account interruption = (y, none) →
        ∃ f, Activation.run host (fuel + 1) interruption x s = some (y.fail s f) ∧
          f.kind = .badInstruction) ∧
      ∀ (level : Nat) (vm : Machine) (host : Host σ) (fuel : Nat) (s : σ) (c : Invocation),
        vm.Runs m.program m.header.instructionCount level →
        (∀ moment ∈ (Engine.stream.observeCall host fuel vm s c).moments,
          moment.Returns I.toList) →
        Engine.stream.observeCall host fuel vm s c
            = ((Reference.engine I.toList).observeCall host fuel vm s c).relocate
              (relocate I.toList) ∧
          ((Reference.engine I.toList).observeCall host fuel vm s c).result
            = call host fuel vm s c := by
  obtain ⟨I, hdecode, hsize, hcount, hp⟩ := Module.linked_of_load hload
  have hfollows := hp.follows hcount
  refine ⟨I, hdecode, hsize, hfollows, ?_, ?_⟩
  · intro level host fuel interruption x y s hx hpc haccount
    exact Activation.run_last host hfollows fuel s hx hpc haccount
  · intro level vm host fuel s c hvm hreturns
    have hcorresponds := observe_corresponds
      (fun i x s hx hpc => Engine.observe_corresponds host hp hcount (Nat.succ_ne_zero level) fuel i
        x s hx hpc) hvm s c hreturns
    refine ⟨hcorresponds, ?_⟩
    rw [← Engine.result_observeCall, Engine.observeCall, Engine.observeCall, hcorresponds,
      Observed.result_relocate]

/-- A host that answers every trap of the sample with the number that it compares with. -/
def obliging : Host Unit :=
  fun _ s => .done s (.value 3)

theorem stream_simulates_sample :
    ∃ m I, Module.load "sample" Module.sampleImage = .ok m ∧
      Instruction.decodeAll (m.header.codeBytes Module.sampleImage)
        m.header.instructionCount.toInt.toNat = .ok I ∧
      m.program.Follows I.toList m.header.instructionCount ∧
      (∀ moment ∈
        (Engine.stream.observeCall obliging 100 (create m 0) () ⟨7, [1, 2], none⟩).moments,
        moment.Returns I.toList) ∧
      Engine.stream.observeCall obliging 100 (create m 0) () ⟨7, [1, 2], none⟩
        = ((Reference.engine I.toList).observeCall obliging 100 (create m 0) ()
          ⟨7, [1, 2], none⟩).relocate (relocate I.toList) ∧
      ((Reference.engine I.toList).observeCall obliging 100 (create m 0) ()
        ⟨7, [1, 2], none⟩).result = call obliging 100 (create m 0) () ⟨7, [1, 2], none⟩ := by
  -- with this host the sample returns only to where it called from
  have hreturns :
      ((Module.load "sample" Module.sampleImage).toOption.bind fun m =>
        (Instruction.decodeAll (m.header.codeBytes Module.sampleImage)
          m.header.instructionCount.toInt.toNat).toOption.map fun I =>
          decide (∀ moment ∈
            (Engine.stream.observeCall obliging 100 (create m 0) () ⟨7, [1, 2], none⟩).moments,
            moment.Returns I.toList)) = some true := by
    decide +kernel
  obtain ⟨m, hm⟩ := Module.exists_load_sample
  obtain ⟨I, hI, -, hfollows, -, hsimulates⟩ := stream_simulates (σ := Unit) hm
  rw [hm] at hreturns
  simp only [Except.toOption, hI, Option.bind_some, Option.map_some, Option.some.injEq,
    decide_eq_true_eq] at hreturns
  exact ⟨m, I, hm, hI, hfollows, hreturns,
    hsimulates 0 _ obliging 100 () _ (runs_create m 0) hreturns⟩

end Machine

end BytecodeHost
