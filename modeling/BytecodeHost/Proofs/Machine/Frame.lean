import BytecodeHost.Proofs.Machine.Restoration

/-!
# The frame of a call

A call writes fifteen words below the program stack: the return marker, a zero word, the command and
twelve arguments. The program stack is any word. It need not be aligned, and the frame may wrap
around at the end of the arena, where a word goes on into the guard bytes while the next one starts
at the bottom. What makes the words independent is that their distances are multiples of four and
that the arena is too large for the frame to come around to itself.

A nested call is made while a trap is answered. Its program stack then lies just below the frame
that the trap was raised from, so the same argument, in an arena twice as large as both frames
together, keeps the words of that frame apart from the new ones.

## Main definitions

* `Invocation.frameWords` — the fifteen words of a frame
* `Arena.HoldsFrame` — a frame as the module finds it

## Main results

* `Arena.load4_storeWords`, `Arena.load4_storeWords_of_apart` — words that are stored in a row
* `Arena.holdsFrame_pushFrame`, `Arena.byteAt_pushFrame` — what a frame holds, and what it leaves
  alone
* `Machine.call_frame` — the frame that a call starts with, nested or not
-/

namespace BytecodeHost

/-! ## Words in a row -/

namespace Arena

theorem add_no_words (address : UInt32) : address + UInt32.ofNat (4 * 0) = address :=
  UInt32.add_zero address

theorem add_words (address : UInt32) (i j : Nat) :
    address + UInt32.ofNat (4 * i) + UInt32.ofNat (4 * j)
      = address + UInt32.ofNat (4 * (i + j)) := by
  rw [UInt32.add_assoc, ← UInt32.ofNat_add, ← Nat.mul_add]

theorem load4_storeWords_of_apart {ws : List UInt32} {a : Arena} {address y : UInt32}
    (h : ∀ i < ws.length, a.Apart (address + UInt32.ofNat (4 * i)) y) :
    (a.storeWords address ws).load4 y = a.load4 y := by
  induction ws generalizing a address with
  | nil => rfl
  | cons w ws ih =>
    have hfirst : a.Apart address y := add_no_words address ▸ h 0 (Nat.succ_pos _)
    have hrest : ∀ i < ws.length,
        (a.store4 address w).Apart (address + 4 + UInt32.ofNat (4 * i)) y := by
      intro i hi
      have hnext := h (i + 1) (Nat.succ_lt_succ hi)
      rwa [Nat.add_comm, ← add_words] at hnext
    rw [storeWords, ih hrest, load4_store4_of_apart hfirst]

theorem byteAt_storeWords {ws : List UInt32} {a : Arena} {address : UInt32} {j : Nat}
    (h : ∀ i < ws.length, ¬a.Covers (address + UInt32.ofNat (4 * i)) j) :
    Bytes.byteAt (a.storeWords address ws).bytes j = Bytes.byteAt a.bytes j := by
  induction ws generalizing a address with
  | nil => rfl
  | cons w ws ih =>
    have hfirst : ¬a.Covers address j := add_no_words address ▸ h 0 (Nat.succ_pos _)
    have hrest : ∀ i < ws.length,
        ¬(a.store4 address w).Covers (address + 4 + UInt32.ofNat (4 * i)) j := by
      intro i hi
      have hnext := h (i + 1) (Nat.succ_lt_succ hi)
      rwa [Nat.add_comm, ← add_words] at hnext
    rw [storeWords, ih hrest, byteAt_store4_of_not_covers hfirst]

/-- **Words that are stored in a row are read back**, if they do not come around to the first. -/
theorem load4_storeWords {ws : List UInt32} {a : Arena} {address : UInt32}
    (hsize : 4 * ws.length ≤ a.size.toNat) {i : Nat} (hi : i < ws.length) :
    (a.storeWords address ws).load4 (address + UInt32.ofNat (4 * i)) = ws[i] := by
  induction ws generalizing a address i with
  | nil => exact absurd hi (Nat.not_lt_zero i)
  | cons w ws ih =>
    rw [List.length_cons] at hsize hi
    cases i with
    | zero =>
      have hrest : ∀ i < ws.length,
          (a.store4 address w).Apart (address + 4 + UInt32.ofNat (4 * i)) address := by
        intro i hi
        have hapart := a.apart_add address (i := 0) (j := 1 + i) (by omega) (by omega)
        rw [add_no_words, ← add_words] at hapart
        exact hapart.symm
      rw [storeWords, add_no_words, load4_storeWords_of_apart hrest, load4_store4]
      rfl
    | succ i =>
      have hsize' : 4 * ws.length ≤ (a.store4 address w).size.toNat :=
        show 4 * ws.length ≤ a.size.toNat by omega
      have hshift : address + UInt32.ofNat (4 * (i + 1)) = address + 4 + UInt32.ofNat (4 * i) := by
        rw [Nat.add_comm, ← add_words]
        rfl
      rw [storeWords, hshift, ih hsize' (Nat.lt_of_succ_lt_succ hi), List.getElem_cons_succ]

end Arena

/-! ## Frames -/

namespace Invocation

/-- The words of the frame of a call. -/
def frameWords (c : Invocation) : List UInt32 :=
  returnMarker :: 0 :: c.words

theorem length_words {c : Invocation} (h : c.args.length ≤ 12) : c.words.length = 13 := by
  simp only [words, maxCallArgs, List.length_append, List.length_cons, List.length_replicate]
  omega

theorem length_frameWords {c : Invocation} (h : c.args.length ≤ 12) :
    c.frameWords.length = 15 := by
  rw [frameWords, List.length_cons, List.length_cons, length_words h]

end Invocation

namespace Arena

/-- A frame as the module finds it: the return marker, a zero word, the command, the arguments that
were given and zeros for the others. -/
structure HoldsFrame (a : Arena) (frame : UInt32) (c : Invocation) : Prop where
  /-- The outermost frame returns to minus one. -/
  marker : (a.load4 frame).toInt32 = -1
  /-- The second word is zero. -/
  zero : a.load4 (frame + 4) = 0
  /-- The third word is the command. -/
  command : a.load4 (frame + 8) = c.command
  /-- The arguments follow. -/
  argument : ∀ (i : Nat) (h : i < c.args.length),
    a.load4 (frame + UInt32.ofNat (12 + 4 * i)) = c.args[i]
  /-- Missing arguments are zero. -/
  missing : ∀ i < 12, c.args.length ≤ i → a.load4 (frame + UInt32.ofNat (12 + 4 * i)) = 0

variable {a : Arena} {frame : UInt32} {c : Invocation}

/-- The words of a frame are read back. -/
theorem load4_pushFrame (hargs : c.args.length ≤ 12) (hsize : 64 ≤ a.size.toNat) {i : Nat}
    (hi : i < c.frameWords.length) :
    (a.pushFrame frame c).load4 (frame + UInt32.ofNat (4 * i)) = c.frameWords[i] := by
  have hwords := Invocation.length_words hargs
  have hlength := Invocation.length_frameWords hargs
  have hbefore : ∀ j, 0 < j → j < 15 → a.Apart frame (frame + UInt32.ofNat (4 * j)) := by
    intro j hj hj'
    have h := a.apart_add frame (i := 0) (j := j) hj (by omega)
    rwa [add_no_words] at h
  have hmask := a.mask_storeWords (frame + 8) c.words
  have hmask' : ((a.storeWords (frame + 8) c.words).store4 (frame + 4) 0).mask = a.mask := hmask
  rw [pushFrame]
  rcases i with _ | _ | i
  · rw [add_no_words, load4_store4]
    rfl
  · rw [load4_store4_of_apart ((hbefore 1 (by omega) (by omega)).congr hmask')]
    exact load4_store4 _ (frame + 4) 0
  · have hsecond : a.Apart (frame + 4) (frame + UInt32.ofNat (4 * (i + 2))) :=
      a.apart_add frame (i := 1) (j := i + 2) (by omega) (by omega)
    have hshift : frame + UInt32.ofNat (4 * (i + 2)) = frame + 8 + UInt32.ofNat (4 * i) := by
      rw [Nat.add_comm, ← add_words]
      rfl
    rw [load4_store4_of_apart ((hbefore (i + 2) (by omega) (by omega)).congr hmask'),
      load4_store4_of_apart (hsecond.congr hmask), hshift,
      load4_storeWords (by omega) (show i < c.words.length by omega)]
    rfl

theorem load4_pushFrame_of_apart (hargs : c.args.length ≤ 12) {y : UInt32}
    (h : ∀ i < 15, a.Apart (frame + UInt32.ofNat (4 * i)) y) :
    (a.pushFrame frame c).load4 y = a.load4 y := by
  have hwords := Invocation.length_words hargs
  have hrest : ∀ i < c.words.length, a.Apart (frame + 8 + UInt32.ofNat (4 * i)) y := by
    intro i hi
    have hshift := h (i + 2) (by omega)
    rwa [Nat.add_comm, ← add_words] at hshift
  have hfirst : a.Apart frame y := add_no_words frame ▸ h 0 (by omega)
  have hsecond : a.Apart (frame + 4) y := h 1 (by omega)
  have hmask := a.mask_storeWords (frame + 8) c.words
  have hmask' : ((a.storeWords (frame + 8) c.words).store4 (frame + 4) 0).mask = a.mask := hmask
  rw [pushFrame, load4_store4_of_apart (hfirst.congr hmask'),
    load4_store4_of_apart (hsecond.congr hmask), load4_storeWords_of_apart hrest]

/-- **A frame changes no byte outside its words.** -/
theorem byteAt_pushFrame (hargs : c.args.length ≤ 12) {j : Nat}
    (h : ∀ i < 15, ¬a.Covers (frame + UInt32.ofNat (4 * i)) j) :
    Bytes.byteAt (a.pushFrame frame c).bytes j = Bytes.byteAt a.bytes j := by
  have hwords := Invocation.length_words hargs
  have hrest : ∀ i < c.words.length, ¬a.Covers (frame + 8 + UInt32.ofNat (4 * i)) j := by
    intro i hi
    have hshift := h (i + 2) (by omega)
    rwa [Nat.add_comm, ← add_words] at hshift
  have hfirst : ¬a.Covers frame j := add_no_words frame ▸ h 0 (by omega)
  have hsecond : ¬a.Covers (frame + 4) j := h 1 (by omega)
  have hmask := a.mask_storeWords (frame + 8) c.words
  have hmask' : ((a.storeWords (frame + 8) c.words).store4 (frame + 4) 0).mask = a.mask := hmask
  rw [pushFrame, byteAt_store4_of_not_covers ((covers_congr hmask').not.mpr hfirst),
    byteAt_store4_of_not_covers ((covers_congr hmask).not.mpr hsecond), byteAt_storeWords hrest]

/-- A frame that does not wrap around changes its range only. -/
theorem agreesOutside_pushFrame (hargs : c.args.length ≤ 12)
    (hroom : frame.toNat + 60 ≤ a.mask.toNat + 1) :
    AgreesOutside frame.toNat (frame.toNat + 60) a (a.pushFrame frame c) := by
  refine ⟨mask_pushFrame a frame c, fun j hj => byteAt_pushFrame hargs fun i hi hcovers => ?_⟩
  rw [Covers, index_add_of_le (by omega)] at hcovers
  omega

/-- **A frame holds what the call was made with.** -/
theorem holdsFrame_pushFrame (hargs : c.args.length ≤ 12) (hsize : 64 ≤ a.size.toNat) :
    (a.pushFrame frame c).HoldsFrame frame c := by
  have hlength := Invocation.length_frameWords hargs
  have word : ∀ (i : Nat) (hi : i < c.frameWords.length),
      (a.pushFrame frame c).load4 (frame + UInt32.ofNat (4 * i)) = c.frameWords[i] :=
    fun i hi => load4_pushFrame hargs hsize hi
  have argument : ∀ i < 12, (a.pushFrame frame c).load4 (frame + UInt32.ofNat (12 + 4 * i))
      = (c.args ++ List.replicate (12 - c.args.length) 0)[i]?.getD 0 := by
    intro i hi
    have hi' : i + 3 < c.frameWords.length := by omega
    have h := word (i + 3) hi'
    rw [show 4 * (i + 3) = 12 + 4 * i by omega] at h
    have hget := List.getElem?_eq_getElem hi'
    rw [h, ← Option.getD_some (a := c.frameWords[i + 3]) (b := 0), ← hget]
    rfl
  refine ⟨?_, ?_, ?_, fun i hi => ?_, fun i hi hmissing => ?_⟩
  · have h := word 0 (by omega)
    rw [add_no_words] at h
    rw [h]
    rfl
  · exact word 1 (by omega)
  · exact word 2 (by omega)
  · rw [argument i (by omega), List.getElem?_append_left hi, List.getElem?_eq_getElem hi,
      Option.getD_some]
  · rw [argument i hi, List.getElem?_append_right hmissing]
    cases h : (List.replicate (12 - c.args.length) (0 : UInt32))[i - c.args.length]? with
    | none => rfl
    | some w =>
      obtain ⟨-, rfl⟩ := List.mem_replicate.mp (List.mem_of_getElem? h)
      rfl

end Arena

/-! ## Calls -/

variable {σ : Type}

theorem sub_callFrameSize_of_trap {stack frame : UInt32} (h : stack = frame - 4) :
    stack - callFrameSize = frame - 64 := by
  rw [h, callFrameSize]
  grind

/-- A frame on the program stack of a trap leaves the words of the frame below it alone. -/
theorem Arena.load4_pushFrame_of_trap {a : Arena} {c : Invocation} {frame stack : UInt32}
    (hstack : stack = frame - 4) (hargs : c.args.length ≤ 12) (hsize : 256 ≤ a.size.toNat) {i : Nat}
    (hi : i ≤ 16) :
    (a.pushFrame (stack - callFrameSize) c).load4 (frame + UInt32.ofNat (4 * i))
      = a.load4 (frame + UInt32.ofNat (4 * i)) := by
  have hbase : frame = frame - 64 + UInt32.ofNat (4 * 16) := (UInt32.sub_add_cancel frame 64).symm
  have hword : frame + UInt32.ofNat (4 * i) = frame - 64 + UInt32.ofNat (4 * (16 + i)) := by
    rw [← add_words, ← hbase]
  rw [sub_callFrameSize_of_trap hstack, hword]
  refine load4_pushFrame_of_apart hargs fun j hj => ?_
  exact a.apart_add (frame - 64) (by omega) (by omega)

namespace Machine

/-- **What a call starts with.** The call is made on any machine with any arena and any program
stack. Before its first instruction the frame lies sixty bytes below the program stack and holds the
return marker, a zero word, the command and the arguments, and no byte outside these words has
changed. If the call is made while a trap is answered, at whatever depth, it starts below the frame
that the trap was raised from, and leaves alone that frame's return word, the trap number and the
fifteen arguments of the trap. -/
theorem call_frame {m : Machine} {l : Loaded} {c : Invocation} (hl : m.loaded = some l)
    (hargs : c.args.length ≤ 12) :
    ∃ x : Activation,
      (∀ {σ : Type} (run : Runner σ) (s : σ),
        enter run m s c = (run c.interruption x s).map (close m.status)) ∧
      x.registers.frame = m.status.programStack - 60 ∧ x.arena.mask = l.arena.mask ∧
      (64 ≤ l.arena.size.toNat → x.arena.HoldsFrame x.registers.frame c ∧
        ∀ j, (∀ i < 15, ¬l.arena.Covers (x.registers.frame + UInt32.ofNat (4 * i)) j) →
          Bytes.byteAt x.arena.bytes j = Bytes.byteAt l.arena.bytes j) ∧
      ∀ {σ : Type} (host : Host σ) (m₀ : Machine) (s₀ : σ) (c₀ : Invocation) (n : Nat)
        (before : Status) (trap : Pending) (s : σ) (k : σ → CallResult → Script σ TrapReply)
        (callers : List (Caller σ)),
        Point.steps host n (.start m₀ s₀ c₀) = ⟨.handling before trap (.call s c k) m, callers⟩ →
        Point.steps host (n + 1) (.start m₀ s₀ c₀)
            = ⟨.executing m.status c.interruption x s, ⟨before, trap, k⟩ :: callers⟩ ∧
          x.registers.frame = trap.frame - 64 ∧
          (256 ≤ l.arena.size.toNat → ∀ i ≤ 16,
            x.arena.load4 (trap.frame + UInt32.ofNat (4 * i))
              = l.arena.load4 (trap.frame + UInt32.ofNat (4 * i))) := by
  have haccept : m.accept c = .ok (activation l m.status c) := by
    rw [accept, hl]
    exact if_neg (Nat.not_lt.mpr hargs)
  refine ⟨activation l m.status c, ?_, rfl, Arena.mask_pushFrame _ _ _, fun hsize => ⟨?_, ?_⟩, ?_⟩
  · intro σ run s
    rw [enter_eq, haccept]
  · exact Arena.holdsFrame_pushFrame hargs hsize
  · exact fun j hj => Arena.byteAt_pushFrame hargs hj
  · intro σ host m₀ s₀ c₀ n before trap s k callers hn
    have hstack : m.status.programStack = trap.frame - 4 := by
      have hkept := Point.kept_steps host n m₀ s₀ c₀
      rw [hn] at hkept
      cases hkept with
      | handling _ _ _ hstack _ => exact hstack
    refine ⟨?_, sub_callFrameSize_of_trap hstack,
      fun hsize i hi => Arena.load4_pushFrame_of_trap hstack hargs hsize hi⟩
    rw [Point.steps_succ', hn, Point.step, Focus.start, haccept]

end Machine

/-- The call back that a host is about to make, with the machine that it is made on. -/
def Point.callBack? : Point σ → Option (Invocation × Machine)
  | ⟨.handling _ _ (.call _ c _) m, _⟩ => some (c, m)
  | _ => none

theorem Point.exists_of_callBack? {γ : Point σ} {c : Invocation} {m : Machine}
    (h : γ.callBack? = some (c, m)) :
    ∃ before trap s k callers, γ = ⟨.handling before trap (.call s c k) m, callers⟩ := by
  unfold callBack? at h
  split at h
  · obtain ⟨rfl, rfl⟩ := Prod.mk.inj (Option.some.inj h)
    exact ⟨_, _, _, _, _, rfl⟩
  · contradiction

namespace Machine

/-- A call back in an arena of 256 bytes. -/
theorem call_frame_sample :
    ∃ (mod : Module) (m : Machine) (l : Loaded) (c : Invocation) (x : Activation) (before : Status)
      (trap : Pending) (s : Unit) (k : Unit → CallResult → Script Unit TrapReply)
      (callers : List (Caller Unit)),
      (Module.load "sample" ({ Header.sample with bssLength := 256 }.encode
        ++ ⟨(Program.sample.flatMap Instruction.bytes).toArray.push 255⟩)).toOption = some mod ∧
      Point.steps insistent 3 (.start (create mod 0) () ⟨5, [1, 2], none⟩)
        = ⟨.handling before trap (.call s c k) m, callers⟩ ∧
      c.args = [] ∧ m.loaded = some l ∧ l.arena.size.toNat = 256 ∧
      Point.steps insistent 4 (.start (create mod 0) () ⟨5, [1, 2], none⟩)
        = ⟨.executing m.status c.interruption x s, ⟨before, trap, k⟩ :: callers⟩ ∧
      x.arena.HoldsFrame x.registers.frame c ∧
      ∀ i ≤ 16, x.arena.load4 (trap.frame + UInt32.ofNat (4 * i))
        = l.arena.load4 (trap.frame + UInt32.ofNat (4 * i)) := by
  have hcourse : (Module.load "sample" ({ Header.sample with bssLength := 256 }.encode
      ++ ⟨(Program.sample.flatMap Instruction.bytes).toArray.push 255⟩)).toOption.bind (fun mod =>
      (Point.steps insistent 3 (.start (create mod 0) () ⟨5, [1, 2], none⟩)).callBack?.map
        fun y => (y.1.args, y.2.loaded.map (·.arena.size.toNat)))
      = some ([], some 256) := by
    decide +kernel
  obtain ⟨mod, hmod, hcourse⟩ := Option.bind_eq_some_iff.mp hcourse
  obtain ⟨⟨c, m⟩, hpoint, hcourse⟩ := Option.map_eq_some_iff.mp hcourse
  obtain ⟨hargs, hsize⟩ := Prod.mk.inj hcourse
  obtain ⟨l, hl, hsize⟩ := Option.map_eq_some_iff.mp hsize
  obtain ⟨before, trap, s, k, callers, hn⟩ := Point.exists_of_callBack? hpoint
  obtain ⟨x, -, -, -, hframe, hnested⟩ := call_frame hl (c := c) (by rw [hargs]; decide)
  obtain ⟨hstarts, -, hkeeps⟩ := hnested insistent _ _ _ _ _ _ _ _ _ hn
  exact ⟨mod, m, l, c, x, before, trap, s, k, callers, hmod, hn, hargs, hl, hsize, hstarts,
    (hframe (by omega)).1, hkeeps (by omega)⟩

end Machine

end BytecodeHost
