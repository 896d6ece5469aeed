import BytecodeHost.Encoding.Zstd
import BytecodeHost.Proofs.Bytes

/-!
# The front of a Zstandard content

A reader of frames only ever adds to its output. So what is out when it stops early is the front of
what it would have put out, and a content that can be read as a whole can be read as far as it is
wanted. The converse fails: what comes after the front may be damaged.

## Main definitions

* `Zstd.Stopped` — the results of a reading that stops early, next to one that goes on

## Main results

* `Zstd.isPrefix_readBlock?` — a block of any kind adds to the output
* `Zstd.isPrefix_readBlocks?`, `Zstd.isPrefix_readFrames?` — so do blocks and frames
* `Zstd.decompressFirst_of_decompress` — the front of a content that decompresses
-/

namespace BytecodeHost

namespace Zstd

/-! ## Adding to the output -/

theorem isPrefix_append (a b : ByteArray) : Bytes.toBytes a <+: Bytes.toBytes (a ++ b) := by
  rw [Bytes.toBytes_append]
  exact List.prefix_append _ _

theorem isPrefix_pushMany (out : ByteArray) (x : UInt8) (n : Nat) :
    Bytes.toBytes out <+: Bytes.toBytes (Bytes.pushMany out x n) := by
  rw [Bytes.toBytes_pushMany]
  exact List.prefix_append _ _

theorem isPrefix_copyBack (distance n : Nat) (out : ByteArray) :
    Bytes.toBytes out <+: Bytes.toBytes (copyBack distance n out) := by
  induction n generalizing out with
  | zero => exact List.prefix_rfl
  | succ n ih =>
    have hpush := Bytes.toBytes_push out (Bytes.byteAt out (out.size - distance))
    exact (hpush ▸ List.prefix_append _ _).trans (ih _)

section

variable {b out raw : ByteArray} {h : FrameHeader} {limit wanted start : Nat}

theorem isPrefix_run? {t : Decoder} {bounds : Bounds} {literals : ByteArray} {n used : Nat}
    {states : States} {bits : BitTail} {recent last : Recent}
    (hrun : t.run? bounds literals n states bits recent used out = some (raw, last)) :
    Bytes.toBytes out <+: Bytes.toBytes raw := by
  have hstep : ∀ (out : ByteArray) (i j distance copied : Nat), Bytes.toBytes out <+:
      Bytes.toBytes (copyBack distance copied (out ++ literals.extract i j)) :=
    fun out i j distance copied => (isPrefix_append _ _).trans (isPrefix_copyBack _ _ _)
  induction n generalizing states bits recent used out with
  | zero =>
    rw [Decoder.run?] at hrun
    simp only [Option.bind_eq_bind, Option.bind_none, Option.ite_none_left_eq_some,
      Option.bind_eq_some_iff, Option.some.injEq, Prod.mk.injEq] at hrun
    obtain ⟨q, -, -, -, -, rfl, -⟩ := hrun
    exact (hstep _ _ _ _ _).trans (isPrefix_append _ _)
  | succ n ih =>
    rw [Decoder.run?] at hrun
    simp only [Option.bind_eq_bind, Option.bind_none, Option.ite_none_left_eq_some,
      Option.bind_eq_some_iff] at hrun
    obtain ⟨q, -, -, -, next, -, hrest⟩ := hrun
    exact (hstep _ _ _ _ _).trans (ih hrest)

theorem isPrefix_readSequences? {i : Nat} {previous tables : Tables} {recent last : Recent}
    {bounds : Bounds} {literals : ByteArray}
    (hread : readSequences? b i previous recent bounds literals out = some (raw, tables, last)) :
    Bytes.toBytes out <+: Bytes.toBytes raw := by
  rw [readSequences?] at hread
  simp only [Option.bind_eq_bind, Option.bind_eq_some_iff] at hread
  obtain ⟨⟨count, next⟩, -, hread⟩ := hread
  cases count with
  | zero =>
    obtain ⟨-, hout⟩ := Option.ite_none_right_eq_some.mp hread
    simp only [Option.some.injEq, Prod.mk.injEq] at hout
    exact hout.1 ▸ isPrefix_append _ _
  | succ n =>
    simp only [Option.bind_eq_some_iff] at hread
    obtain ⟨_, -, _, -, _, -, _, -, _, -, _, -, ⟨front, _⟩, hrun, hout⟩ := hread
    obtain ⟨rfl, -⟩ : front = raw ∧ _ := by simpa using hout
    exact isPrefix_run? hrun

/-- **A block adds to the output**, whatever its kind. -/
theorem isPrefix_readBlock? {kind size i next : Nat} {m m' : Memory}
    (hread : readBlock? b h start kind size i m out = some (raw, m', next)) :
    Bytes.toBytes out <+: Bytes.toBytes raw := by
  rw [readBlock?.eq_def] at hread
  split at hread
  · obtain ⟨-, hout⟩ := Option.ite_none_left_eq_some.mp hread
    simp only [Option.some.injEq, Prod.mk.injEq] at hout
    exact hout.1 ▸ isPrefix_append _ _
  · obtain ⟨-, hout⟩ := Option.ite_none_left_eq_some.mp hread
    simp only [Option.some.injEq, Prod.mk.injEq] at hout
    exact hout.1 ▸ isPrefix_pushMany _ _ _
  · obtain ⟨-, hread⟩ := Option.ite_none_left_eq_some.mp hread
    split at hread
    · rename_i front memory hcompressed
      simp only [Option.some.injEq, Prod.mk.injEq] at hread
      obtain ⟨rfl, -⟩ := hread
      simp only [readCompressed?, Option.bind_eq_bind, Option.bind_eq_some_iff] at hcompressed
      obtain ⟨_, -, ⟨_, _, _⟩, hsequences, hout⟩ := hcompressed
      obtain ⟨rfl, -⟩ := by simpa using hout
      exact isPrefix_readSequences? hsequences
    · cases hread
  · cases hread

/-- **Blocks add to the output**, however many of them are read. -/
theorem isPrefix_readBlocks? {fuel i : Nat} {m : Memory} {next : Option Nat}
    (hread : readBlocks? b h limit wanted start fuel i m out = some (raw, next)) :
    Bytes.toBytes out <+: Bytes.toBytes raw := by
  induction fuel generalizing i m out with
  | zero => cases hread
  | succ fuel ih =>
    rw [readBlocks?] at hread
    simp only [Option.bind_eq_bind, Option.bind_none, Option.ite_none_left_eq_some,
      Option.bind_eq_some_iff] at hread
    obtain ⟨word, -, -, ⟨front, m, i⟩, hblock, -, hread⟩ := hread
    have hfront := isPrefix_readBlock? hblock
    split_ifs at hread
    case neg => exact hfront.trans (ih hread)
    all_goals
      cases hread
      exact hfront

end

/-! ## Stopping early -/

/-- What a reading has when it stops once `wanted` bytes are out, next to one that goes on until it
has `raw` and is at the offset `next`: the same, or a front of it that is long enough. -/
inductive Stopped (wanted : Nat) (raw : ByteArray) (next : Option Nat) :
    ByteArray × Option Nat → Prop
  | whole : Stopped wanted raw next (raw, next)
  | front {front : ByteArray} (hraw : Bytes.toBytes front <+: Bytes.toBytes raw)
      (hwanted : wanted ≤ front.size) : Stopped wanted raw next (front, none)

section

variable {b out raw : ByteArray} {h : FrameHeader} {limit wanted more start : Nat}

theorem exists_readBlocks?_stopped (hmore : wanted ≤ more) {fuel i : Nat} {m : Memory}
    {next : Option Nat} (hread : readBlocks? b h limit more start fuel i m out = some (raw, next)) :
    ∃ result, readBlocks? b h limit wanted start fuel i m out = some result ∧
      Stopped wanted raw next result := by
  induction fuel generalizing i m out with
  | zero => cases hread
  | succ fuel ih =>
    rw [readBlocks?] at hread
    simp only [Option.bind_eq_bind, Option.bind_none, Option.ite_none_left_eq_some,
      Option.bind_eq_some_iff] at hread
    obtain ⟨word, hword, hsize, ⟨front, m, i⟩, hblock, hlimit, hread⟩ := hread
    have hraw : Bytes.toBytes front <+: Bytes.toBytes raw := by
      split_ifs at hread
      case neg => exact isPrefix_readBlocks? hread
      all_goals
        cases hread
        exact List.prefix_rfl
    rw [readBlocks?]
    simp only [Option.bind_eq_bind, hword, Option.bind_some, if_neg hsize, hblock, if_neg hlimit]
    -- enough is out within the block, at its end, or not yet
    by_cases hwithin : wanted < front.size
    · exact ⟨_, if_pos hwithin, .front hraw (Nat.le_of_lt hwithin)⟩
    · rw [if_neg (show ¬more < front.size by omega)] at hread
      obtain ⟨hcontent, hread⟩ := Option.ite_none_left_eq_some.mp hread
      rw [if_neg hwithin, if_neg hcontent]
      by_cases hlast : word % 2 = 1
      · rw [if_pos hlast] at hread ⊢
        cases hread
        exact ⟨_, rfl, .whole⟩
      · rw [if_neg hlast] at hread ⊢
        by_cases hend : wanted ≤ front.size
        · exact ⟨_, if_pos hend, .front hraw hend⟩
        · rw [if_neg (show ¬more ≤ front.size by omega)] at hread
          rw [if_neg hend]
          exact ih hread

/-- A frame ends with what its blocks put out. -/
theorem eq_of_close? {all : ByteArray} {last next : Option Nat}
    (hclose : h.close? b start (all, last) = some (raw, next)) : all = raw := by
  cases last with
  | none => exact congrArg Prod.fst (Option.some.inj hclose)
  | some i =>
    simp only [FrameHeader.close?, Option.bind_eq_bind, Option.bind_none,
      Option.ite_none_left_eq_some] at hclose
    obtain ⟨-, hclose⟩ := hclose
    split_ifs at hclose
    · simp only [Option.bind_eq_some_iff, Option.ite_none_left_eq_some] at hclose
      obtain ⟨_, -, -, hout⟩ := hclose
      exact congrArg Prod.fst (Option.some.inj hout)
    · exact congrArg Prod.fst (Option.some.inj hclose)

theorem isPrefix_readFrame? {i : Nat} {next : Option Nat}
    (hread : readFrame? b limit wanted i out = some (raw, next)) :
    Bytes.toBytes out <+: Bytes.toBytes raw := by
  rw [readFrame?] at hread
  simp only [Option.bind_eq_bind, Option.bind_none, Option.ite_none_left_eq_some,
    Option.bind_eq_some_iff] at hread
  obtain ⟨h, -, -, ⟨all, last⟩, hblocks, hclose⟩ := hread
  obtain rfl := eq_of_close? hclose
  exact isPrefix_readBlocks? hblocks

theorem exists_readFrame?_stopped (hmore : wanted ≤ more) {i : Nat} {next : Option Nat}
    (hread : readFrame? b limit more i out = some (raw, next)) :
    ∃ result, readFrame? b limit wanted i out = some result ∧ Stopped wanted raw next result := by
  rw [readFrame?] at hread
  simp only [Option.bind_eq_bind, Option.bind_none, Option.ite_none_left_eq_some,
    Option.bind_eq_some_iff] at hread
  obtain ⟨h, hheader, hcontent, ⟨all, last⟩, hblocks, hclose⟩ := hread
  obtain ⟨result, hresult, hstopped⟩ := exists_readBlocks?_stopped hmore hblocks
  rw [readFrame?]
  simp only [Option.bind_eq_bind, hheader, Option.bind_some, if_neg hcontent, hresult]
  cases hstopped with
  | whole => exact ⟨_, hclose, .whole⟩
  | front hraw hwanted =>
    obtain rfl := eq_of_close? hclose
    exact ⟨_, rfl, .front hraw hwanted⟩

/-- **Frames add to the output.** -/
theorem isPrefix_readFrames? {fuel i : Nat}
    (hread : readFrames? b limit wanted fuel i out = some raw) :
    Bytes.toBytes out <+: Bytes.toBytes raw := by
  induction fuel generalizing i out with
  | zero => cases hread
  | succ fuel ih =>
    rw [readFrames?] at hread
    split_ifs at hread with hend
    · cases hread
      exact List.prefix_rfl
    · obtain ⟨magic, -, hread⟩ := Option.bind_eq_some_iff.mp hread
      split_ifs at hread
      · obtain ⟨size, -, hread⟩ := Option.bind_eq_some_iff.mp hread
        exact ih (Option.ite_none_left_eq_some.mp hread).2
      · obtain ⟨⟨front, _ | i⟩, hframe, hread⟩ := Option.bind_eq_some_iff.mp hread
        · cases hread
          exact isPrefix_readFrame? hframe
        · exact (isPrefix_readFrame? hframe).trans (ih hread)

theorem exists_readFrames?_stopped (hmore : wanted ≤ more) {fuel i : Nat}
    (hread : readFrames? b limit more fuel i out = some raw) :
    ∃ front, readFrames? b limit wanted fuel i out = some front ∧
      Bytes.toBytes front <+: Bytes.toBytes raw ∧ (front = raw ∨ wanted ≤ front.size) := by
  induction fuel generalizing i out with
  | zero => cases hread
  | succ fuel ih =>
    by_cases henough : wanted ≤ out.size
    · refine ⟨out, ?_, isPrefix_readFrames? hread, .inr henough⟩
      rw [readFrames?, if_pos (.inr henough)]
    · rw [readFrames?] at hread ⊢
      by_cases hend : b.size ≤ i
      · rw [if_pos (.inl hend)] at hread ⊢
        cases hread
        exact ⟨_, rfl, List.prefix_rfl, .inl rfl⟩
      · rw [if_neg (by omega)] at hread ⊢
        obtain ⟨magic, hmagic, hread⟩ := Option.bind_eq_some_iff.mp hread
        simp only [Option.bind_eq_bind, hmagic, Option.bind_some]
        split_ifs at hread ⊢
        · obtain ⟨size, hsize, hread⟩ := Option.bind_eq_some_iff.mp hread
          obtain ⟨hfits, hread⟩ := Option.ite_none_left_eq_some.mp hread
          rw [hsize, Option.bind_some, if_neg hfits]
          exact ih hread
        · obtain ⟨⟨all, next⟩, hframe, hread⟩ := Option.bind_eq_some_iff.mp hread
          obtain ⟨result, hresult, hstopped⟩ := exists_readFrame?_stopped hmore hframe
          rw [hresult, Option.bind_some]
          cases next with
          | none =>
            cases hread
            cases hstopped with
            | whole => exact ⟨_, rfl, List.prefix_rfl, .inl rfl⟩
            | front hraw hwanted => exact ⟨_, rfl, hraw, .inr hwanted⟩
          | some i =>
            cases hstopped with
            | whole => exact ih hread
            | front hraw hwanted =>
              exact ⟨_, rfl, hraw.trans (isPrefix_readFrames? hread), .inr hwanted⟩

/-- **The front of a content that decompresses** decompresses, and is its front. -/
theorem decompressFirst_of_decompress (hmore : wanted ≤ limit)
    (hread : decompress limit b = some raw) :
    decompressFirst limit wanted b = some (raw.extract 0 wanted) := by
  obtain ⟨front, hfront, hraw, hwhole⟩ := exists_readFrames?_stopped (Nat.le_succ_of_le hmore) hread
  rw [decompressFirst, hfront, Option.map_some]
  obtain rfl | hwanted := hwhole
  · rfl
  · obtain ⟨rest, hrest⟩ := hraw
    rw [← Bytes.length_toBytes] at hwanted
    rw [Option.some.injEq, ← Bytes.toBytes_inj, Bytes.toBytes_extract, Bytes.toBytes_extract,
      List.drop_zero, List.drop_zero, ← hrest, List.take_append_of_le_length hwanted]

end

end Zstd

end BytecodeHost
