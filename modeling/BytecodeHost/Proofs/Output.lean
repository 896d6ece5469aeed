import BytecodeHost.Proofs.Bytes
import BytecodeHost.Proofs.Checked
import BytecodeHost.Proofs.Execution
import BytecodeHost.Proofs.Machine.HostState

/-!
# Captured output

A module prints in pieces, and a buffer keeps the first bytes of all pieces together, as many as its
limit allows. How much room is left is computed anew at each write, and is where the piece is cut. A
cut at a negative place, or past the end of the piece, would be a violation; none occurs, also not
after the buffer is full.

A buffer never tells the module what it dropped. So the course of a call does not depend on the
limit: the call prints the same pieces, leaves the same machine and gives the same result as under a
writer that keeps every piece.

## Main definitions

* `OutputBuffer.writeAll`, `Checked.writeAll` — pieces written one after another
* `OutputBuffer.Holds` — what a buffer has to hold of the bytes that were printed
* `Machine.callTranscribed` — a call whose pieces are all kept

## Main results

* `OutputBuffer.Holds.write`, `OutputBuffer.Holds.writeAll` — a write, and any number of them
* `Machine.callStandard_eq_callTranscribed` — a buffer has no influence on a call
* `OutputBuffer.captures_output` — what a buffer captures
-/

namespace BytecodeHost

/-! ## Writes -/

namespace OutputBuffer

/-- Adds pieces, one after another. -/
def writeAll (b : OutputBuffer) (ps : List ByteArray) : OutputBuffer :=
  ps.foldl (fun b p => (b.write p).1) b

theorem writeAll_concat (b : OutputBuffer) (ps : List ByteArray) (p : ByteArray) :
    b.writeAll (ps ++ [p]) = ((b.writeAll ps).write p).1 :=
  List.foldl_concat ..

/-- A write takes all bytes that it is given, those that it drops too. -/
theorem taken_write (b : OutputBuffer) (p : ByteArray) : (b.write p).2 = p.size := by
  rw [write]
  split <;> rfl

/-- The bytes of some pieces together. -/
def joined (ps : List ByteArray) : List UInt8 :=
  ps.flatMap Bytes.toBytes

end OutputBuffer

/-- A write with a checked cut. -/
def Checked.write (b : OutputBuffer) (p : ByteArray) : Except Violation (OutputBuffer × Nat) := do
  let room := b.limit - b.bytes.size
  if 0 < b.limit ∧ room < p.size then
    range p 0 room
    return ({ b with bytes := b.bytes ++ p.extract 0 room.toNat, truncated := true }, p.size)
  else return ({ b with bytes := b.bytes ++ p }, p.size)

/-- Writes pieces with checked cuts and collects how many bytes each write took. -/
def Checked.writeAll (b : OutputBuffer) :
    List ByteArray → Except Violation (OutputBuffer × List Nat)
  | [] => return (b, [])
  | p :: ps => do
    let (b, taken) ← write b p
    let (b, rest) ← writeAll b ps
    return (b, taken :: rest)

/-- A buffer that holds no more than its limit has room for a cut. -/
theorem Checked.write_eq_ok {b : OutputBuffer} (h : 0 < b.limit → b.bytes.size ≤ b.limit)
    (p : ByteArray) : write b p = .ok (b.write p) := by
  rw [write, OutputBuffer.write]
  split
  · rename_i hcut
    rw [range_eq_ok (Int.le_refl 0) (Int.sub_nonneg.mpr (h hcut.1)) (Int.le_of_lt hcut.2)]
    rfl
  · rfl

namespace OutputBuffer

/-- A buffer with a limit holds of the printed bytes what it has to. -/
structure Holds (limit : Int) (printed : List UInt8) (b : OutputBuffer) : Prop where
  /-- The limit stays. -/
  limit_eq : b.limit = limit
  /-- The first bytes are held, or all of them if there is no limit. -/
  bytes_eq : Bytes.toBytes b.bytes = if 0 < limit then printed.take limit.toNat else printed
  /-- Bytes were dropped if there are more than the limit allows. -/
  truncated_iff : b.truncated = true ↔ 0 < limit ∧ limit < printed.length

theorem holds_empty (limit : Int) : Holds limit [] { limit } where
  limit_eq := rfl
  bytes_eq := by
    rw [List.take_nil, ite_self]
    rfl
  truncated_iff := iff_of_false Bool.false_ne_true fun h => Int.lt_asymm h.1 h.2

namespace Holds

variable {limit : Int} {printed : List UInt8} {b : OutputBuffer}

theorem size_eq (h : b.Holds limit printed) (hlimit : 0 < limit) :
    b.bytes.size = min limit.toNat printed.length := by
  rw [← Bytes.length_toBytes, h.bytes_eq, if_pos hlimit, List.length_take]

theorem size_le (h : b.Holds limit printed) (hlimit : 0 < b.limit) : b.bytes.size ≤ b.limit := by
  rw [h.limit_eq] at hlimit ⊢
  have hsize := h.size_eq hlimit
  omega

/-- Without a limit a write adds all bytes. -/
theorem write_of_le (h : b.Holds limit printed) (hlimit : limit ≤ 0) (p : ByteArray) :
    (b.write p).1.Holds limit (printed ++ Bytes.toBytes p) := by
  have hnot := Int.not_lt.mpr hlimit
  have hbytes := h.bytes_eq
  rw [if_neg hnot] at hbytes
  rw [write_of_limit_le (by rwa [h.limit_eq])]
  refine ⟨h.limit_eq, ?_, h.truncated_iff.trans ?_⟩
  · rw [if_neg hnot, print, Bytes.toBytes_append, hbytes]
  · exact iff_of_false (fun hcut => hnot hcut.1) (fun hcut => hnot hcut.1)

/-- With a limit a write adds the bytes that there is room for. -/
theorem write_of_pos (h : b.Holds limit printed) (hlimit : 0 < limit) (p : ByteArray) :
    (b.write p).1.Holds limit (printed ++ Bytes.toBytes p) := by
  have hsize := h.size_eq hlimit
  have hbytes := h.bytes_eq
  have htruncated := h.truncated_iff
  rw [if_pos hlimit] at hbytes
  rw [OutputBuffer.write, h.limit_eq]
  split
  · rename_i hcut
    have hroom : (limit - b.bytes.size).toNat = limit.toNat - printed.length := by omega
    refine ⟨rfl, ?_, iff_of_true rfl ⟨hlimit, ?_⟩⟩
    · rw [if_pos hlimit, hroom, List.take_append, Bytes.toBytes_append, Bytes.toBytes_extract,
        hbytes, List.drop_zero]
    · rw [List.length_append, Bytes.length_toBytes]
      omega
  · rename_i hcut
    have hfits : p.size ≤ limit.toNat - printed.length := by omega
    refine ⟨rfl, ?_, htruncated.trans ?_⟩
    · rw [if_pos hlimit, Bytes.toBytes_append, hbytes, List.take_append,
        List.take_of_length_le (l := Bytes.toBytes p) hfits]
    · rw [List.length_append, Bytes.length_toBytes]
      omega

/-- A write keeps the first bytes of everything that is printed. -/
theorem write (h : b.Holds limit printed) (p : ByteArray) :
    (b.write p).1.Holds limit (printed ++ Bytes.toBytes p) :=
  (Int.lt_or_le 0 limit).elim (fun hpos => h.write_of_pos hpos p) fun hle => h.write_of_le hle p

/-- **Any number of writes** make no bad cut, take all bytes and keep the first ones. -/
theorem writeAll (h : b.Holds limit printed) (ps : List ByteArray) :
    Checked.writeAll b ps = .ok (b.writeAll ps, ps.map ByteArray.size) ∧
      (b.writeAll ps).Holds limit (printed ++ joined ps) := by
  induction ps generalizing b printed with
  | nil =>
    refine ⟨rfl, ?_⟩
    rw [joined, List.flatMap_nil, List.append_nil]
    exact h
  | cons p ps ih =>
    obtain ⟨hchecked, hholds⟩ := ih (h.write p)
    refine ⟨?_, ?_⟩
    · rw [Checked.writeAll, Checked.write_eq_ok h.size_le, Checked.ok_bind]
      dsimp only
      rw [hchecked, Checked.ok_bind, taken_write]
      rfl
    · rw [joined, List.flatMap_cons, ← List.append_assoc]
      exact hholds

end Holds

end OutputBuffer

/-! ## Calls -/

/-- A writer that keeps every piece. -/
def StandardTrap.transcriber : StandardTrap.Writer (List ByteArray) := fun p => do
  HostM.modify (· ++ [p])
  return .ok ()

/-- Calls a machine with the standard traps and keeps all pieces that it prints. -/
def Machine.callTranscribed (env : Environment) (m : Machine) (c : Invocation) :
    Option (Machine × List ByteArray × CallResult) :=
  m.call (Registry.standard StandardTrap.transcriber (pure env.clock)).host env.fuel [] c

/-- What a buffer holds is read off the pieces. -/
theorem OutputBuffer.projects_standard (env : Environment) (b : OutputBuffer) :
    Host.Projects b.writeAll (Registry.standard StandardTrap.transcriber (pure env.clock)).host
      (standardRegistry env).host := by
  intro words
  -- No trap is left out, so any number but that of the trap at hand will do.
  have hother : trapNumber words ≠ trapNumber words + 1 := by simp
  refine StandardTrap.pairedExcept_standard Machine.indistinct_eq (fun p => ?_)
    (fun _ => .pure _) words hother
  refine .bind (.modify ?_) fun _ => .pure _
  rintro ps _ rfl
  exact b.writeAll_concat ps p

/-- **A buffer has no influence on a call.** -/
theorem Machine.callStandard_eq_callTranscribed (env : Environment) (m : Machine)
    (b : OutputBuffer) (c : Invocation) :
    m.callStandard env b c
      = (m.callTranscribed env c).map fun (m', ps, r) => (m', b.writeAll ps, r) :=
  call_mapHost (b.projects_standard env) env.fuel m [] c

/-! ## What is captured -/

namespace OutputBuffer

/-- **What a buffer captures.** Whatever is written, no write makes a bad cut, and each takes all
bytes that it is given. With a limit the buffer holds the first bytes of all pieces together, and it
is marked as truncated exactly if there are more of them than the limit allows. Without one it holds
all of them and is never marked. And every call goes as it would if all pieces were kept, so that
printing fails no call for want of room. -/
theorem captures_output (limit : Int) :
    (∀ ps : List ByteArray,
      Checked.writeAll { limit } ps = .ok (writeAll { limit } ps, ps.map ByteArray.size) ∧
        (0 < limit →
          Bytes.toBytes (writeAll { limit } ps).bytes
              = (joined ps).take (min limit.toNat (joined ps).length) ∧
            ((writeAll { limit } ps).truncated = true ↔ limit < (joined ps).length)) ∧
        (limit ≤ 0 →
          Bytes.toBytes (writeAll { limit } ps).bytes = joined ps ∧
            (writeAll { limit } ps).truncated = false)) ∧
      ∀ (env : Environment) (m : Machine) (c : Invocation),
        m.callStandard env { limit } c
          = (m.callTranscribed env c).map fun (m', ps, r) => (m', writeAll { limit } ps, r) := by
  refine ⟨fun ps => ?_, fun env m c => m.callStandard_eq_callTranscribed env _ c⟩
  obtain ⟨hchecked, hholds⟩ := (holds_empty limit).writeAll ps
  have hbytes := hholds.bytes_eq
  have htruncated := hholds.truncated_iff
  rw [List.nil_append] at hbytes htruncated
  refine ⟨hchecked, fun hlimit => ⟨?_, ?_⟩, fun hlimit => ⟨?_, ?_⟩⟩
  · rw [hbytes, if_pos hlimit, ← List.take_eq_take_min]
  · exact htruncated.trans (and_iff_right hlimit)
  · rw [hbytes, if_neg (Int.not_lt.mpr hlimit)]
  · exact Bool.eq_false_iff.mpr fun htrue => Int.not_lt.mpr hlimit (htruncated.mp htrue).1

/-- Three pieces, of three bytes, of four and of one. -/
def samplePieces : List ByteArray :=
  [⟨#[97, 98, 99]⟩, ⟨#[100, 101, 102, 103]⟩, ⟨#[104]⟩]

/-- A buffer for five bytes cuts the second piece and drops the third. One for eight is filled
exactly, and one without a limit keeps everything. -/
theorem captures_output_samplePieces :
    ((0 : Int) < 5 ∧ Bytes.toBytes (writeAll { limit := 5 } samplePieces).bytes
        = [97, 98, 99, 100, 101] ∧ (writeAll { limit := 5 } samplePieces).truncated = true) ∧
      ((0 : Int) < 8 ∧ Bytes.toBytes (writeAll { limit := 8 } samplePieces).bytes
        = joined samplePieces ∧ ¬(writeAll { limit := 8 } samplePieces).truncated = true) ∧
      (0 : Int) ≤ 0 ∧ Bytes.toBytes (writeAll { limit := 0 } samplePieces).bytes
        = joined samplePieces ∧ (writeAll { limit := 0 } samplePieces).truncated = false := by
  have hfive := ((captures_output 5).1 samplePieces).2.1 (by decide)
  have hexact := ((captures_output 8).1 samplePieces).2.1 (by decide)
  have hzero := ((captures_output 0).1 samplePieces).2.2 (by decide)
  exact ⟨⟨by decide, hfive.1.trans (by decide), hfive.2.mpr (by decide)⟩,
    ⟨by decide, hexact.1.trans (by decide), fun htrue => absurd (hexact.2.mp htrue) (by decide)⟩,
    by decide, hzero⟩

end OutputBuffer

end BytecodeHost
