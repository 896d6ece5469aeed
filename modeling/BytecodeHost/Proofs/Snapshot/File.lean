import BytecodeHost.Proofs.Encoding.Cbor
import BytecodeHost.Proofs.Encoding.Zstd
import BytecodeHost.Proofs.Encoding.Zstd.Front
import BytecodeHost.Snapshot.File

/-!
# Exported snapshots

A snapshot file is a magic number and a compressed record. The record holds the description of the
snapshot, a record of its own, and the data. Each layer is undone by its reader: the items by
`Cbor.parse?`, the frames of any lawful compressor by `Zstd.decompressFirst`, and the two records
field by field.

A description is written as it is, whether or not it is right about the data. The reader is the one
that checks, and it does so after everything else, so that whatever it returns has the size and the
digest that the description gives.

## Main definitions

* `Snapshot.Info.Writable` — the descriptions that a record can hold
* `Snapshot.Info.Describes` — the descriptions that are right about some data

## Main results

* `Snapshot.ofCbor?_toCbor` — a description is read back from its record
* `Snapshot.ofPayload?_payload` — a description and its data are read back from theirs
* `Snapshot.ofFile_checked` — what is read from a file has been checked
* `Snapshot.ofFile_inverts_toFile` — a file gives back what was exported, and nothing unchecked
-/

namespace BytecodeHost

namespace Snapshot

/-- Whether a record's signed 64-bit fields can hold a number. -/
def IsInt64 (i : Int) : Prop :=
  -2 ^ 63 ≤ i ∧ i < 2 ^ 63

instance (i : Int) : Decidable (IsInt64 i) :=
  inferInstanceAs (Decidable (_ ∧ _))

/-- The descriptions that a record can hold. -/
structure Info.Writable (i : Info) : Prop where
  /-- The label is neither empty nor too long. -/
  isLabel : isLabel i.label = true
  /-- The size fits its field. -/
  size : IsInt64 i.size
  /-- So does the size of what is stored. -/
  stored : IsInt64 i.stored
  /-- The digest has its size. -/
  digest : i.digest.size = 32
  /-- The time fits its field. -/
  createdAt : IsInt64 i.createdAt

/-- A label is short. -/
theorem isLabel_iff {label : String} :
    isLabel label = true ↔ 1 ≤ label.utf8ByteSize ∧ label.utf8ByteSize ≤ 128 := by
  rw [isLabel, Bool.and_eq_true, decide_eq_true_iff, decide_eq_true_iff]
  rfl

/-! ## Records -/

section

variable {i : Info}

/-- **A description is read back** from its record. -/
theorem ofCbor?_toCbor (h : i.Writable) : Info.ofCbor? i.toCbor = some i := by
  have hid := Cbor.fixedSize_of_size i.moduleId.size_bytes
  have hdigest := Cbor.fixedSize_of_size h.digest
  have hsize := Cbor.toInt?_ofInt h.size.1 h.size.2
  have hstored := Cbor.toInt?_ofInt h.stored.1 h.stored.2
  have hcreated := Cbor.toInt?_ofInt h.createdAt.1 h.createdAt.2
  have hlabel := Cbor.toText?_ofString i.label
  simp [Info.ofCbor?, Info.toCbor, Cbor.toEntries?, Cbor.isReadableKey, Cbor.field, Cbor.isKey,
    Cbor.toBytesWithin?, Cbor.toFixedBytes?, hid, hdigest, hsize, hstored, hcreated, hlabel]

/-- The record of a description opens one level. -/
theorem fits_toCbor (h : i.Writable) {depth : Nat} (hdepth : 0 < depth) : i.toCbor.Fits depth := by
  have hlabel := isLabel_iff.mp h.isLabel
  have hid := i.moduleId.size_bytes
  have hdigest := h.digest
  simp only [Info.toCbor, Cbor.Fits, Cbor.FitEntries]
  refine ⟨hdepth, by simp [Cbor.maxItems], by decide, by omega, by decide,
    Cbor.fits_ofString (by omega) _, by decide, Cbor.fits_ofInt h.size.1 h.size.2 _, by decide,
    Cbor.fits_ofInt h.stored.1 h.stored.2 _, by decide, by omega, by decide,
    Cbor.fits_ofInt h.createdAt.1 h.createdAt.2 _, trivial⟩

/-- The record of a description is short. -/
theorem length_bytesOf_toCbor_le (h : i.Writable) : (Cbor.bytesOf i.toCbor).length ≤ 512 := by
  have hlabel : i.label.toUTF8.size ≤ 128 := (isLabel_iff.mp h.isLabel).2
  have hid := i.moduleId.size_bytes
  have hdigest := h.digest
  have hhead := Cbor.length_headBytes_le
  have hnumber := Cbor.length_bytesOf_ofInt_le
  simp only [Info.toCbor, Cbor.bytesOf, Cbor.bytesOfEntries, Cbor.ofString, Cbor.concat_singleton,
    List.length_append, List.length_cons, List.length_nil, Bytes.length_toBytes]
  grind

variable {data : ByteArray}

/-- **A description and its data are read back** from their record. -/
theorem ofPayload?_payload (h : i.Writable) (hdata : data.size < 2 ^ 64) :
    ofPayload? (payload i data) = some (i, data) := by
  have hfits : (Cbor.map [(.uint 1, i.toCbor), (.uint 2, .bytes data)]).Fits Cbor.maxDepth := by
    simp only [Cbor.Fits, Cbor.FitEntries]
    exact ⟨by decide, by simp [Cbor.maxItems], by decide, fits_toCbor h (by decide), by decide,
      hdata, trivial⟩
  have hinfo := ofCbor?_toCbor h
  simp [ofPayload?, payload, Cbor.parse?_encode hfits, Cbor.toEntries?, Cbor.isReadableKey,
    Cbor.field, Cbor.isKey, Cbor.toBytes?, Cbor.toBytesWithin?, hinfo]

/-- A record is not much longer than the data in it. -/
theorem size_payload_le (h : i.Writable) : (payload i data).size ≤ data.size + 1024 := by
  have hinfo := length_bytesOf_toCbor_le h
  have hhead := Cbor.length_headBytes_le
  rw [payload, Cbor.size_encode]
  simp only [Cbor.bytesOf, Cbor.bytesOfEntries, List.length_append, List.length_cons,
    List.length_nil, Bytes.length_toBytes]
  grind

end

/-! ## Files -/

/-- The descriptions that are right about some data. -/
structure Info.Describes (i : Info) (data : ByteArray) : Prop where
  /-- The label is neither empty nor too long. -/
  isLabel : isLabel i.label = true
  /-- The size is that of the data. -/
  size : i.size = data.size
  /-- So is the digest. -/
  digest : i.digest = Blake3.digest data
  /-- The size of what is stored is a signed 64-bit number. -/
  stored : IsInt64 i.stored
  /-- So is the time. -/
  createdAt : IsInt64 i.createdAt

/-- The most bytes of data that a file is sure to give back. -/
def maxExportSize : Nat := 64 * 1024 * 1024

section

variable {i : Info} {data file : ByteArray}

theorem Info.Describes.writable (h : i.Describes data) (hdata : data.size ≤ maxExportSize) :
    i.Writable where
  isLabel := h.isLabel
  size := by
    have : maxExportSize = 67108864 := rfl
    rw [IsInt64, h.size]
    omega
  stored := h.stored
  digest := by
    rw [h.digest]
    exact Blake3.size_digest data
  createdAt := h.createdAt

/-- **What is imported has been checked.** -/
theorem ofFile_checked (h : ofFile file = .ok (i, data)) :
    (∃ rest, file = fileMagic ++ rest) ∧ (data.size : Int) = i.size ∧
      Blake3.digest data = i.digest ∧ isLabel i.label = true := by
  simp only [ofFile] at h
  split_ifs at h with hshort hmagic
  cases hraw : Zstd.decompressFirst maxDecompressedSize maxPayloadSize
      (file.extract fileMagic.size file.size) with
  | none => simp [hraw] at h
  | some raw =>
    cases hread : ofPayload? raw with
    | none => simp [hraw, hread] at h
    | some found =>
      simp only [hraw, hread] at h
      split_ifs at h with hlabel hcheck
      obtain rfl : found = (i, data) := by simpa using h
      have hdata : (data.size : Int) = i.size ∧ Blake3.digest data = i.digest := by
        simpa using hcheck
      have hsplit : file = fileMagic ++ file.extract fileMagic.size file.size := by
        have hjoin : file.extract 0 fileMagic.size ++ file.extract fileMagic.size file.size
            = file := by
          rw [ByteArray.extract_append_extract, Nat.zero_min]
          exact Bytes.extract_of_size_le (Nat.le_max_right _ _)
        rwa [not_not.mp hmagic, eq_comm] at hjoin
      exact ⟨⟨_, hsplit⟩, hdata.1, hdata.2, by simpa using hlabel⟩

variable [Zstd.Compressor] [Zstd.LawfulCompressor]

/-- **What was exported is imported.** -/
theorem ofFile_toFile (h : i.Describes data) (hdata : data.size ≤ maxExportSize) :
    ofFile (toFile i data) = .ok (i, data) := by
  have hwritable := h.writable hdata
  have hpayload : (payload i data).size ≤ data.size + 1024 := size_payload_le hwritable
  have hbounds : maxExportSize = 67108864 ∧ maxPayloadSize = 67112960 ∧
      maxDecompressedSize = 68719476736 ∧ Zstd.maxWindow = 536870912 := by decide
  have hmagic : (toFile i data).extract 0 fileMagic.size = fileMagic :=
    ByteArray.extract_append_eq_left rfl
  have hframe : (toFile i data).extract fileMagic.size (toFile i data).size
      = Zstd.compress (payload i data) :=
    ByteArray.extract_append_eq_right rfl (by rw [toFile, ByteArray.size_append])
  have hraw : Zstd.decompressFirst maxDecompressedSize maxPayloadSize
      (Zstd.compress (payload i data)) = some (payload i data) := by
    rw [Zstd.decompressFirst_of_decompress (by omega)
      (Zstd.decompress_compress (by omega) (by decide) (by omega)),
      Bytes.extract_of_size_le (by omega)]
  have hread := ofPayload?_payload hwritable (show data.size < 2 ^ 64 by omega)
  have hcheck : ¬((data.size : Int) ≠ i.size ∨ Blake3.digest data ≠ i.digest) := by
    simp [h.size, h.digest]
  simp only [ofFile, hmagic, hframe, hraw, hread, h.isLabel]
  rw [if_neg (Nat.lt_irrefl _), if_neg (not_not_intro rfl), if_neg (by decide), if_neg hcheck]

/-- **A file gives back what was exported, and nothing unchecked.** Every arena of at most 64 MiB is
imported as it was exported, together with its description; and whatever is imported from a file,
exported or not, comes from behind the magic number and has the size and the digest that are told of
it, under a label of 1 to 128 bytes. -/
theorem ofFile_inverts_toFile :
    (∀ (i : Info) (arena : ByteArray), i.Describes arena → arena.size ≤ maxExportSize →
      ofFile (toFile i arena) = .ok (i, arena)) ∧
    (∀ (file : ByteArray) (i : Info) (data : ByteArray), ofFile file = .ok (i, data) →
      (∃ rest, file = fileMagic ++ rest) ∧ (data.size : Int) = i.size ∧
        Blake3.digest data = i.digest ∧ 1 ≤ i.label.utf8ByteSize ∧ i.label.utf8ByteSize ≤ 128) := by
  refine ⟨fun i arena h hsize => ofFile_toFile h hsize, ?_⟩
  intro file i data h
  obtain ⟨hmagic, hsize, hdigest, hlabel⟩ := ofFile_checked h
  exact ⟨hmagic, hsize, hdigest, isLabel_iff.mp hlabel⟩

end

/-- Four bytes that stand for an arena. -/
def sampleArena : ByteArray :=
  ⟨#[1, 2, 3, 4]⟩

/-- A description of them, saved before the epoch. -/
def sampleInfo : Info where
  moduleId := ModuleId.ofImage .empty
  label := "before"
  size := 4
  stored := 20
  digest := Blake3.digest sampleArena
  createdAt := -1

theorem describes_sampleInfo : sampleInfo.Describes sampleArena where
  isLabel := by decide
  size := rfl
  digest := rfl
  stored := by decide
  createdAt := by decide

/-- The sample is exported and imported, and what is imported has been checked. -/
theorem ofFile_inverts_toFile_sample :
    ofFile (toFile sampleInfo sampleArena) = .ok (sampleInfo, sampleArena) ∧
      Blake3.digest sampleArena = sampleInfo.digest ∧ 1 ≤ sampleInfo.label.utf8ByteSize := by
  have h := ofFile_inverts_toFile.1 sampleInfo sampleArena describes_sampleInfo (by decide)
  obtain ⟨-, -, hdigest, hlabel, -⟩ := ofFile_inverts_toFile.2 _ _ _ h
  exact ⟨h, hdigest, hlabel⟩

end Snapshot

end BytecodeHost
