import BytecodeHost.ModuleId
import BytecodeHost.Proofs.Encoding.Base58
import BytecodeHost.Proofs.Text

/-!
# Identifiers and their texts

Modules are looked up by texts that clients send, so it matters that an identifier has one text
only. The texts that are read are exactly those that are written, and each is read as the identifier
that it was written for.

Bytes that encoders hand over need not be UTF-8. What is no character is shown as U+FFFD, which is
no digit, so it makes no difference here that different bytes can be shown alike.

## Main results

* `ModuleId.ofText_eq_ok_iff` — what is read is what is written
* `ModuleId.unmarshal_cases` — bytes are an identifier, or leave the one in their place alone
* `ModuleId.text_bijective` — identifiers and their texts correspond to each other
-/

namespace BytecodeHost

namespace ModuleId

/-- **An identifier is read from its text and from no other.** -/
theorem ofText_eq_ok_iff {s : String} {id : ModuleId} : ofText s = .ok id ↔ s = id.toText := by
  constructor
  · intro h
    rw [ofText] at h
    cases hdecode : Base58.decode s with
    | error e =>
      rw [hdecode] at h
      contradiction
    | ok b =>
      rw [hdecode] at h
      dsimp only at h
      rw [ofBytes] at h
      split at h
      · rw [toText, ← Except.ok.inj h, Base58.encode_of_decode hdecode]
      · contradiction
  · rintro rfl
    have hsize : id.bytes.size ≠ 0 := by
      rw [id.size_bytes]
      decide
    rw [ofText, toText, Base58.decode_encode hsize]
    exact dif_pos id.size_bytes

/-- All characters of a text are digits. -/
theorem toList_toText (id : ModuleId) :
    id.toText.toList = (Base58.numeral (Bytes.toBytes id.bytes)).map Base58.digit :=
  Base58.toList_encode id.bytes

/-- Nothing is shown as a text but the text itself. -/
theorem lossy_eq_toText_iff {t : Text} {id : ModuleId} :
    t.lossy = id.toText ↔ t = id.marshal := by
  constructor
  · intro h
    have hdigits : '\uFFFD' ∉ t.lossy.toList := by
      intro hmem
      rw [h, toList_toText] at hmem
      obtain ⟨d, hd, hchar⟩ := List.mem_map.mp hmem
      have hle := Base58.toNat_digit_le d (Base58.lt_of_mem_numeral hd)
      rw [hchar] at hle
      exact absurd hle (by decide)
    rw [marshal, ← h]
    exact Text.eq_ofString_of_lossy hdigits
  · rintro rfl
    exact Text.lossy_ofString id.toText

/-- **Bytes are an identifier, or they leave the one in their place alone.** -/
theorem unmarshal_cases (current : ModuleId) (t : Text) :
    (∃ id, t = marshal id ∧ unmarshal current t = (id, .ok ())) ∨
      ∃ e, (∀ id, t ≠ marshal id) ∧ unmarshal current t = (current, .error e) := by
  rw [unmarshal]
  cases h : ofText t.lossy with
  | ok id => exact .inl ⟨id, lossy_eq_toText_iff.mp (ofText_eq_ok_iff.mp h), rfl⟩
  | error e =>
    refine .inr ⟨e, fun id hid => ?_, rfl⟩
    rw [ofText_eq_ok_iff.mpr (lossy_eq_toText_iff.mpr hid)] at h
    contradiction

/-- **Identifiers and their texts correspond to each other.** An identifier is read from its text
and from no other, so no two texts name the same module; the text has a one for each leading zero
byte and then the digits of the number that the bytes stand for. Encoders read back what they wrote,
and bytes that are not the text of an identifier fail and change nothing. -/
theorem text_bijective :
    (∀ (s : String) (id : ModuleId), ofText s = .ok id ↔ s = id.toText) ∧
    (∀ id : ModuleId, id.toText.toList
      = List.replicate (Base58.leadingZeros (Bytes.toBytes id.bytes)) '1'
        ++ (Nat.digits 58 (Base58.numberOf (Bytes.toBytes id.bytes))).reverse.map Base58.digit) ∧
    (∀ current id, unmarshal current (marshal id) = (id, .ok ())) ∧
    ∀ current t, (∃ id, t = marshal id ∧ unmarshal current t = (id, .ok ())) ∨
      ∃ e, (∀ id, t ≠ marshal id) ∧ unmarshal current t = (current, .error e) := by
  refine ⟨fun s id => ofText_eq_ok_iff, fun id => ?_, fun current id => ?_, unmarshal_cases⟩
  · rw [toList_toText, Base58.numeral, List.map_append, List.map_replicate]
    rfl
  · rw [unmarshal, lossy_eq_toText_iff.mpr rfl, ofText_eq_ok_iff.mpr rfl]

end ModuleId

end BytecodeHost
