import BytecodeHost.Proofs.Bytes
import BytecodeHost.Text

/-!
# Texts in the order of their bytes

Names and labels are kept as UTF-8, and other programs sort them by their bytes. Here they are
compared character by character. Both orders are the same, because UTF-8 writes a character with its
highest bits first and announces the longer forms by greater first bytes.

## Main definitions

* `Text.utf8` — the bytes of a text
* `Text.lead`, `Text.continuation` — the first byte of a character, and the bytes after it

## Main results

* `Text.utf8EncodeChar_append_lt` — two characters are told apart within their own bytes
* `Text.lt_iff_utf8_lt` — both orders are the same
* `Text.isValid_ofString` — a string has no bytes outside of its characters
* `Text.lossy_ofString`, `Text.eq_ofString_of_lossy` — strings are shown as they are, and nothing
  else is shown as one unless a replacement is seen
-/

namespace BytecodeHost

namespace Text

/-! ## Characters -/

/-- The last `k` groups of six bits of a number, the highest first, each in a byte of its own. -/
def continuation (v : Nat) : Nat → List UInt8
  | 0 => []
  | k + 1 => UInt8.ofNat (v / 64 ^ k % 64 + 128) :: continuation v k

/-- How many bytes follow the first one of a character. -/
def following (v : Nat) : Nat :=
  if v ≤ 0x7F then 0 else if v ≤ 0x7FF then 1 else if v ≤ 0xFFFF then 2 else 3

/-- The first byte of a character, as a number. -/
def lead (v : Nat) : Nat :=
  if v ≤ 0x7F then v
  else if v ≤ 0x7FF then v / 64 + 192
  else if v ≤ 0xFFFF then v / 64 ^ 2 + 224
  else v / 64 ^ 3 + 240

theorem toNat_char_lt (c : Char) : c.toNat < 0x110000 := by
  rcases c.valid with h | h
  · exact Nat.lt_trans h (by decide)
  · exact h.2

theorem lead_lt (c : Char) : lead c.toNat < 256 := by
  have hc := toNat_char_lt c
  simp only [lead]
  split_ifs <;> omega

theorem utf8EncodeChar_eq (c : Char) :
    String.utf8EncodeChar c
      = UInt8.ofNat (lead c.toNat) :: continuation c.toNat (following c.toNat) := by
  have hc := toNat_char_lt c
  have hv : c.val.toNat = c.toNat := rfl
  simp only [String.utf8EncodeChar, hv, lead, following]
  split_ifs with h₁ h₂ h₃
  · rfl
  · have hhigh : c.toNat / 64 < 32 := by omega
    simp [continuation, Nat.mod_eq_of_lt hhigh]
  · have hhigh : c.toNat / 4096 < 16 := by omega
    simp [continuation, Nat.mod_eq_of_lt hhigh]
  · have hhigh : c.toNat / 262144 < 8 := by omega
    simp [continuation, Nat.mod_eq_of_lt hhigh]

/-- First bytes are in the order of the characters, unless two characters only differ in the bytes
that follow. -/
theorem lead_lt_or_eq {v w : Nat} (h : v < w) :
    lead v < lead w ∨ lead v = lead w ∧ following v = following w ∧
      v / 64 ^ following v = w / 64 ^ following w := by
  simp only [lead, following]
  split_ifs <;> omega

theorem ofNat_lt_ofNat {a b : Nat} (h : a < b) (hb : b < 256) : UInt8.ofNat a < UInt8.ofNat b := by
  rw [UInt8.lt_iff_toNat_lt, UInt8.toNat_ofNat', UInt8.toNat_ofNat',
    Nat.mod_eq_of_lt (Nat.lt_trans h hb), Nat.mod_eq_of_lt hb]
  exact h

/-- Numbers that agree above their last groups are told apart by these groups. -/
theorem continuation_append_lt {v w : Nat} (h : v < w) (k : Nat) (hhigh : v / 64 ^ k = w / 64 ^ k)
    (x y : List UInt8) : continuation v k ++ x < continuation w k ++ y := by
  induction k with
  | zero =>
    rw [Nat.pow_zero, Nat.div_one, Nat.div_one] at hhigh
    exact absurd hhigh (Nat.ne_of_lt h)
  | succ k ih =>
    rw [Nat.pow_succ, ← Nat.div_div_eq_div_mul, ← Nat.div_div_eq_div_mul] at hhigh
    rw [continuation, continuation, List.cons_append, List.cons_append, List.cons_lt_cons_iff]
    rcases Nat.lt_or_eq_of_le (Nat.div_le_div_right (c := 64 ^ k) (Nat.le_of_lt h)) with hlt | heq
    · left
      exact ofNat_lt_ofNat (by omega) (by omega)
    · right
      exact ⟨by rw [heq], ih heq⟩

/-- **Two characters are told apart within their own bytes**, whatever comes after them. -/
theorem utf8EncodeChar_append_lt {c d : Char} (h : c < d) (x y : List UInt8) :
    String.utf8EncodeChar c ++ x < String.utf8EncodeChar d ++ y := by
  have hlt : c.toNat < d.toNat := h
  rw [utf8EncodeChar_eq, utf8EncodeChar_eq, List.cons_append, List.cons_append,
    List.cons_lt_cons_iff]
  rcases lead_lt_or_eq hlt with hlead | ⟨hlead, hfollowing, hhigh⟩
  · left
    exact ofNat_lt_ofNat hlead (lead_lt d)
  · right
    rw [hfollowing] at hhigh ⊢
    exact ⟨by rw [hlead], continuation_append_lt hlt _ hhigh x y⟩

/-! ## Texts -/

/-- The bytes of a text. -/
def utf8 (s : String) : List UInt8 :=
  Bytes.toBytes s.toUTF8

theorem utf8_eq (s : String) : utf8 s = s.toList.flatMap String.utf8EncodeChar := by
  rw [utf8, String.toUTF8, ← String.utf8Encode_toList, List.utf8Encode]
  simp [Bytes.toBytes]

theorem flatMap_utf8EncodeChar_lt {l m : List Char} (h : l < m) :
    l.flatMap String.utf8EncodeChar < m.flatMap String.utf8EncodeChar := by
  induction l generalizing m with
  | nil =>
    cases m with
    | nil => exact absurd h (List.lt_irrefl _)
    | cons d m =>
      rw [List.flatMap_cons, utf8EncodeChar_eq]
      exact List.nil_lt_cons _ _
  | cons c l ih =>
    cases m with
    | nil => exact absurd h (List.not_lt_nil _)
    | cons d m =>
      rw [List.flatMap_cons, List.flatMap_cons]
      rcases List.cons_lt_cons_iff.mp h with hchar | ⟨rfl, hrest⟩
      · exact utf8EncodeChar_append_lt hchar _ _
      · exact List.append_left_lt (ih hrest)

/-- **Texts are in the order of their bytes.** -/
theorem lt_iff_utf8_lt (a b : String) : a < b ↔ utf8 a < utf8 b := by
  rw [utf8_eq, utf8_eq]
  change a.toList < b.toList ↔ _
  constructor
  · exact flatMap_utf8EncodeChar_lt
  · intro h
    by_contra hnot
    rcases List.le_iff_lt_or_eq.mp (List.not_lt.mp hnot) with hlt | heq
    · exact List.lt_asymm h (flatMap_utf8EncodeChar_lt hlt)
    · rw [heq] at h
      exact List.lt_irrefl _ h

/-! ## Strings as texts -/

/-- The rune at an offset where the bytes of a character stand. -/
theorem runeAt_of_drop_eq {b : ByteArray} {i : Nat} {c : Char} {rest : List UInt8}
    (h : (Bytes.toBytes b).drop i = String.utf8EncodeChar c ++ rest) :
    runeAt b i = (.char c, c.utf8Size) := by
  have htail : b.extract i b.size = (String.utf8EncodeChar c).toByteArray ++ rest.toByteArray := by
    rw [← Bytes.toBytes_inj, Bytes.toBytes_extract_size, Bytes.toBytes_append, h]
    simp [Bytes.toBytes]
  have hchar : b.utf8DecodeChar? i = some c := by
    rw [ByteArray.utf8DecodeChar?_eq_utf8DecodeChar?_extract, htail]
    exact ByteArray.utf8DecodeChar?_utf8EncodeChar_append
  rw [runeAt, hchar]

/-- Reading the bytes of characters meets just these characters. -/
theorem foldRunes_of_drop_eq {α : Type} (f : α → Rune → α) {b : ByteArray} {cs : List Char}
    {fuel i : Nat} (hi : i ≤ b.size) (hfuel : b.size ≤ i + fuel)
    (h : (Bytes.toBytes b).drop i = cs.flatMap String.utf8EncodeChar) (acc : α) :
    foldRunes f b fuel i acc = cs.foldl (fun acc c => f acc (.char c)) acc := by
  have hsize := Bytes.add_length_of_drop_eq hi h
  induction cs generalizing fuel i acc with
  | nil =>
    rw [List.flatMap_nil, List.length_nil] at hsize
    cases fuel with
    | zero => rfl
    | succ fuel => rw [foldRunes, if_neg (by omega), List.foldl_nil]
  | cons c cs ih =>
    have hpos := c.utf8Size_pos
    rw [List.flatMap_cons, List.length_append, String.length_utf8EncodeChar] at hsize
    rw [List.flatMap_cons] at h
    obtain ⟨fuel, rfl⟩ : ∃ k, fuel = k + 1 := ⟨fuel - 1, by omega⟩
    have hrest := Bytes.drop_add_of_drop_eq h
    rw [String.length_utf8EncodeChar] at hrest
    rw [foldRunes, if_pos (by omega)]
    simp only [runeAt_of_drop_eq h]
    rw [ih (by omega) (by omega) hrest _ (by omega), List.foldl_cons]

/-- **A string has no stray bytes.** -/
theorem isValid_ofString (s : String) : (ofString s).isValid = true := by
  have h : (Bytes.toBytes s.toUTF8).drop 0 = s.toList.flatMap String.utf8EncodeChar := by
    rw [List.drop_zero]
    exact utf8_eq s
  rw [isValid]
  refine (foldRunes_of_drop_eq _ (Nat.zero_le _) (Nat.le_add_left _ _) h true).trans ?_
  induction s.toList with
  | nil => rfl
  | cons c cs ih => exact ih

/-! ## Texts as strings -/

/-- A string is shown as it is. -/
theorem lossy_ofString (s : String) : (ofString s).lossy = s := by
  have h : (Bytes.toBytes s.toUTF8).drop 0 = s.toList.flatMap String.utf8EncodeChar := by
    rw [List.drop_zero]
    exact utf8_eq s
  have hpush : ∀ (cs : List Char) (acc : String),
      (cs.foldl String.push acc).toList = acc.toList ++ cs := by
    intro cs
    induction cs with
    | nil => exact fun acc => (List.append_nil _).symm
    | cons c cs ih =>
      intro acc
      rw [List.foldl_cons, ih, String.toList_push, List.append_assoc, List.singleton_append]
  rw [lossy, ← String.toList_inj]
  refine (congrArg String.toList
    (foldRunes_of_drop_eq _ (Nat.zero_le _) (Nat.le_add_left _ _) h "")).trans ?_
  exact hpush s.toList ""

/-- The bytes of the character that is read at an offset stand there. -/
theorem drop_of_utf8DecodeChar? {b : ByteArray} {i : Nat} {c : Char}
    (h : b.utf8DecodeChar? i = some c) :
    (Bytes.toBytes b).drop i
      = String.utf8EncodeChar c ++ (Bytes.toBytes b).drop (i + c.utf8Size) := by
  rw [ByteArray.utf8DecodeChar?_eq_utf8DecodeChar?_extract] at h
  have hfront := congrArg Bytes.toBytes (ByteArray.eq_of_utf8DecodeChar?_eq_some h)
  rw [Bytes.toBytes_append, Bytes.toBytes_extract_size, Bytes.toBytes_extract_size,
    Bytes.toBytes_extract_size, List.drop_drop] at hfront
  rw [hfront]
  simp [Bytes.toBytes]

/-- What is read from an offset on is shown as characters, and if none of them is a replacement
their bytes are all that stands there. -/
theorem exists_chars_of_foldRunes {f : String → Rune → String}
    (hchar : ∀ s c, f s (.char c) = s.push c) (hstray : ∀ s x, f s (.stray x) = s.push '\uFFFD')
    {b : ByteArray} {fuel i : Nat} (hfuel : b.size ≤ i + fuel) (acc : String) :
    ∃ cs, (foldRunes f b fuel i acc).toList = acc.toList ++ cs ∧
      ('\uFFFD' ∉ cs → (Bytes.toBytes b).drop i = cs.flatMap String.utf8EncodeChar) := by
  induction fuel generalizing i acc with
  | zero => exact ⟨[], (List.append_nil _).symm, fun _ => Bytes.drop_eq_nil_of_le (by omega)⟩
  | succ fuel ih =>
    rw [foldRunes]
    by_cases hi : i < b.size
    · rw [if_pos hi]
      dsimp only
      rw [runeAt]
      cases hdecode : b.utf8DecodeChar? i with
      | some c =>
        have hpos := c.utf8Size_pos
        obtain ⟨cs, htext, hbytes⟩ := ih (i := i + c.utf8Size) (by omega) (f acc (.char c))
        refine ⟨c :: cs, ?_, fun hnot => ?_⟩
        · rw [htext, hchar, String.toList_push, List.append_assoc, List.singleton_append]
        · rw [drop_of_utf8DecodeChar? hdecode, List.flatMap_cons,
            hbytes fun hmem => hnot (List.mem_cons_of_mem _ hmem)]
      | none =>
        obtain ⟨cs, htext, -⟩ := ih (i := i + 1) (by omega) (f acc (.stray (Bytes.byteAt b i)))
        refine ⟨'\uFFFD' :: cs, ?_, fun hnot => absurd List.mem_cons_self hnot⟩
        rw [htext, hstray, String.toList_push, List.append_assoc, List.singleton_append]
    · rw [if_neg hi]
      exact ⟨[], (List.append_nil _).symm, fun _ =>
        Bytes.drop_eq_nil_of_le (Nat.le_of_not_lt hi)⟩

/-- **A text that is shown without replacements is what it is shown as.** -/
theorem eq_ofString_of_lossy {t : Text} (h : '\uFFFD' ∉ t.lossy.toList) :
    t = ofString t.lossy := by
  obtain ⟨cs, htext, hbytes⟩ : ∃ cs, t.lossy.toList = "".toList ++ cs ∧
      ('\uFFFD' ∉ cs → (Bytes.toBytes t.bytes).drop 0 = cs.flatMap String.utf8EncodeChar) :=
    exists_chars_of_foldRunes (fun _ _ => rfl) (fun _ _ => rfl) (Nat.le_add_left _ _) ""
  obtain rfl : t.lossy.toList = cs := htext
  have hutf8 : Bytes.toBytes t.bytes = utf8 t.lossy := by
    rw [utf8_eq, ← hbytes h, List.drop_zero]
  obtain ⟨bytes⟩ := t
  exact congrArg Text.mk (Bytes.toBytes_inj.mp hutf8)

end Text

end BytecodeHost
