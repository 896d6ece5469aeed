import BytecodeHost.Proofs.Encoding.Base58
import BytecodeHost.Proofs.Encoding.Base64
import BytecodeHost.Proofs.Rpc.Effects

/-!
# Images in requests

An image goes through a server as text. However it is written when it is stored and however it is to
be written when it is asked for, it comes back byte for byte, under the identifier that its digest
is.

## Main results

* `ImageEncoding.decode_encode` — every encoding gives an image back
* `Rpc.answer_addImage`, `Rpc.answer_getImage` — storing an image, and asking for it
* `Rpc.addImage_getImage` — an image that is sent in one encoding is answered in any other
-/

namespace BytecodeHost

/-! ## Encodings -/

namespace ImageEncoding

/-- **Every encoding gives back what was written**, if it is not empty and no longer than an image
may be. -/
theorem decode_encode [Zstd.Compressor] [Zstd.LawfulCompressor] (e : ImageEncoding)
    {image : ByteArray} (hempty : image.size ≠ 0) (hsize : image.size ≤ maxImageSize) :
    e.decode (e.encode image) = .ok image := by
  cases e with
  | base58 => rw [encode, decode, Base58.decode_encode hempty, Except.mapError]
  | base64 => rw [encode, decode, Base64.decode_encode, Except.mapError]
  | base64Zstd =>
    have hcompressed : Zstd.decompress maxImageSize (Zstd.compress image) = some image :=
      Zstd.decompress_compress hsize (by decide) (Nat.le_trans hsize (by decide))
    simp only [encode, decode, Base64.decode_encode, hcompressed]

/-- The encoding that a response names is the one that it is in. -/
theorem named_name (e : ImageEncoding) : named e.name = .ok e := by
  cases e <;> rfl

/-- The names that encodings go by. -/
def names : List String :=
  ["base64", "base58", "base64+zstd", ""]

theorem exists_named {name : String} (h : name ∈ names) : ∃ e, named name = .ok e := by
  simp only [names, List.mem_cons, List.not_mem_nil, or_false] at h
  rcases h with rfl | rfl | rfl | rfl
  · exact ⟨.base64, rfl⟩
  · exact ⟨.base58, rfl⟩
  · exact ⟨.base64Zstd, rfl⟩
  · exact ⟨.base64, rfl⟩

end ImageEncoding

/-- An image with a header has at least the bytes of one. -/
theorem Header.size_ne_zero_of_parse {image : ByteArray} {header : Header}
    (h : parse image = .ok header) : image.size ≠ 0 := by
  intro hempty
  obtain rfl := ByteArray.size_eq_zero_iff.mp hempty
  contradiction

/-! ## Requests -/

namespace Rpc

/-- A request to store an image under a name. -/
def Request.addImage (id : JsonValue) (name text encoding : String) : Request where
  version := protocolVersion
  id := id
  method := "addModule"
  params := .array [.string name, .string text, .string encoding]

/-- A request for the image that is stored under a name. -/
def Request.getImage (id : JsonValue) (name encoding : String) : Request where
  version := protocolVersion
  id := id
  method := "getModule"
  params := .array [.string name, .object [("encoding", .string encoding)]]

/-- What is read from a request to store an image. -/
theorem additionOf_addImage {name text encoding : String} {e : ImageEncoding} {image : ByteArray}
    (hname : name ≠ "") (he : ImageEncoding.named encoding = .ok e)
    (htext : e.decode text = .ok image) (id : JsonValue) :
    additionOf (Request.addImage id name text encoding).params = .ok (name, image) := by
  simp [additionOf, Request.addImage, positional, JsonValue.toItems?, wordArgument, textArgument,
    argument, JsonValue.readText?, hname, he, htext, bind, Except.bind, Except.mapError, pure,
    Except.pure]

section

variable [Zstd.Compressor]

/-- What is stored under a name is answered in any encoding. -/
theorem answer_getImage {s : Storage} {name : String} (hname : name ≠ "") {record : ModuleRecord}
    {image : ByteArray} (hget : s.getModule record.id = .ok image)
    (hrecord : s.moduleRecord record.id = .ok record)
    (hresolve : s.resolveName name = .ok record.id) {encoding : String} {e : ImageEncoding}
    (he : ImageEncoding.named encoding = .ok e) (w : Setting) (id : JsonValue) :
    answer w s (.getImage id name encoding)
      = some (s, ⟨id, .ok (.module record (some (e.encode image, e)))⟩) := by
  have hconfig : configArgument [.string name, .object [("encoding", .string encoding)]]
      ModuleConfig.ofJson? = .ok ⟨encoding⟩ := rfl
  have hmodule := resolveModule_of_resolveName hname hresolve hrecord
    [.object [("encoding", .string encoding)]]
  have hanswer : getModule s (Request.getImage id name encoding).params
      = .ok (.module record (some (e.encode image, e))) := by
    simp [getModule, Request.getImage, positional, JsonValue.toItems?, hconfig, hmodule, hget, he,
      bind, Except.bind, Except.mapError, pure, Except.pure]
  rw [answer, if_neg (by simp [Request.getImage])]
  simp only [dispatch, Request.getImage] at hanswer ⊢
  rw [hanswer]

variable [Zstd.LawfulCompressor]

/-- A text of an image is stored as that image. -/
theorem answer_addImage {s : Storage} (hs : s.TakesImages) {name : String} (hname : name ≠ "")
    (hlength : name.utf8ByteSize ≤ ModuleStore.maxNameSize) {image : ByteArray} {header : Header}
    (hparse : Header.parse image = .ok header) {text encoding : String} {e : ImageEncoding}
    (he : ImageEncoding.named encoding = .ok e) (htext : e.decode text = .ok image) (w : Setting)
    (id : JsonValue) :
    ∃ s' record, answer w s (.addImage id name text encoding)
        = some (s', ⟨id, .ok (.module record none)⟩) ∧
      record.id = .ofImage image ∧ s'.getModule record.id = .ok image ∧
      s'.moduleRecord record.id = .ok record ∧ s'.resolveName name = .ok record.id := by
  have hcheck : ModuleStore.checkName name = .ok () := by
    have hpos : name.utf8ByteSize ≠ 0 := by simpa using hname
    rw [ModuleStore.checkName, if_neg hpos, if_neg (Nat.not_lt.mpr hlength)]
  obtain ⟨modules, record, hput, hget, hrecord, hresolve⟩ :=
    hs.exists_putModule w.env.now hcheck hparse
  have hid : record.id = .ofImage image := by
    obtain ⟨_, -, hrecorded⟩ := (Storage.stored_of_putModule hput).recorded
    rw [hrecorded, ModuleRecord.ofImage]
  have hadd : addModule s w.env.now (Request.addImage id name text encoding).params
      = ({ s with modules }, .ok (.module record none)) := by
    simp only [addModule, additionOf_addImage hname he htext, hput]
  refine ⟨{ s with modules }, record, ?_, hid, hget, hrecord, hresolve⟩
  rw [answer, if_neg (by simp [Request.addImage])]
  simp only [dispatch, Request.addImage] at hadd ⊢
  rw [hadd]

/-- **Images go through a server in every encoding.** What is written in an encoding is read back in
it, up to the size that an image may have. A server that takes images stores one that is sent in any
encoding under any name, and answers a request for it in any encoding with a text that is read, in
the encoding that the answer names, as the same image. The identifier in both answers is the digest
of the image. -/
theorem addImage_getImage :
    (∀ e ∈ ImageEncoding.names, ∃ encoding, ImageEncoding.named e = .ok encoding ∧
      ∀ b : ByteArray, b.size ≠ 0 → b.size ≤ maxImageSize →
        encoding.decode (encoding.encode b) = .ok b) ∧
    ∀ (s : Storage) (name : String) (image : ByteArray) (header : Header), s.TakesImages →
      name ≠ "" → name.utf8ByteSize ≤ ModuleStore.maxNameSize →
      Header.parse image = .ok header →
      ∀ e₁ ∈ ImageEncoding.names, ∀ e₂ ∈ ImageEncoding.names,
      ∀ (w w' : Setting) (id id' : JsonValue),
        ∃ sent s' record text answered, ImageEncoding.named e₁ = .ok sent ∧
          answer w s (.addImage id name (sent.encode image) e₁)
            = some (s', ⟨id, .ok (.module record none)⟩) ∧
          answer w' s' (.getImage id' name e₂)
            = some (s', ⟨id', .ok (.module record (some (text, answered)))⟩) ∧
          ImageEncoding.named answered.name = .ok answered ∧ answered.decode text = .ok image ∧
          record.id.toText = Base58.encode (Blake3.digest image) := by
  refine ⟨fun e he => ?_, ?_⟩
  · obtain ⟨encoding, hencoding⟩ := ImageEncoding.exists_named he
    exact ⟨encoding, hencoding, fun b hempty hsize => encoding.decode_encode hempty hsize⟩
  · intro s name image header hs hname hlength hparse e₁ he₁ e₂ he₂ w w' id id'
    obtain ⟨sent, hsent⟩ := ImageEncoding.exists_named he₁
    obtain ⟨wanted, hwanted⟩ := ImageEncoding.exists_named he₂
    have hread : ∀ e : ImageEncoding, e.decode (e.encode image) = .ok image := fun e =>
      e.decode_encode (Header.size_ne_zero_of_parse hparse) (Header.size_le_of_parse hparse)
    obtain ⟨s', record, hadd, hid, hget, hrecord, hresolve⟩ :=
      answer_addImage hs hname hlength hparse hsent (hread sent) w id
    refine ⟨sent, s', record, wanted.encode image, wanted, hsent, hadd,
      answer_getImage hname hget hrecord hresolve hwanted w' id', wanted.named_name, hread wanted,
      ?_⟩
    rw [hid, ModuleId.toText, ModuleId.ofImage]

end

/-- An image is compressed and read back; an empty server is sent it in base58, and is asked for it
without an encoding. -/
theorem addImage_getImage_tally :
    ImageEncoding.base64Zstd.decode (ImageEncoding.base64Zstd.encode Module.tallyImage)
      = .ok Module.tallyImage ∧
    ∃ s' record text answered,
      answer .tally {} (.addImage .null "tally" (ImageEncoding.base58.encode Module.tallyImage)
          "base58")
        = some (s', ⟨.null, .ok (.module record none)⟩) ∧
      answer .tally s' (.getImage .null "tally" "")
        = some (s', ⟨.null, .ok (.module record (some (text, answered)))⟩) ∧
      answered.decode text = .ok Module.tallyImage ∧
      record.id.toText = Base58.encode (Blake3.digest Module.tallyImage) := by
  obtain ⟨encoding, hencoding, hread⟩ := addImage_getImage.1 "base64+zstd" (by decide)
  obtain rfl : ImageEncoding.base64Zstd = encoding := Except.ok.inj hencoding
  refine ⟨hread _ (by decide +kernel) (by decide +kernel), ?_⟩
  have hparse : (Header.parse Module.tallyImage).toOption.isSome = true := by
    decide +kernel
  obtain ⟨header, hheader⟩ := Option.isSome_iff_exists.mp hparse
  obtain ⟨sent, s', record, text, answered, hsent, hadd, hget, -, hdecode, hid⟩ :=
    addImage_getImage.2 {} "tally" Module.tallyImage header ⟨rfl, fun _ _ => rfl⟩ (by decide)
      (by decide) (eq_ok_of_toOption hheader) "base58" (by decide) "" (by decide) .tally .tally
      .null .null
  obtain rfl : ImageEncoding.base58 = sent := Except.ok.inj hsent
  exact ⟨s', record, text, answered, hadd, hget, hdecode, hid⟩

end Rpc

end BytecodeHost
