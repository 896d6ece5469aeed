import BytecodeHost.Proofs.Log
import BytecodeHost.Proofs.ModuleStore.Transaction
import BytecodeHost.Proofs.Text

/-!
# What a module store makes of its history

A store keeps images, records and names apart, and every write touches all three. What it answers
does not depend on how they are kept, only on the writes that succeeded: an image is there from a
put of it until it is removed, a name stands for the image last put under it until that image is
removed, and a listing has a record of each image that is there.

So the log of the writes that succeeded is all that there is to know of a history, and it is only
asked one kind of question: which write of a kind came last, before something put an end to it.

## Main definitions

* `ModuleStore.after`, `ModuleStore.successes` — where a history ends, and the log of it
* `ModuleStore.Reflects` — a store holds what a log says
* `ModuleStore.Answers` — a store answers as a log says

## Main results

* `ModuleStore.Reflects.perform` — an operation keeps a store and its log in step
* `ModuleStore.Reflects.after` — so does a whole history
* `ModuleStore.answers_after` — a store answers as its history says
-/

namespace BytecodeHost

namespace ModuleRecord

/-! ## The order of records -/

theorem le_iff (a b : ModuleRecord) :
    le a b = true ↔ a.name < b.name ∨ a.name = b.name ∧
      (a.addedAt < b.addedAt ∨ a.addedAt = b.addedAt ∧ a.sequence ≤ b.sequence) := by
  simp [le]

theorem le_trans (a b c : ModuleRecord) (hab : le a b = true) (hbc : le b c = true) :
    le a c = true := by
  rw [le_iff] at hab hbc ⊢
  rcases hab with hab | ⟨hab, hab'⟩ <;> rcases hbc with hbc | ⟨hbc, hbc'⟩
  · exact .inl (String.lt_trans hab hbc)
  · exact .inl (hbc ▸ hab)
  · exact .inl (hab ▸ hbc)
  · exact .inr ⟨hab.trans hbc, by omega⟩

theorem le_total (a b : ModuleRecord) : (le a b || le b a) = true := by
  rw [Bool.or_eq_true, le_iff, le_iff]
  rcases Std.lt_trichotomy a.name b.name with h | h | h
  · exact .inl (.inl h)
  · rcases Nat.le_total a.sequence b.sequence with hs | hs <;>
      rcases Int.lt_trichotomy a.addedAt b.addedAt with ht | ht | ht <;> simp [h, ht, hs]
  · exact .inr (.inl h)

end ModuleRecord

namespace ModuleStore

/-! ## Histories -/

section

variable [Zstd.Compressor]

/-- Where a history ends. -/
def after (s : ModuleStore) (ops : List Operation) : ModuleStore :=
  ops.foldl (fun s o => (o.perform s).1) s

/-- The write that an operation is, if it succeeds. -/
def Operation.success? (s : ModuleStore) : Operation → Option Write
  | write w =>
    match (w.perform s).2 with
    | .ok _ => some w
    | .error _ => none
  | _ => none

/-- The writes of a history that succeed. -/
def successes (s : ModuleStore) : List Operation → List Write
  | [] => []
  | o :: ops => (o.success? s).toList ++ successes (o.perform s).1 ops

end

/-! ### Logs -/

/-- The name that a write puts an image under. -/
def Write.name? : Write → Option String
  | put _ name _ => some name
  | delete _ => none

/-- The image that a write puts. -/
def Write.stored? : Write → Option ModuleId
  | put _ _ image => some (.ofImage image)
  | delete _ => none

/-- When a write puts an image. -/
def Write.time? : Write → Option Int
  | put now _ _ => some now
  | delete _ => none

/-- How many images a log puts. -/
def putCount (log : List Write) : Nat :=
  (log.filterMap Write.time?).length

theorem Write.exists_put_of_stored? {w : Write} {id : ModuleId} (h : w.stored? = some id) :
    ∃ now name image, w = .put now name image ∧ .ofImage image = id := by
  cases w with
  | put now name image => exact ⟨now, name, image, rfl, Option.some.inj h⟩
  | delete id' => contradiction

/-- An image was put under a name; since then nothing was put under the name, and the image was not
removed. -/
def Named (log : List Write) (name : String) (id : ModuleId) : Prop :=
  ∃ before now image, .ofImage image = id ∧
    LastIn log before (.put now name image) fun w => w.name? = some name ∨ w = .delete id

/-- An image was put and was not removed since. -/
def Kept (log : List Write) (id : ModuleId) : Prop :=
  ∃ before now name image, .ofImage image = id ∧
    LastIn log before (.put now name image) fun w => w = .delete id

/-- An image was put after the writes `before`; since then it was not put again and not removed. -/
def LastPut (log : List Write) (id : ModuleId) (before : List Write) (now : Int) (name : String)
    (image : ByteArray) : Prop :=
  .ofImage image = id ∧
    LastIn log before (.put now name image) fun w => w.stored? = some id ∨ w = .delete id

section

variable {log before : List Write} {w : Write} {name : String} {id : ModuleId} {now : Int}
  {image : ByteArray}

theorem named_concat :
    Named (log ++ [w]) name id ↔ w.name? = some name ∧ w.stored? = some id ∨
      Named log name id ∧ w.name? ≠ some name ∧ w ≠ .delete id := by
  constructor
  · rintro ⟨before, now, image, hid, hlast⟩
    rcases lastIn_concat.mp hlast with ⟨-, rfl⟩ | ⟨hlast, hends⟩
    · exact .inl ⟨rfl, congrArg some hid⟩
    · exact .inr ⟨⟨before, now, image, hid, hlast⟩, not_or.mp hends⟩
  · rintro (⟨hname, hid⟩ | ⟨⟨before, now, image, hid, hlast⟩, hends⟩)
    · obtain ⟨now, name', image, rfl, himage⟩ := Write.exists_put_of_stored? hid
      obtain rfl := Option.some.inj hname
      exact ⟨log, now, image, himage, lastIn_concat.mpr (.inl ⟨rfl, rfl⟩)⟩
    · exact ⟨before, now, image, hid, lastIn_concat.mpr (.inr ⟨hlast, not_or.mpr hends⟩)⟩

theorem kept_concat :
    Kept (log ++ [w]) id ↔ w.stored? = some id ∨ Kept log id ∧ w ≠ .delete id := by
  constructor
  · rintro ⟨before, now, name, image, hid, hlast⟩
    rcases lastIn_concat.mp hlast with ⟨-, rfl⟩ | ⟨hlast, hends⟩
    · exact .inl (congrArg some hid)
    · exact .inr ⟨⟨before, now, name, image, hid, hlast⟩, hends⟩
  · rintro (hid | ⟨⟨before, now, name, image, hid, hlast⟩, hends⟩)
    · obtain ⟨now, name, image, rfl, himage⟩ := Write.exists_put_of_stored? hid
      exact ⟨log, now, name, image, himage, lastIn_concat.mpr (.inl ⟨rfl, rfl⟩)⟩
    · exact ⟨before, now, name, image, hid, lastIn_concat.mpr (.inr ⟨hlast, hends⟩)⟩

theorem lastPut_concat :
    LastPut (log ++ [w]) id before now name image ↔
      before = log ∧ w = .put now name image ∧ .ofImage image = id ∨
      LastPut log id before now name image ∧ w.stored? ≠ some id ∧ w ≠ .delete id := by
  rw [LastPut, LastPut, lastIn_concat, not_or]
  constructor
  · rintro ⟨hid, ⟨hbefore, hput⟩ | ⟨hlast, hends⟩⟩
    · exact .inl ⟨hbefore, hput.symm, hid⟩
    · exact .inr ⟨⟨hid, hlast⟩, hends⟩
  · rintro (⟨hbefore, hput, hid⟩ | ⟨⟨hid, hlast⟩, hends⟩)
    · exact ⟨hid, .inl ⟨hbefore, hput.symm⟩⟩
    · exact ⟨hid, .inr ⟨hlast, hends⟩⟩

end

/-! ## Writes -/

section

variable [Zstd.Compressor]

/-- What a write that succeeds makes of a store. -/
inductive Write.Makes (s : ModuleStore) : Write → ModuleStore → Prop where
  | put {now : Int} {name : String} {image : ByteArray} {header : Header}
    (hparse : Header.parse image = .ok header) :
    Makes s (.put now name image)
      (s.withImage name image (.ofImage name image header now s.puts))
  | delete {id : ModuleId} : Makes s (.delete id) (s.without id)

/-- A write fails and changes nothing, or it succeeds and does what it is there for. -/
theorem Write.perform_cases (w : Write) (s : ModuleStore) :
    (∃ e, w.perform s = (s, .error e)) ∨
      ∃ s' answer, w.perform s = (s', .ok answer) ∧ w.Makes s s' := by
  rw [w.perform_eq]
  cases w with
  | put now name image =>
    rw [run]
    cases hput : s.put now name image with
    | error e => exact .inl ⟨e, rfl⟩
    | ok result =>
      obtain ⟨s', r⟩ := result
      obtain ⟨-, header, hparse, rfl, rfl⟩ := put_eq_ok hput
      exact .inr ⟨_, _, rfl, .put hparse⟩
  | delete id =>
    rw [run]
    cases hdelete : s.delete id with
    | error e => exact .inl ⟨e, rfl⟩
    | ok s' =>
      obtain ⟨-, rfl⟩ := delete_eq_ok hdelete
      exact .inr ⟨_, _, rfl, .delete⟩

end

/-! ## A store and its log -/

section

variable {β : Type} {log : List Write} {f : List Write → Int → String → ByteArray → Option β}

/-- A table has for each image that is there what `f` makes of the last put of it. -/
def Holds (t : Table ModuleId β) (log : List Write)
    (f : List Write → Int → String → ByteArray → Option β) : Prop :=
  ∀ id v, t.get? id = some v ↔
    ∃ before now name image, LastPut log id before now name image ∧
      f before now name image = some v

theorem holds_empty : Holds .empty [] f := by
  intro id v
  refine iff_of_false (by simp [Table.get?, Table.empty]) ?_
  rintro ⟨before, now, name, image, ⟨-, hlast⟩, -⟩
  exact not_lastIn_nil hlast

theorem Holds.insert {t : Table ModuleId β} (h : Holds t log f) {now : Int} {name : String}
    {image : ByteArray} {v : β} (hv : f log now name image = some v) :
    Holds (t.insert (.ofImage image) v) (log ++ [.put now name image]) f := by
  intro id w
  rw [Table.get?_insert]
  simp only [lastPut_concat]
  constructor
  · intro hget
    split_ifs at hget with hid
    · exact ⟨log, now, name, image, .inl ⟨rfl, rfl, hid.symm⟩, hv.trans hget⟩
    · obtain ⟨before, now', name', image', hlast, hw⟩ := (h id w).mp hget
      have hother : (Write.put now name image).stored? ≠ some id := fun heq =>
        hid (Option.some.inj heq).symm
      exact ⟨before, now', name', image', .inr ⟨hlast, hother, Write.noConfusion⟩, hw⟩
  · rintro ⟨before, now', name', image', ⟨rfl, hput, rfl⟩ | ⟨hlast, hother, -⟩, hw⟩
    · obtain ⟨rfl, rfl, rfl⟩ := Write.put.inj hput
      rw [if_pos rfl, ← hv, hw]
    · rw [if_neg fun hid => hother (congrArg some hid.symm)]
      exact (h id w).mpr ⟨before, now', name', image', hlast, hw⟩

theorem Holds.erase {t : Table ModuleId β} (h : Holds t log f) (id : ModuleId) :
    Holds (t.erase id) (log ++ [.delete id]) f := by
  intro id' w
  rw [Table.get?_erase]
  simp only [lastPut_concat]
  constructor
  · intro hget
    split_ifs at hget with hid
    obtain ⟨before, now, name, image, hlast, hw⟩ := (h id' w).mp hget
    have hnot : (Write.delete id).stored? ≠ some id' := (Option.some_ne_none id').symm
    have hother : Write.delete id ≠ .delete id' := fun heq => hid (Write.delete.inj heq).symm
    exact ⟨before, now, name, image, .inr ⟨hlast, hnot, hother⟩, hw⟩
  · rintro ⟨before, now, name, image, ⟨-, hput, -⟩ | ⟨hlast, -, hother⟩, hw⟩
    · contradiction
    · rw [if_neg fun hid => hother (by rw [hid])]
      exact (h id' w).mpr ⟨before, now, name, image, hlast, hw⟩

end

/-- The record of a put. -/
def recordAfter (before : List Write) (now : Int) (name : String) (image : ByteArray) :
    Option ModuleRecord :=
  (Header.parse image).toOption.map fun header => .ofImage name image header now (putCount before)

section

variable [Zstd.Compressor]

/-- A store holds what a log says. -/
structure Reflects (s : ModuleStore) (log : List Write) : Prop where
  /-- Names stand for the images last put under them. -/
  names : ∀ name id, s.names.get? name = some id ↔ Named log name id
  /-- Images are kept as they were last put. -/
  images : Holds s.images log fun _ _ _ image => some (Zstd.compress image)
  /-- Records are those of the same puts. -/
  records : Holds s.records log recordAfter
  /-- All images of the log have headers. -/
  accepted : ∀ now name image, Write.put now name image ∈ log →
    ∃ header, Header.parse image = .ok header
  /-- The puts are counted. -/
  puts : s.puts = putCount log

theorem reflects_empty : Reflects {} [] where
  names name id := by
    refine iff_of_false (by simp [Table.get?, Table.empty]) ?_
    rintro ⟨before, now, image, -, hlast⟩
    exact not_lastIn_nil hlast
  images := holds_empty
  records := holds_empty
  accepted _ _ _ h := absurd h List.not_mem_nil
  puts := rfl

variable {s : ModuleStore} {log : List Write}

/-- What a user may do does not matter for what is held. -/
theorem Reflects.withAccess (h : Reflects s log) (access : Access) :
    Reflects { s with access } log :=
  ⟨h.names, h.images, h.records, h.accepted, h.puts⟩

theorem Reflects.put (h : Reflects s log) {now : Int} {name : String} {image : ByteArray}
    {header : Header} (hparse : Header.parse image = .ok header) :
    Reflects (s.withImage name image (.ofImage name image header now s.puts))
      (log ++ [.put now name image]) where
  names name' id := by
    rw [named_concat, ← h.names, withImage, Table.get?_insert]
    by_cases hname : name' = name
    · simp [hname, Write.name?, Write.stored?, ModuleRecord.ofImage]
    · have hne : some name ≠ some name' := fun heq => hname (Option.some.inj heq).symm
      simp [hname, hne, Write.name?]
  images := h.images.insert rfl
  records := h.records.insert (by rw [recordAfter, hparse, h.puts]; rfl)
  accepted now' name' image' hmem := by
    rcases List.mem_append.mp hmem with hmem | hmem
    · exact h.accepted now' name' image' hmem
    · obtain ⟨-, -, rfl⟩ := Write.put.inj (List.mem_singleton.mp hmem)
      exact ⟨header, hparse⟩
  puts := by simp [withImage, h.puts, putCount, Write.time?]

theorem Reflects.delete (h : Reflects s log) (id : ModuleId) :
    Reflects (s.without id) (log ++ [.delete id]) where
  names name id' := by
    rw [named_concat, ← h.names, without, Table.get?_filter, Option.filter_eq_some_iff]
    simp [Write.name?, @eq_comm _ id]
  images := h.images.erase id
  records := h.records.erase id
  accepted now name image hmem := by
    rcases List.mem_append.mp hmem with hmem | hmem
    · exact h.accepted now name image hmem
    · exact absurd (List.mem_singleton.mp hmem) Write.noConfusion
  puts := by simp [without, h.puts, putCount, Write.time?]

/-- **A write keeps a store and its log in step**, whether it succeeds or not. -/
theorem Reflects.write (h : Reflects s log) (w : Write) :
    Reflects (w.perform s).1 (log ++ ((Operation.write w).success? s).toList) := by
  rcases w.perform_cases s with ⟨e, hw⟩ | ⟨s', answer, hw, hmakes⟩
  · rw [Operation.success?, hw]
    exact (List.append_nil log).symm ▸ h
  · rw [Operation.success?, hw]
    cases hmakes with
    | put hparse => exact h.put hparse
    | delete => exact h.delete _

/-- **An operation keeps a store and its log in step.** -/
theorem Reflects.perform (h : Reflects s log) (o : Operation) :
    Reflects (o.perform s).1 (log ++ (o.success? s).toList) := by
  cases o with
  | write w => exact h.write w
  | query q => exact (List.append_nil log).symm ▸ h
  | close => exact (List.append_nil log).symm ▸ h.withAccess .closed
  | reopen => exact (List.append_nil log).symm ▸ h.withAccess .readWrite
  | reopenReadOnly => exact (List.append_nil log).symm ▸ h.withAccess .readOnly

/-- **A history keeps a store and its log in step.** -/
theorem Reflects.after (h : Reflects s log) (ops : List Operation) :
    Reflects (s.after ops) (log ++ s.successes ops) := by
  induction ops generalizing s log with
  | nil => simpa [ModuleStore.after, successes] using h
  | cons o ops ih =>
    rw [successes, ← List.append_assoc]
    exact ih (h.perform o)

end

/-! ## What a store answers -/

/-- The last put of one image came before the last put of another. -/
def PutBefore (log : List Write) (a b : ModuleId) : Prop :=
  ∃ before now name image before' now' name' image', LastPut log a before now name image ∧
    LastPut log b before' now' name' image' ∧ before.length < before'.length

/-- Records are listed by the bytes of their names, and under one name by their last puts. -/
def ListedBefore (log : List Write) (r r' : ModuleRecord) : Prop :=
  Text.utf8 r.name < Text.utf8 r'.name ∨ r.name = r'.name ∧ PutBefore log r.id r'.id

/-- The puts of a log are at ever later times. -/
def Timely (log : List Write) : Prop :=
  (log.filterMap Write.time?).Pairwise (· < ·)

/-- A store answers as a log says. -/
structure Answers (s : ModuleStore) (log : List Write) : Prop where
  /-- A name stands for the image last put under it, until that image is removed. -/
  resolve : ∀ name id, s.resolve name = .ok id ↔ Named log name id
  /-- An image is there from a put of it until it is removed. -/
  has : ∀ id, s.has id = true ↔ Kept log id
  /-- So are its bytes. -/
  exists_get : ∀ id, (∃ image, s.get id = .ok image) ↔ Kept log id
  /-- So is its record. -/
  exists_record : ∀ id, (∃ r, s.record id = .ok r) ↔ Kept log id
  /-- The bytes are those last put. -/
  get : ∀ id image, s.get id = .ok image ↔
    ∃ before now name, LastPut log id before now name image
  /-- The record is that of the last put. -/
  record : ∀ id r, s.record id = .ok r ↔
    ∃ before now name image header, LastPut log id before now name image ∧
      Header.parse image = .ok header ∧ r = .ofImage name image header now (putCount before)
  /-- There is one record for each image that is there, and they are listed in order. -/
  list : ∃ rs, s.list = .ok rs ∧ (rs.map (·.id)).Nodup ∧
    (∀ id, s.has id = true ↔ id ∈ rs.map (·.id)) ∧ (∀ r ∈ rs, s.record r.id = .ok r) ∧
    rs.Pairwise (ListedBefore log)
  /-- What is there is never damaged. -/
  get_error : ∀ id e, s.get id = .error e → e = .notFound

section

variable {s : ModuleStore} {log : List Write}

theorem LastPut.mem {before : List Write} {id : ModuleId} {now : Int} {name : String}
    {image : ByteArray} (h : LastPut log id before now name image) :
    Write.put now name image ∈ log :=
  h.2.mem

/-- What is kept was put a last time. -/
theorem kept_iff_exists_lastPut {id : ModuleId} :
    Kept log id ↔ ∃ before now name image, LastPut log id before now name image := by
  induction log using List.reverseRecOn with
  | nil =>
    constructor
    · rintro ⟨before, now, name, image, -, hlast⟩
      exact absurd hlast not_lastIn_nil
    · rintro ⟨before, now, name, image, -, hlast⟩
      exact absurd hlast not_lastIn_nil
  | append_singleton log w ih =>
    simp only [kept_concat, lastPut_concat, ih]
    constructor
    · intro hkept
      by_cases hid : w.stored? = some id
      · obtain ⟨now, name, image, rfl, himage⟩ := Write.exists_put_of_stored? hid
        exact ⟨log, now, name, image, .inl ⟨rfl, rfl, himage⟩⟩
      · obtain ⟨⟨before, now, name, image, hlast⟩, hends⟩ := hkept.resolve_left hid
        exact ⟨before, now, name, image, .inr ⟨hlast, hid, hends⟩⟩
    · rintro ⟨before, now, name, image, ⟨-, rfl, hid⟩ | ⟨hlast, -, hends⟩⟩
      · exact .inl (congrArg some hid)
      · exact .inr ⟨⟨before, now, name, image, hlast⟩, hends⟩

/-- Later puts are at later times. -/
theorem Timely.lt_of_lastPut (h : Timely log) {id id' : ModuleId} {before before' : List Write}
    {now now' : Int} {name name' : String} {image image' : ByteArray}
    (hput : LastPut log id before now name image)
    (hput' : LastPut log id' before' now' name' image') (hlt : before.length < before'.length) :
    now < now' := by
  rw [Timely, List.pairwise_filterMap, List.pairwise_iff_getElem] at h
  obtain ⟨hi, hat⟩ := List.getElem?_eq_some_iff.mp hput.2.getElem?_length
  obtain ⟨hj, hat'⟩ := List.getElem?_eq_some_iff.mp hput'.2.getElem?_length
  exact h _ _ hi hj hlt now (by rw [hat]; rfl) now' (by rw [hat']; rfl)

/-- What stands at one place of a log is one put. -/
theorem LastPut.id_eq {id id' : ModuleId} {before before' : List Write}
    {now now' : Int} {name name' : String} {image image' : ByteArray}
    (hput : LastPut log id before now name image)
    (hput' : LastPut log id' before' now' name' image') (heq : before.length = before'.length) :
    id = id' := by
  have hat := hput.2.getElem?_length
  rw [heq, hput'.2.getElem?_length] at hat
  obtain ⟨-, -, rfl⟩ := Write.put.inj (Option.some.inj hat)
  exact hput.1.symm.trans hput'.1

theorem resolve_eq_ok_iff_get? (hopen : s.requireOpen = .ok ()) (name : String) (id : ModuleId) :
    s.resolve name = .ok id ↔ s.names.get? name = some id := by
  simp only [resolve, hopen]
  cases s.names.get? name <;>
    simp [bind, Except.bind, pure, Except.pure, throw, throwThe, MonadExceptOf.throw]

theorem record_eq_ok_iff_get? (hopen : s.requireOpen = .ok ()) (id : ModuleId) (r : ModuleRecord) :
    s.record id = .ok r ↔ s.records.get? id = some r := by
  simp only [ModuleStore.record, hopen]
  cases s.records.get? id <;>
    simp [bind, Except.bind, pure, Except.pure, throw, throwThe, MonadExceptOf.throw]

theorem list_of_open (hopen : s.requireOpen = .ok ()) :
    s.list = .ok (s.records.values.mergeSort ModuleRecord.le) := by
  simp only [ModuleStore.list, hopen]
  rfl

variable [Zstd.Compressor]

namespace Reflects

theorem resolve_eq_ok_iff (h : Reflects s log) (hopen : s.requireOpen = .ok ()) (name : String)
    (id : ModuleId) : s.resolve name = .ok id ↔ Named log name id :=
  (resolve_eq_ok_iff_get? hopen name id).trans (h.names name id)

theorem record_eq_ok_iff (h : Reflects s log) (hopen : s.requireOpen = .ok ()) (id : ModuleId)
    (r : ModuleRecord) : s.record id = .ok r ↔
      ∃ before now name image header, LastPut log id before now name image ∧
        Header.parse image = .ok header ∧ r = .ofImage name image header now (putCount before) := by
  rw [record_eq_ok_iff_get? hopen, h.records]
  constructor
  · rintro ⟨before, now, name, image, hlast, hrecord⟩
    obtain ⟨header, hparse⟩ := h.accepted _ _ _ hlast.mem
    rw [recordAfter, hparse] at hrecord
    exact ⟨before, now, name, image, header, hlast, hparse, (Option.some.inj hrecord).symm⟩
  · rintro ⟨before, now, name, image, header, hlast, hparse, rfl⟩
    exact ⟨before, now, name, image, hlast, by rw [recordAfter, hparse]; rfl⟩

theorem get_of_not_kept (h : Reflects s log) (hopen : s.requireOpen = .ok ()) {id : ModuleId}
    (hkept : ¬Kept log id) : s.get id = .error .notFound := by
  have hstored : s.images.get? id = none := by
    refine Option.eq_none_iff_forall_ne_some.mpr fun stored hstored => hkept ?_
    obtain ⟨before, now, name, image, hlast, -⟩ := (h.images id stored).mp hstored
    exact kept_iff_exists_lastPut.mpr ⟨before, now, name, image, hlast⟩
  simp only [get, hopen, hstored]
  rfl

theorem exists_record_iff (h : Reflects s log) (hopen : s.requireOpen = .ok ()) (id : ModuleId) :
    (∃ r, s.record id = .ok r) ↔ Kept log id := by
  rw [kept_iff_exists_lastPut]
  constructor
  · rintro ⟨r, hr⟩
    obtain ⟨before, now, name, image, -, hlast, -⟩ := (h.record_eq_ok_iff hopen id r).mp hr
    exact ⟨before, now, name, image, hlast⟩
  · rintro ⟨before, now, name, image, hlast⟩
    obtain ⟨header, hparse⟩ := h.accepted _ _ _ hlast.mem
    exact ⟨_, (h.record_eq_ok_iff hopen id _).mpr
      ⟨before, now, name, image, header, hlast, hparse, rfl⟩⟩

theorem has_iff (h : Reflects s log) (hopen : s.access ≠ .closed) (id : ModuleId) :
    s.has id = true ↔ Kept log id := by
  rw [kept_iff_exists_lastPut]
  simp only [has, hopen, ne_eq, not_false_eq_true, decide_true, Bool.true_and, Table.contains]
  rw [Option.isSome_iff_exists]
  constructor
  · rintro ⟨stored, hstored⟩
    obtain ⟨before, now, name, image, hlast, -⟩ := (h.images id stored).mp hstored
    exact ⟨before, now, name, image, hlast⟩
  · rintro ⟨before, now, name, image, hlast⟩
    exact ⟨_, (h.images id _).mpr ⟨before, now, name, image, hlast, rfl⟩⟩

/-- Records are kept under their identifiers. -/
theorem id_of_get? (h : Reflects s log) {id : ModuleId} {r : ModuleRecord}
    (hget : s.records.get? id = some r) : r.id = id := by
  obtain ⟨before, now, name, image, hlast, hrecord⟩ := (h.records id r).mp hget
  obtain ⟨header, hparse⟩ := h.accepted _ _ _ hlast.mem
  rw [recordAfter, hparse] at hrecord
  rw [← Option.some.inj hrecord]
  exact hlast.1

/-- **One record is listed for each image that is there.** -/
theorem exists_list (h : Reflects s log) (hopen : s.requireOpen = .ok ()) :
    ∃ rs, s.list = .ok rs ∧ (rs.map (·.id)).Nodup ∧ (∀ r, r ∈ rs ↔ s.record r.id = .ok r) ∧
      rs.Pairwise fun a b => ModuleRecord.le a b = true := by
  have hkeys : s.records.values.map (·.id) = s.records.entries.map (·.1) := by
    rw [Table.values, List.map_map]
    refine List.map_congr_left fun e he => ?_
    exact h.id_of_get? ((s.records.get?_eq_some_iff _ _).mpr he)
  refine ⟨_, list_of_open hopen, ?_, fun r => ?_,
    List.pairwise_mergeSort ModuleRecord.le_trans ModuleRecord.le_total _⟩
  · rw [((List.mergeSort_perm _ _).map _).nodup_iff, hkeys]
    exact s.records.nodup_keys
  · rw [List.mem_mergeSort, record_eq_ok_iff_get? hopen, s.records.get?_eq_some_iff, Table.values,
      List.mem_map]
    constructor
    · rintro ⟨⟨id, r'⟩, he, rfl⟩
      rw [h.id_of_get? ((s.records.get?_eq_some_iff _ _).mpr he)]
      exact he
    · intro he
      exact ⟨_, he, rfl⟩

/-- Under one name, records are in the order of their times, which is that of their puts. -/
theorem listedBefore_of_le (h : Reflects s log) (hopen : s.requireOpen = .ok ())
    (htimes : Timely log) {a b : ModuleRecord} (ha : s.record a.id = .ok a)
    (hb : s.record b.id = .ok b) (hne : a.id ≠ b.id) (hle : ModuleRecord.le a b = true) :
    ListedBefore log a b := by
  obtain ⟨before, now, name, image, header, hlast, -, hrecord⟩ :=
    (h.record_eq_ok_iff hopen _ a).mp ha
  obtain ⟨before', now', name', image', header', hlast', -, hrecord'⟩ :=
    (h.record_eq_ok_iff hopen _ b).mp hb
  rcases (ModuleRecord.le_iff a b).mp hle with hname | ⟨hname, htime⟩
  · exact .inl ((Text.lt_iff_utf8_lt _ _).mp hname)
  · refine .inr ⟨hname, before, now, name, image, before', now', name', image', hlast, hlast', ?_⟩
    have hnow : now ≤ now' := by
      rw [hrecord, hrecord'] at htime
      rcases htime with hlt | ⟨heq, -⟩
      · exact Int.le_of_lt hlt
      · exact Int.le_of_eq heq
    rcases Nat.lt_trichotomy before.length before'.length with hlt | heq | hgt
    · exact hlt
    · exact absurd (hlast.id_eq hlast' heq) hne
    · exact absurd (htimes.lt_of_lastPut hlast' hlast hgt) (Int.not_lt.mpr hnow)

variable [Zstd.LawfulCompressor]

/-- What was put decompresses to itself, with the identifier that it is kept under. -/
theorem get_of_lastPut (h : Reflects s log) (hopen : s.requireOpen = .ok ()) {id : ModuleId}
    {before : List Write} {now : Int} {name : String} {image : ByteArray}
    (hlast : LastPut log id before now name image) : s.get id = .ok image := by
  obtain ⟨header, hparse⟩ := h.accepted _ _ _ hlast.mem
  have hsize := Header.size_le_of_parse hparse
  have hstored : s.images.get? id = some (Zstd.compress image) :=
    (h.images id _).mpr ⟨before, now, name, image, hlast, rfl⟩
  have hread : Zstd.decompress maxStoredSize (Zstd.compress image) = some image :=
    Zstd.decompress_compress (Nat.le_trans hsize (by decide)) (by decide)
      (Nat.le_trans hsize (by decide))
  simp only [get, hopen, hstored, hread, if_pos hlast.1]
  rfl

theorem get_eq_ok_iff (h : Reflects s log) (hopen : s.requireOpen = .ok ()) (id : ModuleId)
    (image : ByteArray) : s.get id = .ok image ↔
      ∃ before now name, LastPut log id before now name image := by
  constructor
  · intro hok
    by_cases hkept : Kept log id
    · obtain ⟨before, now, name, image', hlast⟩ := kept_iff_exists_lastPut.mp hkept
      rw [h.get_of_lastPut hopen hlast] at hok
      exact ⟨before, now, name, Except.ok.inj hok ▸ hlast⟩
    · rw [h.get_of_not_kept hopen hkept] at hok
      contradiction
  · rintro ⟨before, now, name, hlast⟩
    exact h.get_of_lastPut hopen hlast

theorem exists_get_iff (h : Reflects s log) (hopen : s.requireOpen = .ok ()) (id : ModuleId) :
    (∃ image, s.get id = .ok image) ↔ Kept log id := by
  constructor
  · rintro ⟨image, hok⟩
    obtain ⟨before, now, name, hlast⟩ := (h.get_eq_ok_iff hopen id image).mp hok
    exact kept_iff_exists_lastPut.mpr ⟨before, now, name, image, hlast⟩
  · intro hkept
    obtain ⟨before, now, name, image, hlast⟩ := kept_iff_exists_lastPut.mp hkept
    exact ⟨image, h.get_of_lastPut hopen hlast⟩

theorem eq_notFound_of_get (h : Reflects s log) (hopen : s.requireOpen = .ok ()) {id : ModuleId}
    {e : Error} (he : s.get id = .error e) : e = .notFound := by
  by_cases hkept : Kept log id
  · obtain ⟨image, hok⟩ := (h.exists_get_iff hopen id).mpr hkept
    rw [hok] at he
    contradiction
  · rw [h.get_of_not_kept hopen hkept] at he
    exact (Except.error.inj he).symm

/-- **A store that holds what a log says answers so.** -/
theorem answers (h : Reflects s log) (haccess : s.access ≠ .closed) (htimes : Timely log) :
    Answers s log := by
  have hopen : s.requireOpen = .ok () := if_neg haccess
  obtain ⟨rs, hlist, hnodup, hmem, hsorted⟩ := h.exists_list hopen
  refine
    { resolve := h.resolve_eq_ok_iff hopen
      has := h.has_iff haccess
      exists_get := h.exists_get_iff hopen
      exists_record := h.exists_record_iff hopen
      get := h.get_eq_ok_iff hopen
      record := h.record_eq_ok_iff hopen
      list := ⟨rs, hlist, hnodup, fun id => ?_, fun r => (hmem r).mp, ?_⟩
      get_error := fun _ _ => h.eq_notFound_of_get hopen }
  · rw [h.has_iff haccess, ← h.exists_record_iff hopen, List.mem_map]
    constructor
    · rintro ⟨r, hr⟩
      have hid := h.id_of_get? ((record_eq_ok_iff_get? hopen id r).mp hr)
      exact ⟨r, (hmem r).mpr (by rw [hid, hr]), hid⟩
    · rintro ⟨r, hr, rfl⟩
      exact ⟨r, (hmem r).mp hr⟩
  · refine (hsorted.and (List.pairwise_map.mp hnodup)).imp_of_mem ?_
    rintro a b ha hb ⟨hle, hne⟩
    exact h.listedBefore_of_le hopen htimes ((hmem a).mp ha) ((hmem b).mp hb) hne hle

end Reflects

/-- **A store answers as its history says.** The history is of any operations on a new store; at its
end the store is open, for writing or for reading only. Only the writes that succeeded count. -/
theorem answers_after [Zstd.LawfulCompressor] (ops : List Operation)
    (hopen : (after {} ops).access ≠ .closed) (htimes : Timely (successes {} ops)) :
    Answers (after {} ops) (successes {} ops) :=
  (reflects_empty.after ops).answers hopen htimes

end

/-! ### A sample -/

/-- An image is put under two names, removed and put again. What is tried while the store is closed
or read only fails. -/
def sampleHistory : List Operation :=
  let image := Module.sampleImage
  [.write (.put 1 "a" image), .write (.put 2 "b" image), .close, .write (.put 3 "c" image), .reopen,
    .write (.delete (.ofImage image)), .write (.put 4 "a" image), .reopenReadOnly,
    .write (.delete (.ofImage image))]

/-- Three of the puts succeed, and the store is open in the end. -/
theorem answers_after_sampleHistory :
    (after {} sampleHistory).access = .readOnly ∧
      (successes {} sampleHistory).filterMap Write.time? = [1, 2, 4] ∧
      Answers (after {} sampleHistory) (successes {} sampleHistory) := by
  have haccess : (after {} sampleHistory).access = .readOnly := by
    decide +kernel
  have hputs : (successes {} sampleHistory).filterMap Write.time? = [1, 2, 4] := by
    decide +kernel
  have htimes : Timely (successes {} sampleHistory) := by
    rw [Timely, hputs]
    decide
  exact ⟨haccess, hputs, answers_after sampleHistory (by rw [haccess]; decide) htimes⟩

end ModuleStore

end BytecodeHost
