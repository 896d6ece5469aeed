import BytecodeHost.Proofs.Snapshot.History

/-!
# Snapshots under the keys of a byte store

`SnapshotStore` keeps what it keeps in a table of places. Below it lies a store that knows bytes
only. A snapshot has two pairs there, one for the description and one for the arena, and the key of
each is a tag, the bytes of the module and the bytes of the label, one after the other. The
snapshots of a module are what is found behind a common prefix, in the order of the keys.

Nothing separates the parts of a key. That they can still be told apart rests on the first two being
of fixed size: one label may well be a prefix of another, but then only the shorter one's key ends
there. And since labels stand last, keys under one prefix are in the order of the labels.

Here the operations are spelled out on such a store, with the errors that can only come of pairs
that do not fit together. These errors never come up.

## Main definitions

* `SnapshotStore.key` — the key of a tag, a module and a label
* `SnapshotStore.Medium`, `SnapshotStore.Medium.run` — a store of bytes, and the operations on it
* `SnapshotStore.Represents` — a store of bytes holds what a table of places does

## Main results

* `SnapshotStore.key_inj`, `SnapshotStore.prefix_key_iff` — the parts of a key can be told apart
* `SnapshotStore.Represents.scan_eq` — behind the prefix of a module stand its descriptions, in
  order
* `SnapshotStore.Represents.run` — both stores come to the same, operation by operation
* `SnapshotStore.answers_history` — both answer as their history says
-/

namespace BytecodeHost

namespace SnapshotStore

open Snapshot (Info)

/-! ## Keys -/

/-- What the keys of descriptions start with. -/
def infoTag : UInt8 := 0x6D

/-- What the keys of arenas start with. -/
def dataTag : UInt8 := 0x64

theorem tags_ne : infoTag ≠ dataTag := by
  decide

/-- What the keys of a module's snapshots start with. -/
def keyPrefix (tag : UInt8) (id : ModuleId) : List UInt8 :=
  tag :: Bytes.toBytes id.bytes

/-- The key of a tag, a module and a label. -/
def key (tag : UInt8) (id : ModuleId) (label : String) : List UInt8 :=
  keyPrefix tag id ++ Text.utf8 label

theorem length_keyPrefix (tag : UInt8) (id : ModuleId) : (keyPrefix tag id).length = 33 := by
  rw [keyPrefix, List.length_cons, Bytes.length_toBytes, id.size_bytes]

theorem utf8_inj {a b : String} (h : Text.utf8 a = Text.utf8 b) : a = b := by
  rcases Std.lt_trichotomy a b with hlt | heq | hgt
  · exact absurd (h ▸ (Text.lt_iff_utf8_lt a b).mp hlt) (List.lt_irrefl _)
  · exact heq
  · exact absurd (h ▸ (Text.lt_iff_utf8_lt b a).mp hgt) (List.lt_irrefl _)

theorem keyPrefix_inj {tag tag' : UInt8} {id id' : ModuleId}
    (h : keyPrefix tag id = keyPrefix tag' id') : tag = tag' ∧ id = id' := by
  obtain ⟨htag, hbytes⟩ := List.cons.inj h
  cases id
  cases id'
  obtain rfl := Bytes.toBytes_inj.mp hbytes
  exact ⟨htag, rfl⟩

/-- A key has the prefix of a module if it is a key of that module. -/
theorem prefix_key_iff {tag tag' : UInt8} {id id' : ModuleId} {label : String} :
    keyPrefix tag id <+: key tag' id' label ↔ tag = tag' ∧ id = id' := by
  constructor
  · intro h
    have hlength : (keyPrefix tag id).length = (keyPrefix tag' id').length := by
      rw [length_keyPrefix, length_keyPrefix]
    have hfront := List.prefix_of_prefix_length_le h (List.prefix_append _ _) hlength.le
    exact keyPrefix_inj (hfront.eq_of_length hlength)
  · rintro ⟨rfl, rfl⟩
    exact List.prefix_append _ _

/-- **The parts of a key can be told apart**, whatever the labels have in common. -/
theorem key_inj {tag tag' : UInt8} {id id' : ModuleId} {label label' : String} :
    key tag id label = key tag' id' label' ↔ tag = tag' ∧ id = id' ∧ label = label' := by
  constructor
  · intro h
    have hfront : keyPrefix tag id <+: key tag' id' label' := h ▸ List.prefix_append _ _
    obtain ⟨rfl, rfl⟩ := prefix_key_iff.mp hfront
    exact ⟨rfl, rfl, utf8_inj (List.append_cancel_left h)⟩
  · rintro ⟨rfl, rfl, rfl⟩
    rfl

/-- Keys under one prefix are in the order of the labels. -/
theorem key_lt_key {a b : String} (h : Text.utf8 a < Text.utf8 b) (tag : UInt8) (id : ModuleId) :
    key tag id a < key tag id b :=
  List.append_left_lt h

/-! ## A store of bytes -/

/-- A store of pairs of byte strings. -/
structure Medium where
  /-- The pairs, by key. -/
  pairs : Table (List UInt8) ByteArray := .empty
  /-- Whether the store is no longer used. -/
  closed : Bool := false

/-- Why an operation on a store of bytes fails. -/
inductive Fault where
  /-- For a reason that has nothing to do with pairs. -/
  | store (e : Error)
  /-- What should be a description is none. -/
  | unreadable
  /-- There is a description without an arena. -/
  | dataMissing (id : ModuleId) (label : String)

namespace Medium

variable [Zstd.Compressor]

/-- Refuses every use of a closed store. -/
def requireOpen (m : Medium) : Except Fault Unit :=
  if m.closed then .error (.store .closed) else .ok ()

/-- The description that a pair holds. -/
def readInfo (bytes : ByteArray) : Except Fault Info :=
  match (Cbor.parse? bytes).bind Info.ofCbor? with
  | some info => .ok info
  | none => .error .unreadable

/-- The pairs whose keys have a prefix, in the order of their keys. -/
def scan (m : Medium) (front : List UInt8) : List (List UInt8 × ByteArray) :=
  (m.pairs.entries.filter fun e => front.isPrefixOf e.1).mergeSort fun a b => a.1 ≤ b.1

/-- Writes both pairs of a snapshot. -/
def save (m : Medium) (now : Int) (id : ModuleId) (label : String) (arena : ByteArray) :
    Except Fault (Medium × Info) := do
  if !Snapshot.isLabel label then throw (.store .invalidLabel)
  m.requireOpen
  let e := entryOf now id label arena
  let pairs := m.pairs.insert (key dataTag id label) e.compressed
  return ({ m with pairs := pairs.insert (key infoTag id label) e.info.toCbor.encode }, e.info)

/-- Reads both pairs of a snapshot, and checks the arena against its digest. -/
def load (m : Medium) (id : ModuleId) (label : String) : Except Fault (ByteArray × Info) := do
  m.requireOpen
  match m.pairs.get? (key infoTag id label) with
  | none => throw (.store (.notFound id label))
  | some bytes =>
    let info ← readInfo bytes
    match m.pairs.get? (key dataTag id label) with
    | none => throw (.dataMissing id label)
    | some compressed =>
      match Zstd.decompress maxSavedSize compressed with
      | none => throw (.store .undecodable)
      | some arena =>
        if Blake3.digest arena = info.digest then return (arena, info)
        else throw (.store (.digestMismatch id label))

/-- Reads the descriptions behind the prefix of a module. -/
def list (m : Medium) (id : ModuleId) : Except Fault (List Info) := do
  m.requireOpen
  (m.scan (keyPrefix infoTag id)).mapM fun e => readInfo e.2

/-- Removes both pairs of a snapshot. -/
def delete (m : Medium) (id : ModuleId) (label : String) : Except Fault Medium := do
  m.requireOpen
  if m.pairs.contains (key infoTag id label) then
    let pairs := m.pairs.erase (key infoTag id label)
    return { m with pairs := pairs.erase (key dataTag id label) }
  else throw (.store (.notFound id label))

/-- Ends the use of a store. -/
def close (m : Medium) : Medium :=
  { m with closed := true }

/-- The store after an operation, and the answer. -/
def run (m : Medium) : Operation → Except Fault (Medium × Answer)
  | .write (.save now id label arena) => do
    let (m, info) ← m.save now id label arena
    return (m, .saved info)
  | .write (.delete id label) => do
    let m ← m.delete id label
    return (m, .deleted)
  | .load id label => do
    let (arena, info) ← m.load id label
    return (m, .loaded arena info)
  | .list id => do
    let infos ← m.list id
    return (m, .listed infos)

end Medium

/-! ## What a store of bytes holds -/

/-- A store of bytes has the two pairs of each place where a table has an entry, and no others. -/
structure Represents (m : Medium) (s : SnapshotStore) : Prop where
  /-- Both are open, or both are closed. -/
  closed : m.closed = s.closed
  /-- One pair of a place is the description. -/
  info : ∀ id label, m.pairs.get? (key infoTag id label)
    = (s.entries.get? (id, label)).map fun e => e.info.toCbor.encode
  /-- The other is the arena. -/
  data : ∀ id label, m.pairs.get? (key dataTag id label)
    = (s.entries.get? (id, label)).map (·.compressed)
  /-- Every pair belongs to a place. -/
  keys : ∀ k, m.pairs.get? k ≠ none →
    ∃ tag id label, k = key tag id label ∧ (tag = infoTag ∨ tag = dataTag)
  /-- Descriptions can be read back from their pairs. -/
  writable : ∀ id label e, s.entries.get? (id, label) = some e → e.info.Writable
  /-- They are filed under what they tell. -/
  filed : Filed s

theorem represents_empty : Represents {} {} where
  closed := rfl
  info := fun _ _ => rfl
  data := fun _ _ => rfl
  keys := fun _ h => absurd rfl h
  writable := fun _ _ _ h => absurd h (by simp [Table.get?, Table.empty])
  filed := fun _ _ _ h => absurd h (by simp [Table.get?, Table.empty])

/-- A description that is written as a pair is read back. -/
theorem readInfo_encode {i : Info} (h : i.Writable) :
    Medium.readInfo i.toCbor.encode = .ok i := by
  have hfits : i.toCbor.Fits Cbor.maxDepth := Snapshot.fits_toCbor h (by decide)
  simp only [Medium.readInfo, Cbor.parse?_encode hfits, Option.bind, Snapshot.ofCbor?_toCbor h]

theorem mapM_readInfo {infos : List Info} (h : ∀ i ∈ infos, i.Writable)
    (f : Info → List UInt8 × ByteArray) (hf : ∀ i, (f i).2 = i.toCbor.encode) :
    (infos.map f).mapM (fun e => Medium.readInfo e.2) = .ok infos := by
  induction infos with
  | nil => rfl
  | cons i infos ih =>
    have hrest := ih fun j hj => h j (List.mem_cons_of_mem i hj)
    rw [List.map_cons, List.mapM_cons, hf, readInfo_encode (h i List.mem_cons_self), hrest]
    rfl

section

variable {m : Medium} {s : SnapshotStore} {id : ModuleId} {label : String}

namespace Represents

/-- Pairs in the order of their keys. -/
theorem pairwise_scan (m : Medium) (front : List UInt8) :
    (m.scan front).Pairwise fun a b => a.1 < b.1 := by
  have htrans : ∀ a b c : List UInt8 × ByteArray, decide (a.1 ≤ b.1) = true →
      decide (b.1 ≤ c.1) = true → decide (a.1 ≤ c.1) = true := by
    intro a b c hab hbc
    rw [decide_eq_true_iff] at hab hbc ⊢
    exact Std.le_trans hab hbc
  have htotal : ∀ a b : List UInt8 × ByteArray,
      (decide (a.1 ≤ b.1) || decide (b.1 ≤ a.1)) = true := by
    intro a b
    rw [Bool.or_eq_true, decide_eq_true_iff, decide_eq_true_iff]
    exact Std.le_total
  have hsorted := List.pairwise_mergeSort htrans htotal
    (m.pairs.entries.filter fun e => front.isPrefixOf e.1)
  have hdistinct : ((m.scan front).map (·.1)).Nodup := by
    refine ((List.mergeSort_perm _ _).map _).nodup_iff.mpr ?_
    exact (List.filter_sublist.map _).nodup m.pairs.nodup_keys
  refine (hsorted.and (List.pairwise_map.mp hdistinct)).imp ?_
  rintro a b ⟨hle, hne⟩
  exact Std.lt_of_le_of_ne (of_decide_eq_true hle) hne

/-- **Behind the prefix of a module stand its descriptions**, in the order of their labels. -/
theorem scan_eq (h : Represents m s) {infos : List Info}
    (hmem : ∀ i, i ∈ infos ↔ ∃ label e, s.entries.get? (id, label) = some e ∧ i = e.info)
    (hsorted : infos.Pairwise fun a b => Text.utf8 a.label < Text.utf8 b.label) :
    m.scan (keyPrefix infoTag id)
      = infos.map fun i => (key infoTag id i.label, i.toCbor.encode) := by
  have hkeys : (infos.map fun i => (key infoTag id i.label, i.toCbor.encode)).Pairwise
      fun a b => a.1 < b.1 :=
    List.pairwise_map.mpr (hsorted.imp fun hlt => key_lt_key hlt infoTag id)
  refine eq_of_sorted (·.1) (pairwise_scan m _) hkeys fun e => ?_
  rw [Medium.scan, List.mem_mergeSort, List.mem_filter, List.isPrefixOf_iff_prefix,
    ← m.pairs.get?_eq_some_iff, List.mem_map]
  constructor
  · rintro ⟨hget, hfront⟩
    obtain ⟨tag, id', label, hkey, -⟩ := h.keys e.1 (by simp [hget])
    rw [hkey] at hfront
    obtain ⟨rfl, rfl⟩ := prefix_key_iff.mp hfront
    rw [hkey, h.info] at hget
    obtain ⟨entry, hentry, hbytes⟩ := Option.map_eq_some_iff.mp hget
    refine ⟨entry.info, (hmem _).mpr ⟨label, entry, hentry, rfl⟩, ?_⟩
    rw [(h.filed id label entry hentry).2]
    exact Prod.ext hkey.symm hbytes
  · rintro ⟨i, hi, rfl⟩
    obtain ⟨label, entry, hentry, rfl⟩ := (hmem i).mp hi
    rw [(h.filed id label entry hentry).2]
    refine ⟨?_, List.prefix_append _ _⟩
    rw [h.info, hentry]
    rfl

theorem close (h : Represents m s) : Represents m.close s.close :=
  { h with closed := rfl }

end Represents

variable [Zstd.Compressor]

/-- What a save stores can be written as a pair. -/
theorem Storable.writable {now : Int} {arena : ByteArray} (h : Storable now arena)
    (id : ModuleId) {label : String} (hlabel : Snapshot.isLabel label = true) :
    (entryOf now id label arena).info.Writable where
  isLabel := hlabel
  size := h.size
  stored := h.stored
  digest := Blake3.size_digest arena
  createdAt := h.time

namespace Represents

/-- Both pairs of a save stand for its entry. -/
theorem save (h : Represents m s) (id : ModuleId) {now : Int} {arena : ByteArray}
    (hlabel : Snapshot.isLabel label = true) (hstorable : Storable now arena) :
    Represents
      { m with
        pairs :=
          (m.pairs.insert (key dataTag id label) (entryOf now id label arena).compressed).insert
            (key infoTag id label) (entryOf now id label arena).info.toCbor.encode }
      { s with entries := s.entries.insert (id, label) (entryOf now id label arena) } where
  closed := h.closed
  info := by
    intro id' label'
    simp only [Table.get?_insert, key_inj, tags_ne, true_and, false_and, if_false, Prod.mk.injEq,
      h.info]
    split_ifs <;> rfl
  data := by
    intro id' label'
    simp only [Table.get?_insert, key_inj, tags_ne.symm, true_and, false_and, if_false,
      Prod.mk.injEq, h.data]
    split_ifs <;> rfl
  keys := by
    intro k hk
    simp only [Table.get?_insert] at hk
    split_ifs at hk with hinfo hdata
    · exact ⟨infoTag, id, label, hinfo, .inl rfl⟩
    · exact ⟨dataTag, id, label, hdata, .inr rfl⟩
    · exact h.keys k hk
  writable := by
    intro id' label' e hget
    rw [Table.get?_insert] at hget
    split_ifs at hget with hplace
    · rw [← Option.some.inj hget]
      exact hstorable.writable id hlabel
    · exact h.writable id' label' e hget
  filed := h.filed.done (.save now id label arena)

/-- Without both pairs of a place, its entry is gone. -/
theorem delete (h : Represents m s) (id : ModuleId) (label : String) :
    Represents
      { m with pairs := (m.pairs.erase (key infoTag id label)).erase (key dataTag id label) }
      { s with entries := s.entries.erase (id, label) } where
  closed := h.closed
  info := by
    intro id' label'
    simp only [Table.get?_erase, key_inj, tags_ne, true_and, false_and, if_false, Prod.mk.injEq,
      h.info]
    split_ifs <;> rfl
  data := by
    intro id' label'
    simp only [Table.get?_erase, key_inj, tags_ne.symm, true_and, false_and, if_false,
      Prod.mk.injEq, h.data]
    split_ifs <;> rfl
  keys := by
    intro k hk
    simp only [Table.get?_erase] at hk
    split_ifs at hk
    · exact absurd rfl hk
    · exact absurd rfl hk
    · exact h.keys k hk
  writable := by
    intro id' label' e hget
    rw [Table.get?_erase] at hget
    split_ifs at hget
    exact h.writable id' label' e hget
  filed := h.filed.done (.delete id label)

end Represents

/-- What comes of one operation on both stores: the same answer and stores that hold the same, or
the same error. -/
inductive SameOutcome :
    Except Fault (Medium × Answer) → Except Error (SnapshotStore × Answer) → Prop where
  | ok {m : Medium} {s : SnapshotStore} (h : Represents m s) (a : Answer) :
    SameOutcome (.ok (m, a)) (.ok (s, a))
  | error (e : Error) : SameOutcome (.error (.store e)) (.error e)

namespace Represents

theorem run_save (h : Represents m s) {now : Int} {arena : ByteArray}
    (hstorable : Storable now arena) :
    SameOutcome (m.run (.write (.save now id label arena)))
      (s.run (.write (.save now id label arena))) := by
  rw [SnapshotStore.run, save_eq, Medium.run, Medium.save, Medium.requireOpen, h.closed]
  cases hlabel : Snapshot.isLabel label with
  | false => exact .error .invalidLabel
  | true =>
    cases hopen : s.closed with
    | true => exact .error .closed
    | false =>
      have hsaved := h.save id hlabel hstorable
      rw [h.closed, hopen] at hsaved
      exact .ok hsaved _

theorem run_delete (h : Represents m s) :
    SameOutcome (m.run (.write (.delete id label))) (s.run (.write (.delete id label))) := by
  have hfound : m.pairs.contains (key infoTag id label) = s.entries.contains (id, label) := by
    rw [Table.contains, Table.contains, h.info, Option.isSome_map]
  rw [SnapshotStore.run, delete_eq, Medium.run, Medium.delete, Medium.requireOpen, h.closed, hfound]
  cases hopen : s.closed with
  | true => exact .error .closed
  | false =>
    cases s.entries.contains (id, label) with
    | false => exact .error (.notFound id label)
    | true =>
      have hdeleted := h.delete id label
      rw [h.closed, hopen] at hdeleted
      exact .ok hdeleted _

theorem run_load (h : Represents m s) :
    SameOutcome (m.run (.load id label)) (s.run (.load id label)) := by
  rw [SnapshotStore.run, SnapshotStore.load, SnapshotStore.requireOpen, Medium.run, Medium.load,
    Medium.requireOpen, h.closed, h.info, h.data]
  cases s.closed with
  | true => exact .error .closed
  | false =>
    cases hget : s.entries.get? (id, label) with
    | none => exact .error (.notFound id label)
    | some e =>
      simp only [Option.map, readInfo_encode (h.writable id label e hget), bind, Except.bind,
        Bool.false_eq_true, if_false]
      cases Zstd.decompress maxSavedSize e.compressed with
      | none => exact .error .undecodable
      | some arena =>
        simp only
        split_ifs
        · exact .ok h _
        · exact .error (.digestMismatch id label)

theorem run_list (h : Represents m s) : SameOutcome (m.run (.list id)) (s.run (.list id)) := by
  rw [SnapshotStore.run, Medium.run, Medium.list, Medium.requireOpen, h.closed]
  cases hclosed : s.closed with
  | true =>
    rw [SnapshotStore.list, SnapshotStore.requireOpen, hclosed]
    exact .error .closed
  | false =>
    obtain ⟨infos, hlist, hmem, hsorted⟩ := h.filed.exists_list hclosed id
    have hwritable : ∀ i ∈ infos, i.Writable := by
      intro i hi
      obtain ⟨label, e, hget, rfl⟩ := (hmem i).mp hi
      exact h.writable id label e hget
    have hread := mapM_readInfo hwritable (fun i => (key infoTag id i.label, i.toCbor.encode))
      fun _ => rfl
    rw [hlist, h.scan_eq hmem hsorted, hread]
    exact .ok h _

/-- **Both stores come to the same**, operation by operation. -/
theorem run (h : Represents m s) {o : Operation} (ho : o.Storable) :
    SameOutcome (m.run o) (s.run o) := by
  cases o with
  | write w =>
    cases w with
    | save now id label arena => exact h.run_save ho
    | delete id label => exact h.run_delete
  | load id label => exact h.run_load
  | list id => exact h.run_list

theorem answer_eq (h : Represents m s) {o : Operation} (ho : o.Storable) :
    answer Medium.run m o = (answer SnapshotStore.run s o).mapError .store := by
  have hrun := h.run ho
  rw [answer, answer]
  generalize Medium.run m o = x at hrun
  generalize SnapshotStore.run s o = y at hrun
  cases hrun with
  | ok h a => rfl
  | error e => rfl

theorem next (h : Represents m s) {o : Operation} (ho : o.Storable) :
    Represents (next Medium.run m o) (next SnapshotStore.run s o) := by
  have hrun := h.run ho
  rw [SnapshotStore.next, SnapshotStore.next]
  generalize Medium.run m o = x at hrun
  generalize SnapshotStore.run s o = y at hrun
  cases hrun with
  | ok h a => exact h
  | error e => exact h

/-- **After a whole history, both stores hold the same.** -/
theorem after (h : Represents m s) {ops : List Operation} (hops : ∀ o ∈ ops, o.Storable) :
    Represents (after Medium.run m ops) (after SnapshotStore.run s ops) := by
  induction ops generalizing m s with
  | nil => exact h
  | cons o ops ih =>
    exact ih (h.next (hops o List.mem_cons_self)) fun o' ho' => hops o' (List.mem_cons_of_mem o ho')

end Represents

end

/-! ## Both stores -/

/-- What refuses everything is not changed by anything. -/
theorem after_of_refused {σ ε : Type} {run : σ → Operation → Except ε (σ × Answer)} {s : σ}
    (h : ∀ o, ∃ e, run s o = .error e) (ops : List Operation) : after run s ops = s := by
  induction ops with
  | nil => rfl
  | cons o ops ih =>
    obtain ⟨e, he⟩ := h o
    have hnext : next run s o = s := by
      rw [next, he]
    rw [after, List.foldl_cons, hnext]
    exact ih

section

variable [Zstd.Compressor]

/-- A closed store of bytes refuses everything, for the same reasons. -/
theorem Medium.run_of_closed {m : Medium} (h : m.closed = true) (o : Operation) :
    m.run o = .error (.store (closedError o)) := by
  cases o with
  | write w =>
    cases w with
    | save now id label arena =>
      rw [run, save, requireOpen, h, closedError]
      cases Snapshot.isLabel label <;> rfl
    | delete id label =>
      rw [run, delete, requireOpen, h]
      rfl
  | load id label =>
    rw [run, load, requireOpen, h]
    rfl
  | list id =>
    rw [run, list, requireOpen, h]
    rfl

/-- **A snapshot store answers as its history says.** The history is of any operations on a new
store; only the writes that succeeded count. The same operations on a store of bytes get the same
answers, so no pair of its ever fails to be found or read. A write is seen at its own place and
nowhere else. Once a store is closed, it refuses whatever else is asked. -/
theorem answers_history {ops : List Operation} (hops : ∀ o ∈ ops, o.Storable) :
    Answers (after run {} ops) (successes {} ops) ∧
      (∀ o : Operation, o.Storable → answer Medium.run (after Medium.run {} ops) o
        = (answer run (after run {} ops) o).mapError .store) ∧
      (∀ (o : Operation) id label, (∀ w, o = .write w → w.place ≠ (id, label)) →
        (next run (after run {} ops) o).seen id label = (after run {} ops).seen id label) ∧
      ∀ more o, run (after run (after run {} ops).close more) o = .error (closedError o) ∧
        Medium.run (after Medium.run (after Medium.run {} ops).close more) o
          = .error (.store (closedError o)) := by
  have hreflects := reflects_empty.after hops
  have hrepresents := represents_empty.after hops
  refine ⟨hreflects.answers, fun o ho => hrepresents.answer_eq ho,
    fun o id label hplace => seen_next hreflects.filed hplace, fun more o => ⟨?_, ?_⟩⟩
  · have hclosed := run_of_closed (s := (after run {} ops).close) rfl
    rw [after_of_refused fun o => ⟨_, hclosed o⟩]
    exact hclosed o
  · have hclosed := Medium.run_of_closed (m := (after Medium.run {} ops).close) rfl
    rw [after_of_refused fun o => ⟨_, hclosed o⟩]
    exact hclosed o

end

/-! ### A sample -/

/-- Two modules whose identifiers differ in the last byte only. -/
def sampleId (last : UInt8) : ModuleId :=
  ⟨(Bytes.zeros 31).push last, by simp⟩

/-- Arenas are saved under labels that are prefixes of each other, and for both modules. One is
saved anew and one is removed; an empty label is refused, and what is not there is not removed. -/
def sampleHistory : List Operation :=
  [.write (.save 1 (sampleId 0) "x" ⟨#[1, 2]⟩), .write (.save 2 (sampleId 0) "xy" ⟨#[3]⟩),
    .write (.save 3 (sampleId 1) "x" ⟨#[4]⟩), .write (.save 4 (sampleId 0) "" ⟨#[5]⟩),
    .write (.delete (sampleId 0) "x"), .write (.delete (sampleId 0) "x"),
    .write (.save (-1) (sampleId 0) "xy" .empty), .list (sampleId 0)]

theorem storable_sampleHistory : ∀ o ∈ sampleHistory, o.Storable := by
  have hstorable : ∀ (now : Int) (arena : ByteArray), Snapshot.IsInt64 now →
      arena.size ≤ Zstd.maxWindow → Storable now arena := fun _ _ => Storable.of_size_le
  intro o ho
  simp only [sampleHistory, List.mem_cons, List.not_mem_nil, or_false] at ho
  rcases ho with rfl | rfl | rfl | rfl | rfl | rfl | rfl | rfl
  all_goals first | exact trivial | exact hstorable _ _ (by decide) (by decide)

/-- Five of the writes succeed. What is loaded under the longer label is the arena saved last. -/
theorem answers_history_sample :
    (∀ o ∈ sampleHistory, o.Storable) ∧ (successes {} sampleHistory).length = 5 ∧
      (after run {} sampleHistory).load (sampleId 0) "xy"
        = .ok (.empty, (entryOf (-1) (sampleId 0) "xy" .empty).info) := by
  obtain ⟨hanswers, -⟩ := answers_history storable_sampleHistory
  have hlog : successes {} sampleHistory
      = successes {} (sampleHistory.take 6) ++ [.save (-1) (sampleId 0) "xy" .empty] := by
    decide +kernel
  have hlast : LastSave (successes {} sampleHistory) (sampleId 0) "xy"
      (successes {} (sampleHistory.take 6)) (-1) .empty :=
    ⟨[], hlog, by simp⟩
  exact ⟨storable_sampleHistory, by decide +kernel, hanswers.load _ _ _ _ _ hlast⟩

end SnapshotStore

end BytecodeHost
