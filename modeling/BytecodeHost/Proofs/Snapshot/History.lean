import BytecodeHost.Proofs.Log
import BytecodeHost.Proofs.Snapshot.File
import BytecodeHost.Proofs.Storage

/-!
# What a snapshot store makes of its history

Each pair of a module and a label is a place of its own. What a store answers for a place depends on
the last write there that succeeded: after a save the arena is there, as it was saved, and after a
deletion nothing is. No other write counts, whatever the labels have in common.

Arenas are kept compressed. That they come back is a property of the compression, which is asked of
each arena that is saved; `Storable.of_size_le` has it for the arenas that fit one window.

## Main definitions

* `SnapshotStore.Write`, `SnapshotStore.Operation` — what a store is asked for
* `SnapshotStore.after`, `SnapshotStore.successes` — where a history ends, and the log of it
* `SnapshotStore.LastSave` — the save that counts for a place
* `SnapshotStore.Reflects` — a store holds what a log says
* `SnapshotStore.Answers` — a store answers as a log says

## Main results

* `SnapshotStore.Reflects.after` — a history keeps a store and its log in step
* `SnapshotStore.Reflects.answers` — a store that holds what a log says answers so
* `SnapshotStore.seen_next` — an operation does not change what is seen at another place
* `SnapshotStore.run_of_closed` — a closed store refuses everything
-/

namespace BytecodeHost

namespace SnapshotStore

open Snapshot (Info IsInt64)

/-! ## Histories -/

/-- A change of what is kept. -/
inductive Write where
  /-- Keeps an arena under a module and a label. -/
  | save (now : Int) (id : ModuleId) (label : String) (arena : ByteArray)
  /-- Removes what is kept under a module and a label. -/
  | delete (id : ModuleId) (label : String)
  deriving DecidableEq

/-- What a store is asked for. -/
inductive Operation where
  /-- To change what is kept. -/
  | write (w : Write)
  /-- For an arena. -/
  | load (id : ModuleId) (label : String)
  /-- For what is known of the snapshots of a module. -/
  | list (id : ModuleId)

/-- What a store answers. -/
inductive Answer where
  /-- An arena was saved. -/
  | saved (info : Info)
  /-- Here is the arena. -/
  | loaded (arena : ByteArray) (info : Info)
  /-- Here are the snapshots. -/
  | listed (infos : List Info)
  /-- A snapshot was removed. -/
  | deleted
  deriving DecidableEq

/-- Where a write takes place. -/
def Write.place : Write → ModuleId × String
  | save _ id label _ => (id, label)
  | delete id label => (id, label)

section

variable {σ ε : Type}

/-- The answer to an operation. -/
def answer (run : σ → Operation → Except ε (σ × Answer)) (s : σ) (o : Operation) :
    Except ε Answer :=
  (run s o).map (·.2)

/-- The store after an operation; one that fails leaves it alone. -/
def next (run : σ → Operation → Except ε (σ × Answer)) (s : σ) (o : Operation) : σ :=
  match run s o with
  | .ok (s, _) => s
  | .error _ => s

/-- Where a history ends. -/
def after (run : σ → Operation → Except ε (σ × Answer)) (s : σ) (ops : List Operation) : σ :=
  ops.foldl (next run) s

end

/-! ### Logs -/

/-- The save of an arena at a place that is the last write there. -/
def LastSave (log : List Write) (id : ModuleId) (label : String) (before : List Write) (now : Int)
    (arena : ByteArray) : Prop :=
  LastIn log before (.save now id label arena) fun w => w.place = (id, label)

/-- Something was saved at a place and was not removed since. -/
def Live (log : List Write) (id : ModuleId) (label : String) : Prop :=
  ∃ before now arena, LastSave log id label before now arena

theorem lastSave_concat {log before : List Write} {w : Write} {id : ModuleId} {label : String}
    {now : Int} {arena : ByteArray} :
    LastSave (log ++ [w]) id label before now arena ↔
      before = log ∧ w = .save now id label arena ∨
        LastSave log id label before now arena ∧ w.place ≠ (id, label) := by
  rw [LastSave, LastSave, lastIn_concat]
  constructor
  · rintro (⟨hbefore, hw⟩ | h)
    · exact .inl ⟨hbefore, hw.symm⟩
    · exact .inr h
  · rintro (⟨hbefore, hw⟩ | h)
    · exact .inl ⟨hbefore, hw.symm⟩
    · exact .inr h

/-! ### What is filed -/

/-- What is kept is filed under the module and the label that it tells. -/
def Filed (s : SnapshotStore) : Prop :=
  ∀ id label e, s.entries.get? (id, label) = some e → e.info.moduleId = id ∧ e.info.label = label

/-- What is seen of a place: the arena, and the line of the listing. -/
def seen (s : SnapshotStore) (id : ModuleId) (label : String) :
    Except Error (ByteArray × Info) × Except Error (List Info) :=
  (s.load id label, (s.list id).map fun infos => infos.filter fun i => i.label = label)

section

variable {s : SnapshotStore} {id : ModuleId} {label : String}

/-- Removing comes to the first thing that is wrong with it, or to a store without the place. -/
theorem delete_eq (s : SnapshotStore) (id : ModuleId) (label : String) :
    s.delete id label =
      if s.closed then .error .closed
      else if s.entries.contains (id, label) then
        .ok { s with entries := s.entries.erase (id, label) }
      else .error (.notFound id label) := by
  cases hclosed : s.closed with
  | true => simp [delete, requireOpen, hclosed, bind, Except.bind]
  | false =>
    cases hfound : s.entries.contains (id, label) <;>
      simp [delete, requireOpen, hclosed, hfound, bind, Except.bind, pure, Except.pure, throw,
        throwThe, MonadExceptOf.throw]

/-- What is strictly sorted by the bytes of something is determined by what is in it. -/
theorem eq_of_sorted {α : Type} (f : α → List UInt8) {l m : List α}
    (hl : l.Pairwise fun a b => f a < f b) (hm : m.Pairwise fun a b => f a < f b)
    (h : ∀ a, a ∈ l ↔ a ∈ m) : l = m := by
  have hnodup : ∀ {k : List α}, (k.Pairwise fun a b => f a < f b) → k.Nodup := by
    intro k hk
    refine hk.imp fun hlt heq => ?_
    rw [heq] at hlt
    exact List.lt_irrefl _ hlt
  have hperm : l.Perm m := (List.perm_ext_iff_of_nodup (hnodup hl) (hnodup hm)).mpr h
  exact hperm.eq_of_pairwise (fun a b _ _ hab hba => absurd hba (List.lt_asymm hab)) hl hm

/-- Descriptions sorted by label. -/
theorem pairwise_mergeSort_label (infos : List Info) :
    (infos.mergeSort fun a b => a.label ≤ b.label).Pairwise fun a b => a.label ≤ b.label := by
  have htrans : ∀ a b c : Info, decide (a.label ≤ b.label) = true →
      decide (b.label ≤ c.label) = true → decide (a.label ≤ c.label) = true := by
    intro a b c hab hbc
    rw [decide_eq_true_iff] at hab hbc ⊢
    exact Std.le_trans hab hbc
  have htotal : ∀ a b : Info,
      (decide (a.label ≤ b.label) || decide (b.label ≤ a.label)) = true := by
    intro a b
    rw [Bool.or_eq_true, decide_eq_true_iff, decide_eq_true_iff]
    exact Std.le_total
  refine (List.pairwise_mergeSort htrans htotal infos).imp ?_
  intro a b h
  exact of_decide_eq_true h

/-- **A listing has one line for each label**, in order. -/
theorem Filed.exists_list (h : Filed s) (hopen : s.closed = false) (id : ModuleId) :
    ∃ infos, s.list id = .ok infos ∧
      (∀ i, i ∈ infos ↔ ∃ label e, s.entries.get? (id, label) = some e ∧ i = e.info) ∧
      infos.Pairwise fun a b => Text.utf8 a.label < Text.utf8 b.label := by
  let mine := s.entries.entries.filter fun e => e.1.1 = id
  have hmine : ∀ e, e ∈ mine ↔ s.entries.get? e.1 = some e.2 ∧ e.1.1 = id := by
    intro e
    rw [List.mem_filter, decide_eq_true_iff, s.entries.get?_eq_some_iff]
  have hlist : s.list id
      = .ok ((mine.map fun e => e.2.info).mergeSort fun a b => a.label ≤ b.label) := by
    simp only [SnapshotStore.list, requireOpen, hopen]
    rfl
  -- under one module, different keys are different labels
  have hlabels : ((mine.map fun e => e.2.info).map (·.label)).Nodup := by
    have hkeys : mine.map (·.1) = ((mine.map fun e => e.2.info).map (·.label)).map (id, ·) := by
      rw [List.map_map, List.map_map]
      refine List.map_congr_left fun e he => ?_
      obtain ⟨hget, hid⟩ := (hmine e).mp he
      exact Prod.ext hid (h e.1.1 e.1.2 e.2 hget).2.symm
    have hnodup : (mine.map (·.1)).Nodup := (List.filter_sublist.map _).nodup s.entries.nodup_keys
    rw [hkeys] at hnodup
    exact (List.pairwise_map.mp hnodup).imp fun hne heq => hne (congrArg _ heq)
  refine ⟨_, hlist, fun i => ?_, ?_⟩
  · rw [List.mem_mergeSort, List.mem_map]
    constructor
    · rintro ⟨e, he, rfl⟩
      obtain ⟨hget, rfl⟩ := (hmine e).mp he
      exact ⟨e.1.2, e.2, hget, rfl⟩
    · rintro ⟨label, e, hget, rfl⟩
      exact ⟨((id, label), e), (hmine _).mpr ⟨hget, rfl⟩, rfl⟩
  · have hsorted := pairwise_mergeSort_label (mine.map fun e => e.2.info)
    have hdistinct := ((List.mergeSort_perm (mine.map fun e => e.2.info)
      fun a b => decide (a.label ≤ b.label)).map (·.label)).nodup_iff.mpr hlabels
    refine (hsorted.and (List.pairwise_map.mp hdistinct)).imp ?_
    rintro a b ⟨hle, hne⟩
    exact (Text.lt_iff_utf8_lt _ _).mp (Std.lt_of_le_of_ne hle hne)

/-- The line of a listing for one label tells what is kept there. -/
theorem Filed.mem_line (h : Filed s) {infos : List Info}
    (hmem : ∀ i, i ∈ infos ↔ ∃ label e, s.entries.get? (id, label) = some e ∧ i = e.info)
    (i : Info) :
    i ∈ infos.filter (fun i => i.label = label) ↔
      ∃ e, s.entries.get? (id, label) = some e ∧ i = e.info := by
  rw [List.mem_filter, hmem, decide_eq_true_iff]
  constructor
  · rintro ⟨⟨label', e, hget, rfl⟩, rfl⟩
    rw [(h id label' e hget).2]
    exact ⟨e, hget, rfl⟩
  · rintro ⟨e, hget, rfl⟩
    exact ⟨⟨label, e, hget, rfl⟩, (h id label e hget).2⟩

/-- What is seen of a place depends on what is kept there. -/
theorem seen_congr {t : SnapshotStore} (hs : Filed s) (ht : Filed t) (hclosed : s.closed = t.closed)
    (hget : s.entries.get? (id, label) = t.entries.get? (id, label)) :
    s.seen id label = t.seen id label := by
  have hload : s.load id label = t.load id label := by
    rw [load, load, requireOpen, requireOpen, hclosed, hget]
  refine Prod.ext hload ?_
  cases hopen : t.closed with
  | true => simp [seen, SnapshotStore.list, requireOpen, hclosed, hopen, bind, Except.bind]
  | false =>
    obtain ⟨infos, hlist, hmem, hsorted⟩ := hs.exists_list (hclosed.trans hopen) id
    obtain ⟨infos', hlist', hmem', hsorted'⟩ := ht.exists_list hopen id
    simp only [seen, hlist, hlist', Except.map]
    refine congrArg Except.ok (eq_of_sorted (fun i => Text.utf8 i.label) (hsorted.filter _)
      (hsorted'.filter _) fun i => ?_)
    rw [hs.mem_line hmem, ht.mem_line hmem', hget]

end

variable [Zstd.Compressor]

/-! ### Histories of a store -/

/-- The store after an operation, and the answer. -/
def run (s : SnapshotStore) : Operation → Except Error (SnapshotStore × Answer)
  | .write (.save now id label arena) => do
    let (s, info) ← s.save now id label arena
    return (s, .saved info)
  | .write (.delete id label) => do
    let s ← s.delete id label
    return (s, .deleted)
  | .load id label => do
    let (arena, info) ← s.load id label
    return (s, .loaded arena info)
  | .list id => do
    let infos ← s.list id
    return (s, .listed infos)

/-- The write that an operation is, if it succeeds. -/
def success? (s : SnapshotStore) : Operation → Option Write
  | .write w =>
    match s.run (.write w) with
    | .ok _ => some w
    | .error _ => none
  | _ => none

/-- The writes of a history that succeed. -/
def successes (s : SnapshotStore) : List Operation → List Write
  | [] => []
  | o :: ops => (s.success? o).toList ++ successes (next run s o) ops

/-- What a save can store: an arena that comes back from what is stored of it, with numbers that fit
a record. -/
structure Storable (now : Int) (arena : ByteArray) : Prop where
  /-- Decompressing undoes compressing. -/
  restores : Zstd.decompress maxSavedSize (Zstd.compress arena) = some arena
  /-- The size fits. -/
  size : IsInt64 arena.size
  /-- So does the size of what is stored. -/
  stored : IsInt64 (Zstd.compress arena).size
  /-- So does the time. -/
  time : IsInt64 now

/-- Arenas of up to half a GiB can be stored. -/
theorem Storable.of_size_le [Zstd.LawfulCompressor] {now : Int} {arena : ByteArray}
    (htime : IsInt64 now) (h : arena.size ≤ Zstd.maxWindow) : Storable now arena := by
  have hwindow : Zstd.maxWindow = 536870912 := by decide
  have hstored := Zstd.size_compress_le arena
  refine ⟨Zstd.decompress_compress (Nat.le_trans h (by decide)) (by decide) h, ?_, ?_, htime⟩
  · rw [IsInt64]
    omega
  · rw [IsInt64]
    omega

/-- Whether what a write saves can be stored. -/
def Write.Storable : Write → Prop
  | save now _ _ arena => SnapshotStore.Storable now arena
  | delete _ _ => True

/-- Whether what an operation saves, if anything, can be stored. -/
def Operation.Storable : Operation → Prop
  | write w => w.Storable
  | _ => True

/-! ## A store and its log -/

/-- Saving comes to the first thing that is wrong with it, or to a store with the arena. -/
theorem save_eq (s : SnapshotStore) (now : Int) (id : ModuleId) (label : String)
    (arena : ByteArray) :
    s.save now id label arena =
      if Snapshot.isLabel label then
        if s.closed then .error .closed
        else .ok ({ s with entries := s.entries.insert (id, label) (entryOf now id label arena) },
          (entryOf now id label arena).info)
      else .error .invalidLabel := by
  cases hlabel : Snapshot.isLabel label with
  | false => simp [save, hlabel, bind, Except.bind, throw, throwThe, MonadExceptOf.throw]
  | true =>
    cases hclosed : s.closed with
    | true => simp [save, hlabel, requireOpen, hclosed, bind, Except.bind]
    | false =>
      rw [save_of_isLabel hclosed now id hlabel arena, hclosed]
      rfl

/-- The store after a write that succeeds. -/
def Write.done (s : SnapshotStore) : Write → SnapshotStore
  | save now id label arena =>
    { s with entries := s.entries.insert (id, label) (entryOf now id label arena) }
  | delete id label => { s with entries := s.entries.erase (id, label) }

/-- Whether a write is of a label that can be saved, if it saves anything. -/
def Write.Labelled : Write → Prop
  | save _ _ label _ => Snapshot.isLabel label = true
  | delete _ _ => True

/-- A write fails, or it succeeds and does what it is there for. -/
theorem run_write_cases (s : SnapshotStore) (w : Write) :
    (∃ e, s.run (.write w) = .error e) ∨
      ∃ a, s.run (.write w) = .ok (w.done s, a) ∧ w.Labelled := by
  cases w with
  | save now id label arena =>
    rw [run, save_eq]
    split_ifs with hlabel hclosed
    · exact .inl ⟨_, rfl⟩
    · exact .inr ⟨_, rfl, hlabel⟩
    · exact .inl ⟨_, rfl⟩
  | delete id label =>
    rw [run, delete_eq]
    split_ifs
    · exact .inl ⟨_, rfl⟩
    · exact .inr ⟨_, rfl, trivial⟩
    · exact .inl ⟨_, rfl⟩

theorem next_of_run_error {s : SnapshotStore} {o : Operation} {e : Error}
    (h : s.run o = .error e) : next run s o = s := by
  rw [next, h]

theorem next_of_run_ok {s s' : SnapshotStore} {o : Operation} {a : Answer}
    (h : s.run o = .ok (s', a)) : next run s o = s' := by
  rw [next, h]

@[simp] theorem next_load (s : SnapshotStore) (id : ModuleId) (label : String) :
    next run s (.load id label) = s := by
  rw [next, run]
  cases s.load id label <;> rfl

@[simp] theorem next_list (s : SnapshotStore) (id : ModuleId) : next run s (.list id) = s := by
  rw [next, run]
  cases s.list id <;> rfl

/-- A store holds what a log says, and all that was saved can be stored. -/
structure Reflects (s : SnapshotStore) (log : List Write) : Prop where
  /-- The store is open. -/
  isOpen : s.closed = false
  /-- What is kept at a place is the last save there. -/
  entries : ∀ id label e, s.entries.get? (id, label) = some e ↔
    ∃ before now arena, LastSave log id label before now arena ∧ e = entryOf now id label arena
  /-- Whatever was saved could be. -/
  accepted : ∀ now id label arena, Write.save now id label arena ∈ log →
    Snapshot.isLabel label = true ∧ Storable now arena

section

variable {s : SnapshotStore} {log before : List Write} {w : Write} {id : ModuleId} {label : String}
  {now : Int} {arena : ByteArray}

theorem reflects_empty : Reflects {} [] where
  isOpen := rfl
  entries := by
    intro id label e
    refine iff_of_false (by simp [Table.get?, Table.empty]) ?_
    rintro ⟨before, now, arena, hlast, -⟩
    exact not_lastIn_nil hlast
  accepted := by
    intro now id label arena h
    exact absurd h List.not_mem_nil

namespace Reflects

/-- A save takes the place of what was there. -/
theorem save (h : Reflects s log) (hlabel : Snapshot.isLabel label = true)
    (hstorable : Storable now arena) :
    Reflects { s with entries := s.entries.insert (id, label) (entryOf now id label arena) }
      (log ++ [.save now id label arena]) where
  isOpen := h.isOpen
  entries := by
    intro id' label' e
    simp only [Table.get?_insert, lastSave_concat]
    constructor
    · intro hget
      split_ifs at hget with hplace
      · obtain ⟨rfl, rfl⟩ := Prod.mk.inj hplace
        exact ⟨log, now, arena, .inl ⟨rfl, rfl⟩, (Option.some.inj hget).symm⟩
      · obtain ⟨before, now', arena', hlast, he⟩ := (h.entries id' label' e).mp hget
        exact ⟨before, now', arena', .inr ⟨hlast, Ne.symm hplace⟩, he⟩
    · rintro ⟨before, now', arena', ⟨-, hsave⟩ | ⟨hlast, hplace⟩, rfl⟩
      · obtain ⟨rfl, rfl, rfl, rfl⟩ := Write.save.inj hsave
        rw [if_pos rfl]
      · rw [if_neg (show (id', label') ≠ (id, label) from Ne.symm hplace)]
        exact (h.entries id' label' _).mpr ⟨before, now', arena', hlast, rfl⟩
  accepted := by
    intro now' id' label' arena' hmem
    rcases List.mem_append.mp hmem with hold | hnew
    · exact h.accepted now' id' label' arena' hold
    · obtain ⟨rfl, -, rfl, rfl⟩ := Write.save.inj (List.mem_singleton.mp hnew)
      exact ⟨hlabel, hstorable⟩

/-- A deletion leaves nothing at its place. -/
theorem delete (h : Reflects s log) (id : ModuleId) (label : String) :
    Reflects { s with entries := s.entries.erase (id, label) } (log ++ [.delete id label]) where
  isOpen := h.isOpen
  entries := by
    intro id' label' e
    simp only [Table.get?_erase, lastSave_concat]
    constructor
    · intro hget
      split_ifs at hget with hplace
      obtain ⟨before, now', arena', hlast, he⟩ := (h.entries id' label' e).mp hget
      exact ⟨before, now', arena', .inr ⟨hlast, Ne.symm hplace⟩, he⟩
    · rintro ⟨before, now', arena', ⟨-, hsave⟩ | ⟨hlast, hplace⟩, rfl⟩
      · contradiction
      · rw [if_neg (show (id', label') ≠ (id, label) from Ne.symm hplace)]
        exact (h.entries id' label' _).mpr ⟨before, now', arena', hlast, rfl⟩
  accepted := by
    intro now' id' label' arena' hmem
    rcases List.mem_append.mp hmem with hold | hnew
    · exact h.accepted now' id' label' arena' hold
    · exact absurd (List.mem_singleton.mp hnew) Write.noConfusion

/-- **An operation keeps a store and its log in step.** -/
theorem next (h : Reflects s log) {o : Operation} (ho : o.Storable) :
    Reflects (next run s o) (log ++ (s.success? o).toList) := by
  cases o with
  | write w =>
    rcases s.run_write_cases w with ⟨e, hrun⟩ | ⟨a, hrun, hlabel⟩
    · simp only [next_of_run_error hrun, success?, hrun]
      exact (List.append_nil log).symm ▸ h
    · simp only [next_of_run_ok hrun, success?, hrun]
      cases w with
      | save now id label arena => exact h.save hlabel ho
      | delete id label => exact h.delete id label
  | load id label =>
    rw [next_load]
    exact (List.append_nil log).symm ▸ h
  | list id =>
    rw [next_list]
    exact (List.append_nil log).symm ▸ h

/-- **A history keeps a store and its log in step.** -/
theorem after (h : Reflects s log) {ops : List Operation} (hops : ∀ o ∈ ops, o.Storable) :
    Reflects (after run s ops) (log ++ s.successes ops) := by
  induction ops generalizing s log with
  | nil => simpa [SnapshotStore.after, successes] using h
  | cons o ops ih =>
    rw [successes, ← List.append_assoc]
    exact ih (h.next (hops o List.mem_cons_self)) fun o' ho' => hops o' (List.mem_cons_of_mem o ho')

end Reflects

end

/-! ## What a store answers -/

/-- An open store answers as a log says. -/
structure Answers (s : SnapshotStore) (log : List Write) : Prop where
  /-- A label of 1 to 128 bytes can be saved. -/
  save : ∀ now id label arena, 1 ≤ label.utf8ByteSize → label.utf8ByteSize ≤ 128 →
    ∃ s', s.save now id label arena = .ok (s', (entryOf now id label arena).info)
  /-- No other label can. -/
  save_refused : ∀ now id label arena, ¬(1 ≤ label.utf8ByteSize ∧ label.utf8ByteSize ≤ 128) →
    s.save now id label arena = .error .invalidLabel
  /-- What was saved last is loaded, with what was known of it then. -/
  load : ∀ id label before now arena, LastSave log id label before now arena →
    s.load id label = .ok (arena, (entryOf now id label arena).info)
  /-- Elsewhere nothing is found, and nothing is ever found damaged. -/
  load_refused : ∀ id label, ¬Live log id label → s.load id label = .error (.notFound id label)
  /-- What is known of the arenas that are there is listed by the bytes of the labels. -/
  list : ∀ id, ∃ infos, s.list id = .ok infos ∧
    (∀ i, i ∈ infos ↔ ∃ label before now arena, LastSave log id label before now arena ∧
      i = (entryOf now id label arena).info) ∧
    infos.Pairwise fun a b => Text.utf8 a.label < Text.utf8 b.label
  /-- What is there can be removed. -/
  delete : ∀ id label, Live log id label → ∃ s', s.delete id label = .ok s'
  /-- What is not there cannot. -/
  delete_refused : ∀ id label, ¬Live log id label →
    s.delete id label = .error (.notFound id label)

section

variable {s : SnapshotStore} {log : List Write} {id : ModuleId} {label : String}

theorem Reflects.filed (h : Reflects s log) : Filed s := by
  intro id label e hget
  obtain ⟨before, now, arena, -, rfl⟩ := (h.entries id label e).mp hget
  exact ⟨rfl, rfl⟩

namespace Reflects

theorem get?_of_lastSave (h : Reflects s log) {before : List Write} {now : Int}
    {arena : ByteArray} (hlast : LastSave log id label before now arena) :
    s.entries.get? (id, label) = some (entryOf now id label arena) :=
  (h.entries id label _).mpr ⟨before, now, arena, hlast, rfl⟩

theorem get?_of_not_live (h : Reflects s log) (hlive : ¬Live log id label) :
    s.entries.get? (id, label) = none := by
  refine Option.eq_none_iff_forall_ne_some.mpr fun e hget => hlive ?_
  obtain ⟨before, now, arena, hlast, -⟩ := (h.entries id label e).mp hget
  exact ⟨before, now, arena, hlast⟩

/-- What is kept decompresses to the arena, which has the digest that is kept with it. -/
theorem load_of_lastSave (h : Reflects s log) {before : List Write} {now : Int} {arena : ByteArray}
    (hlast : LastSave log id label before now arena) :
    s.load id label = .ok (arena, (entryOf now id label arena).info) := by
  obtain ⟨-, hstorable⟩ := h.accepted now id label arena (LastIn.mem hlast)
  have hsaved : Zstd.decompress maxSavedSize (entryOf now id label arena).compressed = some arena :=
    hstorable.restores
  have hdigest : Blake3.digest arena = (entryOf now id label arena).info.digest := rfl
  simp only [load, requireOpen, h.isOpen, h.get?_of_lastSave hlast, hsaved, if_pos hdigest]
  rfl

theorem load_of_not_live (h : Reflects s log) (hlive : ¬Live log id label) :
    s.load id label = .error (.notFound id label) := by
  simp only [load, requireOpen, h.isOpen, h.get?_of_not_live hlive]
  rfl

/-- **A store that holds what a log says answers so.** -/
theorem answers (h : Reflects s log) : Answers s log where
  save := by
    intro now id label arena hlow hhigh
    rw [save_eq, if_pos (Snapshot.isLabel_iff.mpr ⟨hlow, hhigh⟩), h.isOpen]
    exact ⟨_, rfl⟩
  save_refused := by
    intro now id label arena hlabel
    rw [save_eq, if_neg (mt Snapshot.isLabel_iff.mp hlabel)]
  load := fun _ _ _ _ _ => h.load_of_lastSave
  load_refused := fun _ _ => h.load_of_not_live
  list := by
    intro id
    obtain ⟨infos, hlist, hmem, hsorted⟩ := h.filed.exists_list h.isOpen id
    refine ⟨infos, hlist, fun i => (hmem i).trans ?_, hsorted⟩
    constructor
    · rintro ⟨label, e, hget, rfl⟩
      obtain ⟨before, now, arena, hlast, rfl⟩ := (h.entries id label e).mp hget
      exact ⟨label, before, now, arena, hlast, rfl⟩
    · rintro ⟨label, before, now, arena, hlast, rfl⟩
      exact ⟨label, _, h.get?_of_lastSave hlast, rfl⟩
  delete := by
    rintro id label ⟨before, now, arena, hlast⟩
    rw [delete_eq, h.isOpen, Table.contains, h.get?_of_lastSave hlast]
    exact ⟨_, rfl⟩
  delete_refused := by
    intro id label hlive
    rw [delete_eq, h.isOpen, Table.contains, h.get?_of_not_live hlive]
    rfl

end Reflects

/-! ### Other places -/

theorem get?_done {w : Write} (h : w.place ≠ (id, label)) :
    (w.done s).entries.get? (id, label) = s.entries.get? (id, label) := by
  cases w with
  | save now id' label' arena => exact (Table.get?_insert _ _ _ _).trans (if_neg (Ne.symm h))
  | delete id' label' => exact (Table.get?_erase _ _ _).trans (if_neg (Ne.symm h))

theorem Filed.done (h : Filed s) (w : Write) : Filed (w.done s) := by
  intro id label e hget
  by_cases hplace : w.place = (id, label)
  · cases w with
    | save now id' label' arena =>
      obtain ⟨rfl, rfl⟩ := Prod.mk.inj hplace
      have hsame := (Table.get?_insert s.entries _ (id', label') _).symm.trans hget
      rw [if_pos rfl] at hsame
      rw [← Option.some.inj hsame]
      exact ⟨rfl, rfl⟩
    | delete id' label' =>
      obtain ⟨rfl, rfl⟩ := Prod.mk.inj hplace
      have hgone := (Table.get?_erase s.entries _ (id', label')).symm.trans hget
      rw [if_pos rfl] at hgone
      contradiction
  · rw [get?_done hplace] at hget
    exact h id label e hget

/-- **An operation does not change what is seen at another place.** -/
theorem seen_next (h : Filed s) {o : Operation}
    (hplace : ∀ w, o = .write w → w.place ≠ (id, label)) :
    (next run s o).seen id label = s.seen id label := by
  cases o with
  | write w =>
    rcases s.run_write_cases w with ⟨e, hrun⟩ | ⟨a, hrun, -⟩
    · rw [next_of_run_error hrun]
    · rw [next_of_run_ok hrun]
      have hclosed : (w.done s).closed = s.closed := by
        cases w <;> rfl
      exact seen_congr (h.done w) h hclosed (get?_done (hplace w rfl))
  | load id' label' => rw [next_load]
  | list id' => rw [next_list]

end

/-! ### Closed stores -/

/-- Why a closed store refuses an operation. -/
def closedError : Operation → Error
  | .write (.save _ _ label _) => if Snapshot.isLabel label then .closed else .invalidLabel
  | _ => .closed

/-- **A closed store refuses everything.** -/
theorem run_of_closed {s : SnapshotStore} (h : s.closed = true) (o : Operation) :
    s.run o = .error (closedError o) := by
  cases o with
  | write w =>
    cases w with
    | save now id label arena =>
      rw [run, save_eq, closedError, if_pos h]
      split_ifs <;> rfl
    | delete id label =>
      rw [run, delete_eq, h]
      rfl
  | load id label => simp [run, load, requireOpen, h, closedError, bind, Except.bind]
  | list id => simp [run, list, requireOpen, h, closedError, bind, Except.bind]

end SnapshotStore

end BytecodeHost
