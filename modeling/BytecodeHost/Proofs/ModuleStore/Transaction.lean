import BytecodeHost.Proofs.Program.Preparation
import BytecodeHost.Proofs.Storage

/-!
# Operations as transactions

`ModuleStore.put` and `ModuleStore.delete` answer with a whole new store or with none. The medium
below them works in smaller steps: images, records and names are written one after the other, and
the write that can still be refused, that of the name, comes last. What keeps a store whole is that
all writes of an operation stand in one transaction, and that nothing can fail after it.

Here the operations are spelled out in these steps, as sessions that keep what they have written
when they fail. A transaction gives back the store that it began with. Spelled out or not, an
operation comes to the same store and the same answer.

## Main definitions

* `ModuleStore.Session` — work on a store that may fail halfway
* `ModuleStore.Session.transaction` — all of a session or, if it fails, nothing
* `ModuleStore.Operation`, `ModuleStore.Operation.perform` — what a store is asked for
* `ModuleStore.Session.Atomic` — what fails leaves the store alone

## Main results

* `ModuleStore.Session.put_eq`, `ModuleStore.Session.delete_eq` — the steps come to the whole
* `ModuleStore.Session.atomic_transaction` — a transaction fails as a whole
* `ModuleStore.Operation.failure_changes_nothing` — an operation that fails leaves the store as it
  was
-/

namespace BytecodeHost

/-! ## Erasing many keys -/

namespace Table

variable {α β : Type}

theorem ext_entries {t u : Table α β} (h : t.entries = u.entries) : t = u := by
  cases t
  cases u
  cases h
  rfl

variable [DecidableEq α]

theorem entries_foldl_erase (t : Table α β) (ks : List α) :
    (ks.foldl erase t).entries = t.entries.filter fun e => e.1 ∉ ks := by
  induction ks generalizing t with
  | nil => exact (List.filter_eq_self.mpr fun e _ => by simp).symm
  | cons k ks ih =>
    rw [List.foldl_cons, ih, erase, filter, List.filter_filter]
    congr 1
    funext e
    by_cases hk : e.1 = k <;> simp [hk]

/-- To erase the keys of all entries with a value is to filter the value out. -/
theorem foldl_erase_keys [DecidableEq β] (t : Table α β) (v : β) :
    ((t.entries.filter fun e => e.2 = v).map (·.1)).foldl erase t = t.filter fun _ w => w ≠ v := by
  refine ext_entries ?_
  rw [entries_foldl_erase]
  refine List.filter_congr fun e he => ?_
  have hmem : e.1 ∈ (t.entries.filter fun e => e.2 = v).map (·.1) ↔ e.2 = v := by
    rw [List.mem_map]
    constructor
    · rintro ⟨d, hd, hkey⟩
      rw [List.mem_filter, decide_eq_true_eq] at hd
      have hfirst : t.get? e.1 = some d.2 := (t.get?_eq_some_iff _ _).mpr (hkey ▸ hd.1)
      have hsecond : t.get? e.1 = some e.2 := (t.get?_eq_some_iff _ _).mpr he
      exact Option.some.inj (hsecond.symm.trans hfirst) ▸ hd.2
    · intro hv
      exact ⟨e, List.mem_filter.mpr ⟨he, decide_eq_true hv⟩, rfl⟩
  exact decide_eq_decide.mpr (not_congr hmem)

end Table

namespace ModuleStore

/-! ## Sessions -/

/-- Refuses identifiers that no image has. -/
def requireImage (s : ModuleStore) (id : ModuleId) : Except Error Unit :=
  if s.images.contains id then .ok () else .error .notFound

/-- Work on a store that may fail. What it has done to the store by then stays done. -/
def Session (α : Type) : Type :=
  ModuleStore → ModuleStore × Except Error α

namespace Session

variable {α β : Type}

instance : Monad Session where
  pure a := fun s => (s, .ok a)
  bind t f := fun s =>
    match t s with
    | (s, .ok a) => f a s
    | (s, .error e) => (s, .error e)

instance : MonadLift (Except Error) Session where
  monadLift r := fun s => (s, r)

@[simp] theorem bind_apply (t : Session α) (f : α → Session β) (s : ModuleStore) :
    (t >>= f) s = match t s with
      | (s, .ok a) => f a s
      | (s, .error e) => (s, .error e) := rfl

@[simp] theorem pure_apply (a : α) (s : ModuleStore) : (pure a : Session α) s = (s, .ok a) := rfl

@[simp] theorem lift_apply (r : Except Error α) (s : ModuleStore) :
    (liftM r : Session α) s = (s, r) := rfl

/-- The store as it is now. -/
def store : Session ModuleStore :=
  fun s => (s, .ok s)

/-- Changes the store. -/
def write (f : ModuleStore → ModuleStore) : Session Unit :=
  fun s => (f s, .ok ())

@[simp] theorem store_apply (s : ModuleStore) : store s = (s, .ok s) := rfl

@[simp] theorem write_apply (f : ModuleStore → ModuleStore) (s : ModuleStore) :
    write f s = (f s, .ok ()) := rfl

/-- All of a session or, if it fails, nothing. A store that is only read refuses to begin. -/
def transaction (refusal : Error) (t : Session α) : Session α := fun s =>
  if s.access = .readOnly then (s, .error refusal)
  else
    match t s with
    | (s', .ok a) => (s', .ok a)
    | (_, .error e) => (s, .error e)

/-! ### Removing in steps -/

/-- Removes names, one after the other. -/
def dropNames : List String → Session Unit
  | [] => return ()
  | name :: rest => do
    write fun s => { s with names := s.names.erase name }
    dropNames rest

/-- Removes an image, its record and then the names that are found to point at it. -/
def deleteSteps (id : ModuleId) : Session Unit := do
  let s ← store
  s.requireImage id
  write fun s => { s with images := s.images.erase id }
  write fun s => { s with records := s.records.erase id }
  dropNames ((s.names.entries.filter fun e => e.2 = id).map (·.1))

/-- Removes an image. -/
def delete (id : ModuleId) : Session Unit := do
  let s ← store
  s.requireOpen
  transaction .deleteReadOnly (deleteSteps id)

/-- What a session comes to that changes a store as a whole or not at all. -/
def commit (s : ModuleStore) : Except Error (ModuleStore × α) → ModuleStore × Except Error α
  | .ok (s', a) => (s', .ok a)
  | .error e => (s, .error e)

theorem dropNames_eq (s : ModuleStore) (names : List String) :
    dropNames names s = ({ s with names := names.foldl Table.erase s.names }, .ok ()) := by
  induction names generalizing s with
  | nil => rfl
  | cons name rest ih => exact ih _

theorem deleteSteps_of_contains {s : ModuleStore} {id : ModuleId}
    (h : s.images.contains id = true) : deleteSteps id s = (s.without id, .ok ()) := by
  have hfound : s.requireImage id = .ok () := if_pos h
  simp only [deleteSteps, bind_apply, store_apply, lift_apply, hfound, write_apply, dropNames_eq]
  rw [Table.foldl_erase_keys]
  rfl

/-- **Removing an image in steps** comes to removing it at once. -/
theorem delete_eq (s : ModuleStore) (id : ModuleId) :
    delete id s = commit s ((s.delete id).map fun s' => (s', ())) := by
  rw [delete_eq_match]
  cases haccess : s.access with
  | closed => simp [delete, requireOpen, haccess, Except.map, commit]
  | readOnly => simp [delete, requireOpen, haccess, transaction, Except.map, commit]
  | readWrite =>
    cases hfound : s.images.contains id with
    | false =>
      simp [delete, requireOpen, haccess, transaction, deleteSteps, requireImage, hfound,
        Except.map, commit]
    | true =>
      simp [delete, requireOpen, haccess, transaction, deleteSteps_of_contains hfound, Except.map,
        commit]

/-! ### What fails changes nothing -/

/-- A session that only looks. -/
def Reads (t : Session α) : Prop :=
  ∀ s, (t s).1 = s

/-- A session that leaves the store alone if it fails. -/
def Atomic (t : Session α) : Prop :=
  ∀ s s' e, t s = (s', .error e) → s' = s

theorem reads_lift (r : Except Error α) : Reads (liftM r) :=
  fun _ => rfl

theorem reads_store : Reads store :=
  fun _ => rfl

theorem Reads.atomic {t : Session α} (h : t.Reads) : t.Atomic := by
  intro s s' e ht
  rw [← h s, ht]

theorem atomic_write (f : ModuleStore → ModuleStore) : Atomic (write f) := by
  intro s s' e h
  cases h

/-- Nothing can fail after what has been changed; what comes before it may only look. -/
theorem Reads.bind {t : Session α} (h : t.Reads) {f : α → Session β} (hf : ∀ a, (f a).Atomic) :
    (t >>= f).Atomic := by
  intro s s' e hfail
  rw [bind_apply] at hfail
  have hs := h s
  cases ht : t s with
  | mk s₁ r =>
    rw [ht] at hs hfail
    subst hs
    cases r with
    | ok a => exact hf a _ _ _ hfail
    | error e' => exact (Prod.mk.inj hfail).1.symm

/-- Whoever passes an answer on does not fail. -/
theorem Atomic.map {t : Session α} (h : t.Atomic) (f : α → β) :
    (t >>= fun a => pure (f a)).Atomic := by
  intro s s' e hfail
  rw [bind_apply] at hfail
  cases ht : t s with
  | mk s₁ r =>
    rw [ht] at hfail
    cases r with
    | ok a => cases hfail
    | error e' =>
      rw [← (Prod.mk.inj hfail).1]
      exact h s s₁ e' ht

/-- **A transaction fails as a whole**, however far its steps have come. -/
theorem atomic_transaction (refusal : Error) (t : Session α) : (transaction refusal t).Atomic := by
  intro s s' e hfail
  rw [transaction] at hfail
  split_ifs at hfail with hreadOnly
  · exact (Prod.mk.inj hfail).1.symm
  · cases ht : t s with
    | mk s₁ r =>
      rw [ht] at hfail
      cases r with
      | ok a => cases hfail
      | error e' => exact (Prod.mk.inj hfail).1.symm

theorem atomic_delete (id : ModuleId) : (delete id).Atomic :=
  reads_store.bind fun _ => (reads_lift _).bind fun _ => atomic_transaction _ _

/-! ### Storing in steps -/

variable [Zstd.Compressor]

/-- Writes an image, its record and its name. Names that cannot be stored are refused by the last
of these steps. -/
def putSteps (name : String) (image : ByteArray) (record : ModuleRecord) :
    Session ModuleRecord := do
  write fun s => { s with images := s.images.insert record.id (Zstd.compress image) }
  write fun s => { s with records := s.records.insert record.id record }
  checkName name
  write fun s => { s with names := s.names.insert name record.id, puts := s.puts + 1 }
  return record

/-- Stores an image under a name. -/
def put (now : Int) (name : String) (image : ByteArray) : Session ModuleRecord := do
  let header ← (Header.parse image).mapError Error.image
  let s ← store
  s.requireOpen
  transaction .putReadOnly (putSteps name image (.ofImage name image header now s.puts))

theorem putSteps_of_name (s : ModuleStore) {name : String} (hname : checkName name = .ok ())
    (image : ByteArray) (record : ModuleRecord) :
    putSteps name image record s = (s.withImage name image record, .ok record) := by
  simp only [putSteps, bind_apply, write_apply, lift_apply, hname, pure_apply]
  rfl

/-- A name that is refused is refused when the image and the record are written already. -/
theorem putSteps_of_name_error (s : ModuleStore) {name : String} {e : Error}
    (hname : checkName name = .error e) (image : ByteArray) (record : ModuleRecord) :
    putSteps name image record s
      = ({ s with
            images := s.images.insert record.id (Zstd.compress image)
            records := s.records.insert record.id record }, .error e) := by
  simp only [putSteps, bind_apply, write_apply, lift_apply, hname]

/-- **Storing an image in steps** comes to storing it at once. -/
theorem put_eq (s : ModuleStore) (now : Int) (name : String) (image : ByteArray) :
    put now name image s = commit s (s.put now name image) := by
  rw [put_eq_match]
  cases hparse : Header.parse image with
  | error e => simp [put, hparse, Except.mapError, commit]
  | ok header =>
    cases haccess : s.access with
    | closed => simp [put, hparse, requireOpen, haccess, Except.mapError, commit]
    | readOnly => simp [put, hparse, requireOpen, haccess, transaction, Except.mapError, commit]
    | readWrite =>
      cases hname : checkName name with
      | error e =>
        simp [put, hparse, requireOpen, haccess, transaction, putSteps_of_name_error s hname,
          Except.mapError, commit]
      | ok _ =>
        simp [put, hparse, requireOpen, haccess, transaction, putSteps_of_name s hname,
          Except.mapError, commit]

theorem atomic_put (now : Int) (name : String) (image : ByteArray) :
    (put now name image).Atomic :=
  (reads_lift _).bind fun _ => reads_store.bind fun _ => (reads_lift _).bind fun _ =>
    atomic_transaction _ _

end Session

/-! ## Operations -/

/-- The operations that write. -/
inductive Write where
  /-- Stores an image under a name, at a time. -/
  | put (now : Int) (name : String) (image : ByteArray)
  /-- Removes an image. -/
  | delete (id : ModuleId)
  deriving DecidableEq

/-- The operations that read. -/
inductive Query where
  | get (id : ModuleId)
  | record (id : ModuleId)
  | resolve (name : String)
  | has (id : ModuleId)
  | list
  | sync

/-- What a store is asked for. -/
inductive Operation where
  | write (w : Write)
  | query (q : Query)
  | close
  | reopen
  | reopenReadOnly

/-- What it answers, if it does not fail. -/
inductive Answer where
  | done
  | image (image : ByteArray)
  | record (r : ModuleRecord)
  | id (id : ModuleId)
  | found (found : Bool)
  | records (rs : List ModuleRecord)

/-- The answer to a query. -/
def Query.answer (s : ModuleStore) : Query → Except Error Answer
  | get id => (s.get id).map .image
  | record id => (s.record id).map .record
  | resolve name => (s.resolve name).map .id
  | has id => .ok (.found (s.has id))
  | list => s.list.map .records
  | sync => s.sync.map fun _ => .done

theorem exists_checkName_error {name : String}
    (h : name.utf8ByteSize = 0 ∨ maxNameSize < name.utf8ByteSize) :
    ∃ e, checkName name = .error (.name e) := by
  rw [checkName]
  split_ifs with hempty hlong
  · exact ⟨.missing, rfl⟩
  · exact ⟨.tooLong, rfl⟩
  · exact absurd h (not_or.mpr ⟨hempty, hlong⟩)

section

variable [Zstd.Compressor]

/-- What a write makes of a store, at once. -/
def Write.run (s : ModuleStore) : Write → Except Error (ModuleStore × Answer)
  | put now name image => (s.put now name image).map fun (s', r) => (s', .record r)
  | delete id => (s.delete id).map fun s' => (s', .done)

/-- Carries out a write in steps. -/
def Write.perform : Write → Session Answer
  | put now name image => do return .record (← Session.put now name image)
  | delete id => do
    Session.delete id
    return .done

/-- Carries out an operation. -/
def Operation.perform : Operation → Session Answer
  | write w => w.perform
  | query q => do q.answer (← Session.store)
  | close => do
    Session.write ModuleStore.close
    return .done
  | reopen => do
    Session.write ModuleStore.reopen
    return .done
  | reopenReadOnly => do
    Session.write ModuleStore.reopenReadOnly
    return .done

theorem Write.perform_eq (w : Write) (s : ModuleStore) :
    w.perform s = Session.commit s (w.run s) := by
  cases w with
  | put now name image =>
    rw [perform, run, Session.bind_apply, Session.put_eq]
    cases s.put now name image <;> rfl
  | delete id =>
    rw [perform, run, Session.bind_apply, Session.delete_eq]
    cases s.delete id <;> rfl

theorem Write.atomic (w : Write) : w.perform.Atomic := by
  cases w with
  | put now name image => exact (Session.atomic_put now name image).map _
  | delete id => exact (Session.atomic_delete id).map _

theorem Operation.atomic (o : Operation) : o.perform.Atomic := by
  cases o with
  | write w => exact w.atomic
  | query q => exact Session.reads_store.bind fun s => (Session.reads_lift _).atomic
  | close => exact (Session.atomic_write _).map _
  | reopen => exact (Session.atomic_write _).map _
  | reopenReadOnly => exact (Session.atomic_write _).map _

/-- **An operation that fails leaves the store as it was.** The store may be anything: open, read
only or closed, with images that were tampered with. Writes in steps come to `put` and `delete`. A
name that is empty or too long is refused when the image and its record are written already; an
image without an acceptable header is refused before anything is. -/
theorem Operation.failure_changes_nothing (s : ModuleStore) :
    (∀ (o : Operation) (s' : ModuleStore) (e : Error), o.perform s = (s', .error e) → s' = s) ∧
    (∀ w : Write, (write w).perform s = Session.commit s (w.run s)) ∧
    (∀ (now : Int) (name : String) (image : ByteArray) (header : Header),
      Header.parse image = .ok header → s.access = .readWrite →
      name.utf8ByteSize = 0 ∨ 32768 < name.utf8ByteSize →
        let record := ModuleRecord.ofImage name image header now s.puts
        ∃ draft e, Session.putSteps name image record s = (draft, .error (.name e)) ∧
          draft.images.get? (.ofImage image) = some (Zstd.compress image) ∧
          draft.records.get? (.ofImage image) = some record ∧
          (write (.put now name image)).perform s = (s, .error (.name e))) ∧
    (∀ (now : Int) (name : String) (image : ByteArray) (e : LoadError),
      Header.parse image = .error e →
        (write (.put now name image)).perform s = (s, .error (.image e))) := by
  refine ⟨fun o => o.atomic s, fun w => w.perform_eq s, ?_, ?_⟩
  · intro now name image header hparse haccess hname record
    obtain ⟨e, he⟩ := exists_checkName_error hname
    have hsteps := Session.putSteps_of_name_error s he image record
    refine ⟨_, e, hsteps, ?_, ?_, ?_⟩
    · exact (Table.get?_insert _ _ _ _).trans (if_pos rfl)
    · exact (Table.get?_insert _ _ _ _).trans (if_pos rfl)
    · rw [perform, Write.perform_eq, Write.run, put_eq_match, hparse, haccess, he]
      rfl
  · intro now name image e hparse
    rw [perform, Write.perform_eq, Write.run, put_eq_match, hparse]
    rfl

end

/-- A name that is missing is refused after the image and its record are written. The store does not
have them afterwards. -/
theorem Operation.failure_changes_nothing_missing_name :
    ∃ header draft e, Header.parse Module.sampleImage = .ok header ∧
      Session.putSteps "" Module.sampleImage (.ofImage "" Module.sampleImage header 1 0) {}
        = (draft, .error e) ∧
      draft.images.contains (.ofImage Module.sampleImage) = true ∧
      (write (.put 1 "" Module.sampleImage)).perform {} = ({}, .error e) := by
  cases hparse : Header.parse Module.sampleImage with
  | error e =>
    have hok : (Header.parse Module.sampleImage).isOk = true := by
      decide +kernel
    rw [hparse] at hok
    contradiction
  | ok header =>
    obtain ⟨-, -, hname, -⟩ := failure_changes_nothing {}
    obtain ⟨draft, e, hsteps, himage, -, hput⟩ :=
      hname 1 "" Module.sampleImage header hparse rfl (.inl rfl)
    exact ⟨header, draft, .name e, rfl, hsteps, by rw [Table.contains, himage]; rfl, hput⟩

end ModuleStore

end BytecodeHost
