/-!
# Finite maps

A table is a list of entries with at most one entry for each key. The latest entry stands first.

## Main results

* `Table.get?_eq_some_iff`: a look-up finds the entries of a table and nothing else.
* `Table.get?_insert`, `Table.get?_erase`, `Table.get?_filter`: what an update does to every
  look-up.
-/

namespace BytecodeHost

/-- A finite map from `α` to `β`. -/
structure Table (α β : Type) where
  /-- The entries, the latest first. -/
  entries : List (α × β)
  /-- No key has two entries. -/
  nodup_keys : (entries.map (·.1)).Nodup
  deriving DecidableEq

namespace Table

variable {α β : Type}

/-- The table without entries. -/
def empty : Table α β := ⟨[], List.nodup_nil⟩

variable [DecidableEq α]

/-- The value at a key. -/
def get? (t : Table α β) (k : α) : Option β :=
  (t.entries.find? (fun e => e.1 = k)).map (·.2)

/-- Whether a key has a value. -/
def contains (t : Table α β) (k : α) : Bool :=
  (t.get? k).isSome

/-- The values, those of the latest keys first. -/
def values (t : Table α β) : List β :=
  t.entries.map (·.2)

/-- The table with the entries that satisfy `p`. -/
def filter (p : α → β → Bool) (t : Table α β) : Table α β where
  entries := t.entries.filter fun e => p e.1 e.2
  nodup_keys := (List.filter_sublist.map _).nodup t.nodup_keys

/-- The table without a key. -/
def erase (t : Table α β) (k : α) : Table α β :=
  t.filter fun k' _ => k' ≠ k

/-- The table with a value at a key, which replaces an earlier one. -/
def insert (t : Table α β) (k : α) (v : β) : Table α β where
  entries := (k, v) :: (t.erase k).entries
  nodup_keys := List.nodup_cons.mpr ⟨by simp [erase, filter], (t.erase k).nodup_keys⟩

/-- A look-up finds the entries of a table and nothing else. -/
theorem get?_eq_some_iff (t : Table α β) (k : α) (v : β) :
    t.get? k = some v ↔ (k, v) ∈ t.entries := by
  obtain ⟨entries, nodup_keys⟩ := t
  induction entries with
  | nil => simp [get?]
  | cons e entries ih =>
    obtain ⟨habsent, hrest⟩ := List.nodup_cons.mp nodup_keys
    by_cases hk : e.1 = k
    · have hnot : (k, v) ∉ entries := fun h => habsent (List.mem_map.mpr ⟨(k, v), h, hk.symm⟩)
      simp only [get?, List.find?_cons, hk, decide_true, List.mem_cons, hnot, or_false]
      constructor
      · intro h
        rw [← Option.some.inj h, ← hk]
      · intro h
        rw [← h]
        rfl
    · have hne : (k, v) ≠ e := fun h => hk (by rw [← h])
      have hfind := ih hrest
      simp only [get?, List.find?_cons, hk, decide_false, List.mem_cons, hne, false_or] at hfind ⊢
      exact hfind

theorem get?_filter (t : Table α β) (p : α → β → Bool) (k : α) :
    (t.filter p).get? k = (t.get? k).filter (p k) := by
  ext v
  rw [get?_eq_some_iff, Option.filter_eq_some_iff, get?_eq_some_iff]
  exact List.mem_filter

theorem get?_erase (t : Table α β) (k j : α) :
    (t.erase k).get? j = if j = k then none else t.get? j := by
  rw [erase, get?_filter]
  by_cases h : j = k
  · simp [h]
  · cases t.get? j <;> simp [h]

theorem get?_insert (t : Table α β) (k j : α) (v : β) :
    (t.insert k v).get? j = if j = k then some v else t.get? j := by
  by_cases h : j = k
  · subst h
    simp [insert, get?]
  · have hk : ¬ k = j := fun e => h e.symm
    have := get?_erase t k j
    simp only [h, if_false] at this ⊢
    rw [← this]
    simp [insert, get?, hk]

end Table

end BytecodeHost
