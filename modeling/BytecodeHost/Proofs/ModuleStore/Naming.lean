import BytecodeHost.Proofs.ModuleStore.History

/-!
# Listed names

A record keeps the name of the last put of its image, and a name stands for the image last put under
it. These are two things: another image may be put under the name, and then the record is listed
under a name that stands for the other. If that image is removed, so is the name, and nothing stands
for it though it is still listed.

This is the only way for a listed name to be lost.

## Main definitions

* `ModuleStore.Overtaken` — the name of a record is lost

## Main results

* `ModuleStore.listed_names` — a listed name stands for an image, or it is lost
-/

namespace BytecodeHost

namespace ModuleStore

variable {s : ModuleStore} {log : List Write}

/-! ## Names that are lost -/

/-- Another image was put under the name of a record, and the last such image was removed since. -/
def Overtaken (log : List Write) (r : ModuleRecord) : Prop :=
  ∃ before later now image, log = before ++ .put now r.name image :: later ∧
    .ofImage image ≠ r.id ∧ (∀ w ∈ later, w.name? ≠ some r.name) ∧ .delete (.ofImage image) ∈ later

/-- The last put under the name of a record is that of the record, or a later one. -/
theorem LastPut.exists_last_name {before : List Write} {id : ModuleId} {now : Int} {name : String}
    {image : ByteArray} (h : LastPut log id before now name image) :
    ∃ before' later now' image', log = before' ++ .put now' name image' :: later ∧
      (∀ w ∈ later, w.name? ≠ some name) ∧ before.length ≤ before'.length := by
  obtain ⟨before', w, hw, hlast⟩ :=
    @exists_lastIn _ log (fun w => w.name? = some name) ⟨_, h.mem, rfl⟩
  have hle := hlast.le_length h.2.getElem?_length rfl
  obtain ⟨later, hlog, hends⟩ := hlast
  cases w with
  | put now' name' image' =>
    obtain rfl := Option.some.inj hw
    exact ⟨before', later, now', image', hlog, hends, hle⟩
  | delete id' => contradiction

/-- The last put under a name decides what the name stands for. -/
theorem named_iff_of_last {before later : List Write} {now : Int} {name : String}
    {image : ByteArray} (hlog : log = before ++ .put now name image :: later)
    (hlater : ∀ w ∈ later, w.name? ≠ some name) (id : ModuleId) :
    Named log name id ↔ .ofImage image = id ∧ .delete id ∉ later := by
  have hlast : LastIn log before (.put now name image) fun w => w.name? = some name :=
    ⟨later, hlog, hlater⟩
  constructor
  · rintro ⟨before', now', image', hid, hlast'⟩
    have hle := hlast.le_length hlast'.getElem?_length rfl
    have hle' := hlast'.le_length hlast.getElem?_length (.inl rfl)
    obtain ⟨later', hlog', hends⟩ := hlast'
    rw [hlog] at hlog'
    obtain ⟨-, htail⟩ := List.append_inj hlog' (by omega)
    obtain ⟨hput, rfl⟩ := List.cons.inj htail
    obtain ⟨-, -, rfl⟩ := Write.put.inj hput
    exact ⟨hid, fun hmem => hends _ hmem (.inr rfl)⟩
  · rintro ⟨hid, hmem⟩
    refine ⟨before, now, image, hid, later, hlog, fun w hw hend => ?_⟩
    rcases hend with hname | rfl
    · exact hlater w hw hname
    · exact hmem hw

/-- What comes behind the last put of a record does not remove it. -/
theorem LastPut.ne_of_delete_mem {before before' later : List Write} {id : ModuleId} {now : Int}
    {name : String} {image : ByteArray} {w : Write} (h : LastPut log id before now name image)
    (hlog : log = before' ++ w :: later) (hle : before.length ≤ before'.length) {id' : ModuleId}
    (hmem : .delete id' ∈ later) : id' ≠ id := by
  rintro rfl
  obtain ⟨i, hi⟩ := List.mem_iff_getElem?.mp hmem
  have hat : log[before'.length + (i + 1)]? = some (.delete id') := by
    rw [hlog, List.getElem?_append_right (Nat.le_add_right _ _), Nat.add_sub_cancel_left,
      List.getElem?_cons_succ]
    exact hi
  have := h.2.le_length hat (.inr rfl)
  omega

theorem Overtaken.not_named {r : ModuleRecord} (h : Overtaken log r) (id : ModuleId) :
    ¬Named log r.name id := by
  obtain ⟨before, later, now, image, hlog, -, hlater, hmem⟩ := h
  rw [named_iff_of_last hlog hlater]
  rintro ⟨rfl, hnot⟩
  exact hnot hmem

theorem resolve_of_forall_ne {name : String} (hopen : s.requireOpen = .ok ())
    (h : ∀ id, s.resolve name ≠ .ok id) : s.resolve name = .error (.nameNotFound name) := by
  cases hget : s.names.get? name with
  | none =>
    simp only [resolve, hopen, hget]
    rfl
  | some id => exact absurd ((resolve_eq_ok_iff_get? hopen name id).mpr hget) (h id)

section

variable [Zstd.Compressor]

/-- The name of a record stands for an image that is there, or it is lost. -/
theorem Reflects.resolve_name (h : Reflects s log) (haccess : s.access ≠ .closed)
    {r : ModuleRecord} (hr : s.record r.id = .ok r) :
    ¬Overtaken log r ∧ (∃ id, s.resolve r.name = .ok id ∧ s.has id = true) ∨
      Overtaken log r ∧ s.resolve r.name = .error (.nameNotFound r.name) := by
  have hopen : s.requireOpen = .ok () := if_neg haccess
  obtain ⟨before, now, name, image, header, hlast, -, hrecord⟩ :=
    (h.record_eq_ok_iff hopen _ r).mp hr
  obtain rfl : r.name = name := by
    rw [hrecord]
    rfl
  obtain ⟨before', later, now', image', hlog, hlater, hle⟩ := hlast.exists_last_name
  by_cases hmem : .delete (.ofImage image') ∈ later
  · right
    have hovertaken : Overtaken log r :=
      ⟨before', later, now', image', hlog, hlast.ne_of_delete_mem hlog hle hmem, hlater, hmem⟩
    exact ⟨hovertaken, resolve_of_forall_ne hopen fun id hid =>
      hovertaken.not_named id ((h.resolve_eq_ok_iff hopen _ _).mp hid)⟩
  · left
    have hnamed : Named log r.name (.ofImage image') :=
      (named_iff_of_last hlog hlater _).mpr ⟨rfl, hmem⟩
    have hkept : Kept log (.ofImage image') :=
      ⟨before', now', r.name, image', rfl, later, hlog, fun w hw hdelete => hmem (hdelete ▸ hw)⟩
    exact ⟨fun hovertaken => hovertaken.not_named _ hnamed, .ofImage image',
      (h.resolve_eq_ok_iff hopen _ _).mpr hnamed, (h.has_iff haccess _).mpr hkept⟩

theorem access_perform_write (s : ModuleStore) (w : Write) : (w.perform s).1.access = s.access := by
  rcases w.perform_cases s with ⟨e, hw⟩ | ⟨s', answer, hw, hmakes⟩
  · rw [hw]
  · rw [hw]
    cases hmakes <;> rfl

theorem access_after_writes (s : ModuleStore) (ws : List Write) :
    (s.after (ws.map .write)).access = s.access := by
  induction ws generalizing s with
  | nil => rfl
  | cons w ws ih => exact (ih _).trans (access_perform_write s w)

/-- **A listed name stands for an image, or it is lost.** It is lost if another image was put under
the name after the image that is listed, and that other image was removed. The store is a new one
into which images were put and from which they were removed, with success or without. -/
theorem listed_names (attempts : List Write) :
    let s := after {} (attempts.map .write)
    let log := successes {} (attempts.map .write)
    ∃ rs, s.list = .ok rs ∧ ∀ r ∈ rs,
      ¬Overtaken log r ∧ (∃ id, s.resolve r.name = .ok id ∧ s.has id = true) ∨
        Overtaken log r ∧ s.resolve r.name = .error (.nameNotFound r.name) := by
  intro s log
  have hreflects : Reflects s log := reflects_empty.after _
  have haccess : s.access ≠ .closed := by
    rw [access_after_writes]
    decide
  obtain ⟨rs, hlist, -, hmem, -⟩ := hreflects.exists_list (if_neg haccess)
  exact ⟨rs, hlist, fun r hr => hreflects.resolve_name haccess ((hmem r).mp hr)⟩

end

/-! ### A lost name -/

/-- A second image takes the name of the first, and is removed. -/
def sampleTakeover : List Write :=
  [.put 1 "a" Module.sampleImage, .put 2 "a" (Module.sampleImage.push 0),
    .delete (.ofImage (Module.sampleImage.push 0))]

/-- The first image is still listed under the name that it was put under, but nothing has the
name. -/
theorem listed_name_not_found :
    let s := after {} (sampleTakeover.map .write)
    (s.list.map fun rs => rs.map fun r => (r.name, s.resolve r.name))
      = .ok [("a", .error (.nameNotFound "a"))] := by
  decide +kernel

end ModuleStore

end BytecodeHost
