import Mathlib.Data.List.Induction

/-!
# The last of a log

A log lists the writes that a store has carried out, the latest at the end. Whatever a store is
asked, it answers for the last write of some kind, provided that nothing has come after it that puts
an end to what was written. `LastIn` says that of one place in the log, together with all that comes
before the place.

## Main definitions

* `LastIn` — the last element of a log that nothing has put an end to

## Main results

* `lastIn_concat` — what comes last when the log grows by one element
* `exists_lastIn` — one of the elements of a kind is the last
-/

namespace BytecodeHost

variable {α : Type} {log before : List α} {a : α} {ends : α → Prop}

/-- An element that stands in a log after the elements `before`, with nothing behind it that puts an
end to it. -/
def LastIn (log before : List α) (a : α) (ends : α → Prop) : Prop :=
  ∃ after, log = before ++ a :: after ∧ ∀ b ∈ after, ¬ends b

theorem not_lastIn_nil : ¬LastIn [] before a ends := by
  rintro ⟨after, h, -⟩
  cases before <;> contradiction

/-- What comes last in a longer log is what was added to it, or it came last before and is not put
an end to. -/
theorem lastIn_concat {b : α} :
    LastIn (log ++ [b]) before a ends ↔
      before = log ∧ a = b ∨ LastIn log before a ends ∧ ¬ends b := by
  constructor
  · rintro ⟨after, hlog, hends⟩
    rcases List.eq_nil_or_concat after with rfl | ⟨after, c, rfl⟩
    · left
      obtain ⟨hbefore, hlast⟩ := List.append_inj' hlog rfl
      exact ⟨hbefore.symm, (List.cons.inj hlast).1.symm⟩
    · right
      rw [List.concat_eq_append] at hlog hends
      rw [← List.cons_append, ← List.append_assoc] at hlog
      obtain ⟨hfront, hlast⟩ := List.append_inj' hlog rfl
      obtain rfl := (List.cons.inj hlast).1
      exact ⟨⟨after, hfront, fun d hd => hends d (List.mem_append_left _ hd)⟩,
        hends b (List.mem_append_right _ (List.mem_singleton_self b))⟩
  · rintro (⟨rfl, rfl⟩ | ⟨⟨after, rfl, hends⟩, hb⟩)
    · exact ⟨[], rfl, fun _ h => absurd h List.not_mem_nil⟩
    · refine ⟨after ++ [b], by rw [List.append_assoc, List.cons_append], fun c hc => ?_⟩
      rcases List.mem_append.mp hc with hc | hc
      · exact hends c hc
      · rw [List.mem_singleton.mp hc]
        exact hb

theorem LastIn.mem (h : LastIn log before a ends) : a ∈ log := by
  obtain ⟨after, rfl, -⟩ := h
  exact List.mem_append_right _ List.mem_cons_self

theorem LastIn.getElem?_length (h : LastIn log before a ends) : log[before.length]? = some a := by
  obtain ⟨after, rfl, -⟩ := h
  exact List.getElem?_append_right (Nat.le_refl _) ▸ by simp

/-- What would put an end to an element does not stand behind it. -/
theorem LastIn.le_length (h : LastIn log before a ends) {i : Nat} {b : α} (hi : log[i]? = some b)
    (hb : ends b) : i ≤ before.length := by
  obtain ⟨after, rfl, hends⟩ := h
  refine Nat.le_of_not_lt fun hlt => ?_
  obtain ⟨k, rfl⟩ := Nat.exists_eq_add_of_lt hlt
  rw [List.getElem?_append_right (by omega),
    show before.length + k + 1 - before.length = k + 1 by omega, List.getElem?_cons_succ] at hi
  exact hends b (List.mem_of_getElem? hi) hb

/-- One of the elements of a kind is the last. -/
theorem exists_lastIn (h : ∃ b ∈ log, ends b) : ∃ before a, ends a ∧ LastIn log before a ends := by
  induction log using List.reverseRecOn with
  | nil =>
    obtain ⟨b, hb, -⟩ := h
    exact absurd hb List.not_mem_nil
  | append_singleton log c ih =>
    by_cases hc : ends c
    · exact ⟨log, c, hc, lastIn_concat.mpr (.inl ⟨rfl, rfl⟩)⟩
    · obtain ⟨b, hb, hends⟩ := h
      rcases List.mem_append.mp hb with hb | hb
      · obtain ⟨before, a, ha, hlast⟩ := ih ⟨b, hb, hends⟩
        exact ⟨before, a, ha, lastIn_concat.mpr (.inr ⟨hlast, hc⟩)⟩
      · rw [List.mem_singleton.mp hb] at hends
        exact absurd hends hc

end BytecodeHost
