import BytecodeHost.Machine.Operands
import Mathlib.Data.List.Basic

/-!
# Operands that are in use

The top of the operands is a byte that wraps around, and slots above it keep what they last held. An
activation starts with one operand, the sentinel in slot zero, so as long as the top does not wrap,
the slots from the top down to slot zero are an ordinary stack. `Operands.Holds` says which one, and
says nothing about the other slots.

## Main definitions

* `Operands.Holds` — the values from the top down to slot zero

## Main results

* `Operands.Holds.push`, `Operands.Holds.drop`, `Operands.Holds.setFirst` — operands as a stack
* `Operands.Holds.balanced` — a result above the sentinel is balanced
-/

namespace BytecodeHost

namespace Operands

variable {s : Operands}

/-! ## Slots -/

theorem slot_setSlot_self (s : Operands) (i : UInt8) (x : UInt32) : (s.setSlot i x).slot i = x :=
  Vector.getElem_set_self i.toNat_lt

theorem slot_setSlot_of_ne {i j : UInt8} (h : j ≠ i) (x : UInt32) :
    (s.setSlot i x).slot j = s.slot j :=
  Vector.getElem_set_ne i.toNat_lt j.toNat_lt fun heq => h (UInt8.toNat_inj.mp heq.symm)

/-- An operand that is pushed in place of another one. -/
theorem push_drop_one (s : Operands) (x : UInt32) : (s.drop 1).push x = s.setFirst x := by
  have htop : s.top - 1 + 1 = s.top := UInt8.sub_add_cancel s.top 1
  rw [push, raise, drop, setFirst, setFirst, htop]

/-! ## Stacks -/

/-- The values in the slots from the top down to slot zero. -/
structure Holds (s : Operands) (l : List UInt32) : Prop where
  /-- Slot zero is the last. -/
  length : l.length = s.top.toNat + 1
  /-- The values come from the top down. -/
  value : ∀ (i : Nat) (h : i < l.length), s.slot (s.top - UInt8.ofNat i) = l[i]

theorem holds_initial : initial.Holds [sentinel] where
  length := rfl
  value i h := by
    obtain rfl : i = 0 := Nat.lt_one_iff.mp h
    rfl

namespace Holds

variable {l : List UInt32} {x y v : UInt32}

theorem length_le (h : s.Holds l) : l.length ≤ 256 := by
  have := s.top.toNat_lt
  rw [h.length]
  omega

theorem first (h : s.Holds (x :: l)) : s.first = x := by
  have hvalue := h.value 0 (Nat.succ_pos _)
  rwa [show s.top - UInt8.ofNat 0 = s.top from UInt8.sub_zero s.top] at hvalue

theorem second (h : s.Holds (x :: y :: l)) : s.second = y :=
  h.value 1 (by simp)

/-- Slots below the top are other slots. -/
theorem top_sub_ne {i : Nat} (h : i + 1 < 256) (t : UInt8) : t - UInt8.ofNat (i + 1) ≠ t := by
  intro heq
  have hzero : UInt8.ofNat (i + 1) = 0 := by grind
  have hnat := congrArg UInt8.toNat hzero
  rw [UInt8.toNat_ofNat_of_lt' h] at hnat
  exact absurd hnat (Nat.succ_ne_zero i)

theorem setFirst (h : s.Holds (x :: l)) (v : UInt32) : (s.setFirst v).Holds (v :: l) where
  length := h.length
  value i hi := by
    have hle := h.length_le
    rw [List.length_cons] at hi hle
    cases i with
    | zero =>
      rw [show (s.setFirst v).top - UInt8.ofNat 0 = s.top from UInt8.sub_zero s.top]
      exact slot_setSlot_self s s.top v
    | succ i => exact (slot_setSlot_of_ne (top_sub_ne (by omega) _) v).trans (h.value (i + 1) hi)

theorem drop (h : s.Holds (x :: y :: l)) : (s.drop 1).Holds (y :: l) where
  length := by
    have hlength := h.length
    have htop : (1 : UInt8) ≤ s.top := by
      simp only [List.length_cons] at hlength
      exact UInt8.le_iff_toNat_le.mpr (show 1 ≤ s.top.toNat by omega)
    have hsub : (s.drop 1).top.toNat = s.top.toNat - 1 := UInt8.toNat_sub_of_le s.top 1 htop
    simp only [List.length_cons] at hlength ⊢
    omega
  value i hi := by
    have hvalue := h.value (i + 1) (Nat.succ_lt_succ hi)
    have hslot : (s.drop 1).top - UInt8.ofNat i = s.top - UInt8.ofNat (i + 1) := by
      have hone : (s.drop 1).top = s.top - 1 := rfl
      rw [hone, UInt8.ofNat_add]
      grind
    rw [hslot]
    exact hvalue

theorem push (h : s.Holds l) (hroom : l.length ≤ 255) (v : UInt32) : (s.push v).Holds (v :: l) := by
  have htop : (s.top + 1).toNat = s.top.toNat + 1 := by
    have hlength := h.length
    rw [UInt8.toNat_add]
    exact Nat.mod_eq_of_lt (show s.top.toNat + 1 < 256 by omega)
  refine ⟨?_, fun i hi => ?_⟩
  · rw [List.length_cons, h.length]
    exact congrArg (· + 1) htop.symm
  · rw [List.length_cons] at hi
    cases i with
    | zero =>
      rw [show (s.push v).top - UInt8.ofNat 0 = s.raise.top from UInt8.sub_zero _]
      exact slot_setSlot_self s.raise s.raise.top v
    | succ i =>
      have hslot : (s.push v).top - UInt8.ofNat (i + 1) = s.top - UInt8.ofNat i := by
        have hone : (s.push v).top = s.top + 1 := rfl
        rw [hone, UInt8.ofNat_add]
        grind
      have hne : s.top - UInt8.ofNat i ≠ s.raise.top := by
        rw [← hslot]
        exact top_sub_ne (by omega) _
      rw [hslot]
      exact (slot_setSlot_of_ne hne v).trans (h.value i (Nat.lt_of_succ_lt_succ hi))

/-- **A result above the sentinel is balanced.** -/
theorem balanced (h : s.Holds [x, sentinel]) : s.balanced = true := by
  have htop : s.top = 1 := UInt8.toNat_inj.mp (Nat.succ_inj.mp h.length).symm
  have hslot : s.slot (s.top - UInt8.ofNat 1) = sentinel := h.value 1 (by simp)
  rw [htop] at hslot
  rw [Operands.balanced, htop]
  exact beq_iff_eq.mpr hslot

end Holds

end Operands

end BytecodeHost
