import Mathlib.Algebra.Ring.Nat
import BytecodeHost.Meter

/-!
# Ledgers of meters

A meter keeps two counters. What was used wraps, and counts charges that were refused; what remains
never wraps, and is gone once a charge was refused. A ledger is kept beside a meter, with every
charge since the last reset and its outcome, and the two counters are read off it: the one is the
sum of all amounts modulo 2^64, the other what the granted amounts leave of the limit.

## Main definitions

* `Meter.Operation`, `Meter.Entry` — a charge or a reset, and a charge with its outcome
* `Meter.Ledger` — a meter with the charges since its last reset
* `Meter.Ledger.Balances` — what a meter has to do with its ledger

## Main results

* `Meter.granted_iff` — which charges are granted
* `Meter.Ledger.Balances.next` — a charge or a reset keeps the balance
* `Meter.ledger_balances` — a meter and its ledger balance, whatever was charged and reset
-/

namespace BytecodeHost.Meter

variable {m : Meter} {limit n : UInt64}

/-! ## A charge -/

@[simp] theorem limit_charge (m : Meter) (n : UInt64) : (m.charge n).1.limit = m.limit := by
  simp only [charge]
  split
  · rfl
  · split <;> rfl

@[simp] theorem used_charge (m : Meter) (n : UInt64) : (m.charge n).1.used = m.used + n := by
  simp only [charge]
  split
  · rfl
  · split <;> rfl

theorem granted_of_limit_eq_zero (h : m.limit = 0) : (m.charge n).2 = true := by
  simp [charge, h]

theorem remaining_charge_of_limit_eq_zero (h : m.limit = 0) :
    (m.charge n).1.remaining = m.remaining := by
  simp [charge, h]

/-- With a limit, a charge is granted exactly if what remains covers it. -/
theorem granted_iff (hlimit : m.limit ≠ 0) : (m.charge n).2 = true ↔ n ≤ m.remaining := by
  rw [charge, if_neg hlimit, ← UInt64.not_lt]
  split <;> simp [*]

theorem toNat_remaining_of_granted (hlimit : m.limit ≠ 0) (h : (m.charge n).2 = true) :
    (m.charge n).1.remaining.toNat + n.toNat = m.remaining.toNat := by
  have hle : n ≤ m.remaining := (granted_iff hlimit).mp h
  rw [charge, if_neg hlimit, if_neg (UInt64.not_lt.mpr hle)]
  show (m.remaining - n).toNat + n.toNat = m.remaining.toNat
  rw [UInt64.toNat_sub_of_le _ _ hle]
  exact Nat.sub_add_cancel (UInt64.le_iff_toNat_le.mp hle)

theorem remaining_of_refused (h : (m.charge n).2 = false) : (m.charge n).1.remaining = 0 := by
  simp only [charge] at h ⊢
  split at h
  · contradiction
  · rename_i hlimit
    rw [if_neg hlimit]
    split at h
    · rename_i hlt
      rw [if_pos hlt]
    · contradiction

/-- No charge adds to what remains. -/
theorem toNat_remaining_charge_le (hlimit : m.limit ≠ 0) (n : UInt64) :
    (m.charge n).1.remaining.toNat ≤ m.remaining.toNat := by
  cases h : (m.charge n).2 with
  | false =>
    rw [remaining_of_refused h]
    exact Nat.zero_le _
  | true =>
    rw [← toNat_remaining_of_granted hlimit h]
    exact Nat.le_add_right _ _

/-! ## Ledgers -/

/-- What is done to a meter. -/
inductive Operation where
  | charge (n : UInt64)
  | reset

/-- A charge and its outcome. -/
structure Entry where
  /-- What was charged. -/
  amount : UInt64
  /-- Whether it was granted. -/
  granted : Bool

/-- A meter with the charges since its last reset, the earliest first. -/
structure Ledger where
  /-- The meter. -/
  meter : Meter
  /-- The charges since the last reset. -/
  entries : List Entry

namespace Ledger

/-- A fresh meter, to which nothing was charged. -/
def opened (limit : UInt64) : Ledger :=
  ⟨new limit, []⟩

/-- The ledger after an operation. A charge is entered with its outcome, and a reset starts anew. -/
def next (l : Ledger) : Operation → Ledger
  | .charge n => ⟨(l.meter.charge n).1, l.entries ++ [⟨n, (l.meter.charge n).2⟩]⟩
  | .reset => ⟨l.meter.reset, []⟩

/-- The ledger of a meter with a limit after some operations. -/
def after (limit : UInt64) (operations : List Operation) : Ledger :=
  operations.foldl next (opened limit)

/-- The sum of all amounts since the last reset. It does not wrap. -/
def charged (l : Ledger) : Nat :=
  (l.entries.map fun e => e.amount.toNat).sum

/-- The sum of the granted amounts since the last reset. It does not wrap. -/
def granted (l : Ledger) : Nat :=
  ((l.entries.filter (·.granted)).map fun e => e.amount.toNat).sum

theorem charged_charge (l : Ledger) (n : UInt64) :
    (l.next (.charge n)).charged = l.charged + n.toNat := by
  simp [charged, next]

theorem granted_charge_of_granted {l : Ledger} (h : (l.meter.charge n).2 = true) :
    (l.next (.charge n)).granted = l.granted + n.toNat := by
  simp [granted, next, h]

theorem granted_charge_of_refused {l : Ledger} (h : (l.meter.charge n).2 = false) :
    (l.next (.charge n)).granted = l.granted := by
  simp [granted, next, h]

/-- Every charge since the last reset was granted. -/
def AllGranted (l : Ledger) : Prop :=
  ∀ e ∈ l.entries, e.granted = true

theorem allGranted_charge_iff {l : Ledger} :
    (l.next (.charge n)).AllGranted ↔ l.AllGranted ∧ (l.meter.charge n).2 = true := by
  simp [AllGranted, next, or_imp, forall_and]

/-- A meter balances its ledger. -/
structure Balances (limit : UInt64) (l : Ledger) : Prop where
  /-- The limit is never changed. -/
  limit_eq : l.meter.limit = limit
  /-- All amounts count as used, the refused ones too. -/
  used_eq : l.meter.used.toNat = l.charged % 2 ^ 64
  /-- Without a limit nothing is refused, and nothing remains. -/
  unlimited : limit = 0 → l.AllGranted ∧ l.meter.remaining = 0
  /-- What is granted stays within the limit. -/
  granted_le : limit ≠ 0 → l.granted ≤ limit.toNat
  /-- Before the first refusal, what is granted and what remains make up the limit. -/
  granted_add_remaining :
    limit ≠ 0 → l.AllGranted → l.granted + l.meter.remaining.toNat = limit.toNat
  /-- After the first refusal nothing remains. -/
  remaining_eq_zero : limit ≠ 0 → ¬l.AllGranted → l.meter.remaining = 0
  /-- After a refusal only charges of nothing are granted. -/
  refused : l.entries.Pairwise fun e f => e.granted = false → f.amount ≠ 0 → f.granted = false

theorem balances_opened (limit : UInt64) : (opened limit).Balances limit where
  limit_eq := rfl
  used_eq := rfl
  unlimited := fun h => ⟨nofun, h⟩
  granted_le := fun _ => Nat.zero_le _
  granted_add_remaining := fun _ _ => Nat.zero_add _
  remaining_eq_zero := fun _ h => absurd nofun h
  refused := .nil

namespace Balances

variable {l : Ledger}

theorem limit_ne (h : l.Balances limit) (hlimit : limit ≠ 0) : l.meter.limit ≠ 0 :=
  fun hzero => hlimit (h.limit_eq.symm.trans hzero)

/-- Once a charge was refused, no amount but zero is granted. -/
theorem refused_of_not_allGranted (h : l.Balances limit) (hlimit : limit ≠ 0)
    (hrefused : ¬l.AllGranted) (hn : n ≠ 0) : (l.meter.charge n).2 = false := by
  rw [← Bool.not_eq_true, granted_iff (h.limit_ne hlimit), h.remaining_eq_zero hlimit hrefused]
  exact fun hle => hn (UInt64.le_zero_iff.mp hle)

/-- What is granted stays within the limit after a charge: a charge that is granted was covered by
what remained. -/
theorem granted_charge_le (h : l.Balances limit) (hlimit : limit ≠ 0) (n : UInt64) :
    (l.next (.charge n)).granted ≤ limit.toNat := by
  have hle := h.granted_le hlimit
  cases hcharge : (l.meter.charge n).2 with
  | false => rwa [granted_charge_of_refused hcharge]
  | true =>
    rw [granted_charge_of_granted hcharge]
    have hspent := toNat_remaining_of_granted (h.limit_ne hlimit) hcharge
    by_cases hall : l.AllGranted
    · have hbalance := h.granted_add_remaining hlimit hall
      omega
    · rw [h.remaining_eq_zero hlimit hall, UInt64.toNat_zero] at hspent
      omega

/-- A charge keeps the balance. -/
theorem charge (h : l.Balances limit) (n : UInt64) : (l.next (.charge n)).Balances limit where
  limit_eq := (limit_charge _ _).trans h.limit_eq
  used_eq := by
    rw [charged_charge, next, used_charge, UInt64.toNat_add, h.used_eq, Nat.mod_add_mod]
  unlimited := fun hlimit => by
    obtain ⟨hall, hremaining⟩ := h.unlimited hlimit
    have hunlimited := h.limit_eq.trans hlimit
    exact ⟨allGranted_charge_iff.mpr ⟨hall, granted_of_limit_eq_zero hunlimited⟩,
      (remaining_charge_of_limit_eq_zero hunlimited).trans hremaining⟩
  granted_le := fun hlimit => h.granted_charge_le hlimit n
  granted_add_remaining := fun hlimit hall => by
    obtain ⟨hall, hcharge⟩ := allGranted_charge_iff.mp hall
    have hspent := toNat_remaining_of_granted (h.limit_ne hlimit) hcharge
    have hbalance := h.granted_add_remaining hlimit hall
    rw [granted_charge_of_granted hcharge]
    show l.granted + n.toNat + (l.meter.charge n).1.remaining.toNat = limit.toNat
    omega
  remaining_eq_zero := fun hlimit hrefused => by
    cases hcharge : (l.meter.charge n).2 with
    | false => exact remaining_of_refused hcharge
    | true =>
      -- An earlier charge was refused, so nothing was left, and the amount is zero.
      have hearlier : ¬l.AllGranted :=
        fun hall => hrefused (allGranted_charge_iff.mpr ⟨hall, hcharge⟩)
      have hspent := toNat_remaining_of_granted (h.limit_ne hlimit) hcharge
      rw [h.remaining_eq_zero hlimit hearlier, UInt64.toNat_zero] at hspent
      exact UInt64.toNat_inj.mp (Nat.eq_zero_of_add_eq_zero_right hspent)
  refused := by
    refine List.pairwise_append.mpr ⟨h.refused, List.pairwise_singleton _ _, ?_⟩
    intro e he f hf hrefused hamount
    obtain rfl := List.mem_singleton.mp hf
    have hlimit : limit ≠ 0 := fun hzero =>
      Bool.false_ne_true (hrefused.symm.trans ((h.unlimited hzero).1 e he))
    refine h.refused_of_not_allGranted hlimit (fun hall => ?_) hamount
    exact Bool.false_ne_true (hrefused.symm.trans (hall e he))

/-- A charge or a reset keeps the balance. -/
theorem next (h : l.Balances limit) : (o : Operation) → (l.next o).Balances limit
  | .charge n => h.charge n
  | .reset => by
    rw [Ledger.next, reset, h.limit_eq]
    exact balances_opened limit

theorem foldl (h : l.Balances limit) (operations : List Operation) :
    (operations.foldl Ledger.next l).Balances limit := by
  induction operations generalizing l with
  | nil => exact h
  | cons o operations ih => exact ih (h.next o)

end Balances

end Ledger

/-- **A meter and its ledger balance**, whatever was charged to the meter and however often it was
reset. And the next charge is granted, without a limit always, and with one exactly if what remains
covers it. -/
theorem ledger_balances (limit : UInt64) (operations : List Operation) :
    (Ledger.after limit operations).Balances limit ∧
      ∀ n, ((Ledger.after limit operations).meter.charge n).2 = true ↔
        limit = 0 ∨ n ≤ (Ledger.after limit operations).meter.remaining := by
  have h : (Ledger.after limit operations).Balances limit :=
    (Ledger.balances_opened limit).foldl operations
  refine ⟨h, fun n => ?_⟩
  by_cases hlimit : limit = 0
  · exact iff_of_true (granted_of_limit_eq_zero (h.limit_eq.trans hlimit)) (.inl hlimit)
  · rw [granted_iff (h.limit_ne hlimit), or_iff_right hlimit]

/-- A charge that is far too large, for a meter that was reset, and two more charges. -/
def overdraft : List Operation :=
  [.charge 4, .reset, .charge 0xffffffffffffffff, .charge 6, .charge 0]

/-- The overdraft empties a meter for ten instructions. Six more make the total wrap to five, which
is within the limit again, and are refused all the same. Nothing at all is still granted. -/
theorem ledger_balances_overdraft :
    (Ledger.after 10 overdraft).Balances 10 ∧
      (Ledger.after 10 overdraft).meter = ⟨10, 0, 5⟩ ∧
      (Ledger.after 10 overdraft).entries.map Entry.granted = [false, false, true] :=
  ⟨(ledger_balances 10 overdraft).1, by decide +kernel, by decide +kernel⟩

end BytecodeHost.Meter
