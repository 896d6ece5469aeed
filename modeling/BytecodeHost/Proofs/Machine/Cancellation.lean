import BytecodeHost.Proofs.Machine.Operands
import BytecodeHost.Proofs.Machine.Threshold

/-!
# Callers that have stopped waiting

An activation looks at its caller at every 4096th instruction and at no other time, so a call whose
caller had stopped waiting before it started still gets that far. A call of at most 4095
instructions is over before anyone looks: it is the call as if its caller waited. Any other call
ends with its 4096th instruction, which is charged and not carried out. This is also how a call that
would never return comes to an end.

Two courses are followed, with the caller that waits and with the one that does not. Up to the look
at the caller one is the other with another interruption in it, as an equation between points. What
carries it is that the activation counts the charges of the course. It would not with calls back, as
each of these has its own count; hence the condition that no trap calls back. Without a limit
nothing is asked of the host apart from it. With one the host must not depend on the meter, because
a host that reads the limit can have the module do less than it would do without
(`Machine.limit_seen_by_host`).

## Main definitions

* `Point.withInterruption` — the same point for another caller
* `Point.Counts` — the innermost activation has counted the instructions of the course
* `Machine.WithoutCallsBack` — no trap of a call calls back
* `Invocation.abandoned` — the same call for a caller that does not wait

## Main results

* `Point.steps_withInterruption` — courses agree while nobody looks at the caller
* `Point.exists_returned_or_lt_spent` — a call that never returns charges without end
* `Machine.returnsAfter_of_limit` — a limit below the first poll comes before it
* `Machine.call_abandoned` — what becomes of a call whose caller has stopped waiting
* `Machine.limit_seen_by_host` — a host that reads the meter keeps a call within a limit
-/

namespace BytecodeHost

variable {σ : Type}

/-! ## Other callers -/

/-- The same with a caller that stops waiting at another time, or never. -/
def Focus.withInterruption (i : Option Interruption) : Focus σ → Focus σ
  | executing before _ x s => executing before i x s
  | handling before trap script m => handling before { trap with interruption := i } script m
  | returning m s r => returning m s r

/-- An instruction that is accounted for alike is carried out alike. -/
theorem Focus.advance_withInterruption (host : Host σ) {before : Status}
    {i j : Option Interruption} {x : Activation} (s : σ) (h : x.account j = x.account i) :
    advance host before j x s = (advance host before i x s).withInterruption j := by
  rw [advance, advance, Activation.advance, Activation.advance, h]
  obtain ⟨y, _ | f⟩ := x.account i
  · dsimp only
    cases step y.program y.status.instructionCount y.registers y.arena <;> rfl
  · rfl

/-- A trap is answered alike, and execution goes on for its caller. -/
theorem Focus.answer_withInterruption (before : Status) (trap : Pending) (m : Machine) (s : σ)
    (reply : TrapReply) (j : Option Interruption) :
    answer before { trap with interruption := j } m s reply
      = (answer before trap m s reply).withInterruption j := by
  obtain ⟨_ | l, status⟩ := m <;> cases reply <;> rfl

namespace Point

variable {host : Host σ} {γ : Point σ} {i : Option Interruption}

/-- The same point for another caller of the innermost call. -/
def withInterruption (i : Option Interruption) (γ : Point σ) : Point σ :=
  ⟨γ.focus.withInterruption i, γ.callers⟩

/-- The instruction that is due is accounted for as with another caller. -/
def Indifferent (i : Option Interruption) : Point σ → Prop
  | ⟨.executing _ j x _, _⟩ => x.account i = x.account j
  | ⟨.handling .., _⟩ | ⟨.returning .., _⟩ => True

@[simp] theorem charges_withInterruption (i : Option Interruption) (γ : Point σ) :
    (γ.withInterruption i).charges = γ.charges := by
  obtain ⟨_ | _ | _, callers⟩ := γ <;> rfl

theorem Indifferent.dispatches (h : γ.Indifferent i) :
    (γ.withInterruption i).dispatches = γ.dispatches := by
  obtain ⟨_ | _ | _, callers⟩ := γ
  · exact congrArg (fun y : Activation × Option Fault => y.2.isNone) h
  · rfl
  · rfl

theorem indifferent_of_eq (h : γ.withInterruption i = γ) : γ.Indifferent i := by
  obtain ⟨φ, callers⟩ := γ
  cases φ with
  | executing before j x s =>
    have hfocus : Focus.executing before i x s = .executing before j x s := congrArg focus h
    rw [Indifferent, (Focus.executing.inj hfocus).2.1]
  | handling | returning => trivial

/-- **Nothing but the account of an instruction depends on the caller**, in a step that does not
call back. -/
theorem step_withInterruption (hlone : γ.callers = []) (hnext : (γ.step host).callers = [])
    (h : γ.Indifferent i) :
    (γ.withInterruption i).step host = (γ.step host).withInterruption i := by
  obtain ⟨φ, callers⟩ := γ
  obtain rfl : callers = [] := hlone
  cases φ with
  | executing before j x s =>
    exact congrArg (Point.mk · []) (Focus.advance_withInterruption host s h)
  | handling before trap script m =>
    cases script with
    | done s reply =>
      exact congrArg (Point.mk · []) (Focus.answer_withInterruption before trap m s reply i)
    | ask q k => rfl
    | call s c k => exact absurd hnext (List.cons_ne_nil _ _)
  | returning m s r => rfl

/-- **Courses agree while nobody looks at the caller**: they pass the same points, and charge and
dispatch the same instructions. -/
theorem steps_withInterruption (hlone : ∀ k, (steps host k γ).callers = []) {n : Nat}
    (h : ∀ k < n, (steps host k γ).Indifferent i) :
    steps host n (γ.withInterruption i) = (steps host n γ).withInterruption i ∧
      spent host n (γ.withInterruption i) = spent host n γ ∧
      dispatched host n (γ.withInterruption i) = dispatched host n γ := by
  induction n with
  | zero => exact ⟨rfl, rfl, rfl⟩
  | succ n ih =>
    obtain ⟨hsteps, hspent, hdispatched⟩ := ih fun k hk => h k (by omega)
    have hn := h n (Nat.lt_succ_self n)
    have hnext : ((steps host n γ).step host).callers = [] := by
      rw [← steps_succ']
      exact hlone (n + 1)
    refine ⟨?_, ?_, ?_⟩
    · rw [steps_succ', steps_succ', hsteps, step_withInterruption (hlone n) hnext hn]
    · rw [spent_succ', spent_succ', hspent, hsteps, charges_withInterruption]
    · rw [dispatched_succ', dispatched_succ', hdispatched, hsteps, hn.dispatches]

/-- A call that starts for a caller goes on for it. -/
theorem withInterruption_steps (hlone : ∀ k, (steps host k γ).callers = [])
    (h : γ.withInterruption i = γ) (n : Nat) :
    (steps host n γ).withInterruption i = steps host n γ := by
  induction n with
  | zero => exact h
  | succ n ih =>
    have hnext : ((steps host n γ).step host).callers = [] := by
      rw [← steps_succ']
      exact hlone (n + 1)
    rw [steps_succ', ← step_withInterruption (hlone n) hnext (indifferent_of_eq ih), ih]

/-! ## Counting -/

/-- The innermost activation has counted a number of instructions. -/
def Counts (k : Nat) : Point σ → Prop
  | ⟨.executing _ _ x _, _⟩ => x.executed = k
  | ⟨.handling _ trap _ _, _⟩ => trap.executed = k
  | ⟨.returning .., _⟩ => True

/-- An activation counts what it is charged for, unless it ends. -/
theorem counts_advance (host : Host σ) (before : Status) (i : Option Interruption) (x : Activation)
    (s : σ) (callers : List (Caller σ)) :
    Counts (x.executed + 1) ⟨.advance host before i x s, callers⟩ := by
  have hcount : (x.account i).2 = none → (x.account i).1.executed = x.executed + 1 := by
    intro hgranted
    obtain ⟨hpc, hcharge⟩ := Activation.granted_of_account hgranted
    rw [Activation.account_of_granted i hpc hcharge]
  rw [Focus.advance, Activation.advance]
  generalize x.account i = account at hcount
  obtain ⟨y, _ | f⟩ := account
  · have hy : y.executed = x.executed + 1 := hcount rfl
    dsimp only
    cases BytecodeHost.step y.program y.status.instructionCount y.registers y.arena with
    | next | broke | trap => exact hy
    | finish | fault | stuck => trivial
  · trivial

/-- A step keeps count, if it does not call back. -/
theorem Counts.step {k : Nat} (h : γ.Counts k) (hlone : γ.callers = [])
    (hnext : (γ.step host).callers = []) : (γ.step host).Counts (k + γ.charges.toNat) := by
  obtain ⟨φ, callers⟩ := γ
  obtain rfl : callers = [] := hlone
  cases φ with
  | executing before i x s =>
    obtain rfl : x.executed = k := h
    by_cases hpc : x.registers.pc.toNat < x.program.code.size
    · rw [charges, decide_eq_true hpc]
      exact counts_advance host before i x s []
    · -- a program counter outside the program ends the activation
      rw [Point.step, Focus.advance, Activation.advance, Activation.account,
        if_pos (Nat.le_of_not_lt hpc)]
      trivial
  | handling before trap script m =>
    obtain rfl : trap.executed = k := h
    cases script with
    | done s reply =>
      rw [Point.step, Focus.answer]
      obtain ⟨_ | l, status⟩ := m <;> cases reply <;> trivial
    | ask q l => rfl
    | call s c l => exact absurd hnext (List.cons_ne_nil _ _)
  | returning m s r => trivial

/-- **The activation counts the charges of the course**, as long as no trap calls back. -/
theorem counts_steps (hlone : ∀ k, (steps host k γ).callers = []) (h : γ.Counts 0) (n : Nat) :
    (steps host n γ).Counts (spent host n γ) := by
  induction n with
  | zero => exact h
  | succ n ih =>
    have hnext : ((steps host n γ).step host).callers = [] := by
      rw [← steps_succ']
      exact hlone (n + 1)
    rw [steps_succ', spent_succ']
    exact ih.step (hlone n) hnext

/-- Nobody looks at the caller before the instruction at which it is polled. -/
theorem Counts.indifferent {k : Nat} (h : γ.Counts k) (hwaits : γ.withInterruption none = γ)
    (hquiet : γ.charges = true → γ.refuses = false → Activation.polled i (k + 1) = none) :
    γ.Indifferent i := by
  obtain ⟨φ, callers⟩ := γ
  cases φ with
  | executing before j x s =>
    obtain rfl : x.executed = k := h
    obtain rfl : none = j := (Focus.executing.inj (congrArg focus hwaits)).2.1
    show x.account i = x.account none
    by_cases hpc : x.registers.pc.toNat < x.program.code.size
    · cases hgranted : (x.status.meter.charge 1).2 with
      | true =>
        have hpolled := hquiet (decide_eq_true hpc) (by simp [refuses, hgranted])
        rw [Activation.account_of_granted i hpc hgranted,
          Activation.account_of_granted none hpc hgranted, hpolled]
        rfl
      | false =>
        rw [Activation.account, Activation.account]
        simp [hgranted]
    · rw [Activation.account, Activation.account, if_pos (Nat.le_of_not_lt hpc),
        if_pos (Nat.le_of_not_lt hpc)]
  | handling | returning => trivial

/-! ## Courses without end -/

/-- A handler that does not call back gets to its end, which costs nothing. -/
theorem exists_answered (before : Status) (trap : Pending) (script : Script σ TrapReply)
    (m : Machine)
    (hlone : ∀ k, (steps host k ⟨.handling before trap script m, []⟩).callers = []) :
    ∃ n m' s reply, steps host n ⟨.handling before trap script m, []⟩
        = ⟨.handling before trap (.done s reply) m', []⟩ ∧
      spent host n ⟨.handling before trap script m, []⟩ = 0 := by
  induction script generalizing m with
  | done s reply => exact ⟨0, m, s, reply, rfl, rfl⟩
  | ask q k ih =>
    obtain ⟨n, m', s, reply, hn, hspent⟩ :=
      ih (q.perform m).2 (q.perform m).1 fun k => hlone (k + 1)
    refine ⟨n + 1, m', s, reply, hn, ?_⟩
    rw [spent, tally, charges, Bool.toNat_false, Nat.zero_add]
    exact hspent
  | call s c k => exact absurd (hlone 1) (List.cons_ne_nil _ _)

theorem spent_add (host : Host σ) (n k : Nat) (γ : Point σ) :
    spent host (n + k) γ = spent host n γ + spent host k (steps host n γ) :=
  tally_add host charges n k γ

/-- An activation returns or is charged for an instruction. -/
theorem executing_returned_or_spent_pos (host : Host σ) (before : Status)
    (i : Option Interruption) (x : Activation) (s : σ) :
    (∃ n, (steps host n ⟨.executing before i x s, []⟩).returned = true) ∨
      ∃ n, 0 < spent host n ⟨.executing before i x s, []⟩ := by
  by_cases hpc : x.registers.pc.toNat < x.program.code.size
  · refine .inr ⟨1, ?_⟩
    rw [spent, tally, charges, decide_eq_true hpc]
    exact Nat.zero_lt_one
  · refine .inl ⟨1, ?_⟩
    rw [steps, steps, step, Focus.advance, Activation.advance, Activation.account,
      if_pos (Nat.le_of_not_lt hpc)]
    rfl

/-- A course returns or is charged for an instruction, if no trap calls back. -/
theorem exists_returned_or_spent_pos (hlone : ∀ k, (steps host k γ).callers = []) :
    (∃ n, (steps host n γ).returned = true) ∨ ∃ n, 0 < spent host n γ := by
  obtain ⟨φ, callers⟩ := γ
  obtain rfl : callers = [] := hlone 0
  cases φ with
  | executing before i x s => exact executing_returned_or_spent_pos host before i x s
  | handling before trap script m =>
    obtain ⟨n, m', s, reply, hn, -⟩ := exists_answered before trap script m hlone
    have hanswer : steps host (n + 1) ⟨.handling before trap script m, []⟩
        = ⟨.answer before trap m' s reply, []⟩ := by
      rw [steps_succ', hn]
      rfl
    rw [Focus.answer] at hanswer
    cases hresume : trap.resume m' s reply with
    | ok x =>
      rw [hresume] at hanswer
      have hnext := executing_returned_or_spent_pos host before trap.interruption x s
      rw [← hanswer] at hnext
      obtain ⟨k, hk⟩ | ⟨k, hk⟩ := hnext
      · exact .inl ⟨n + 1 + k, by rwa [steps_add]⟩
      · exact .inr ⟨n + 1 + k, by rw [spent_add]; omega⟩
    | error e =>
      rw [hresume] at hanswer
      exact .inl ⟨n + 1, by rw [hanswer]; rfl⟩
  | returning m s r => exact .inl ⟨0, rfl⟩

/-- **A call that never returns is charged without end**, if no trap calls back. -/
theorem exists_returned_or_lt_spent (hlone : ∀ k, (steps host k γ).callers = []) (K : Nat) :
    (∃ n, (steps host n γ).returned = true) ∨ ∃ n, K < spent host n γ := by
  induction K with
  | zero => exact exists_returned_or_spent_pos hlone
  | succ K ih =>
    obtain hreturned | ⟨n, hn⟩ := ih
    · exact .inl hreturned
    · have hrest : ∀ k, (steps host k (steps host n γ)).callers = [] := fun k => by
        rw [← steps_add]
        exact hlone (n + k)
      obtain ⟨k, hk⟩ | ⟨k, hk⟩ := exists_returned_or_spent_pos hrest
      · exact .inl ⟨n + k, by rwa [steps_add]⟩
      · exact .inr ⟨n + k, by rw [spent_add]; omega⟩

/-! ## Charges and meters -/

/-- An instruction that is charged for is one of those that follow. -/
theorem spent_lt_of_charges {k n : Nat} (h : (steps host k γ).charges = true) (hk : k < n) :
    spent host k γ < spent host n γ := by
  obtain ⟨j, rfl⟩ : ∃ j, n = k + 1 + j := ⟨n - (k + 1), by omega⟩
  rw [spent_add, spent_succ', h, Bool.toNat_true]
  omega

theorem spent_returning (host : Host σ) (n : Nat) (m : Machine) (s : σ) (r : CallResult) :
    spent host n ⟨.returning m s r, []⟩ = 0 := by
  induction n with
  | zero => rfl
  | succ n ih =>
    rw [spent, tally, charges, Bool.toNat_false, Nat.zero_add]
    exact ih

/-- **A limited meter follows the charges** until they are as many as the limit, if handlers leave
it alone. -/
theorem meter_steps (h : LeavesMeter host γ) {limit : UInt64} (hmeter : γ.meter = .new limit)
    {n : Nat} (hspent : spent host n γ ≤ limit.toNat) :
    (steps host n γ).meter = .after limit (spent host n γ) := by
  induction n with
  | zero =>
    rw [spent, tally, Meter.after_zero]
    exact hmeter
  | succ n ih =>
    rw [spent_succ'] at hspent ⊢
    rw [h n, ih (by omega)]
    cases hcharges : (steps host n γ).charges with
    | true =>
      rw [hcharges, Bool.toNat_true] at hspent
      rw [if_pos rfl, Meter.charge_after (by omega), Bool.toNat_true]
    | false => rw [if_neg (by simp), Bool.toNat_false, Nat.add_zero]

/-- Without a limit, and for a caller that waits, all that is charged for is dispatched. -/
theorem dispatches_eq_charges (hwaits : γ.withInterruption none = γ) (hlimit : γ.meter.limit = 0) :
    γ.dispatches = γ.charges := by
  obtain ⟨φ, callers⟩ := γ
  cases φ with
  | executing before i x s =>
    obtain rfl : none = i := (Focus.executing.inj (congrArg focus hwaits)).2.1
    rw [dispatches, charges]
    by_cases hpc : x.registers.pc.toNat < x.program.code.size
    · rw [Activation.account_of_granted none hpc (Meter.granted_of_limit_eq_zero hlimit),
        decide_eq_true hpc]
      rfl
    · rw [Activation.account, if_pos (Nat.le_of_not_lt hpc), decide_eq_false hpc]
      rfl
  | handling | returning => rfl

theorem Alongside.charges {δ : Point σ} {ν μ : Meter} (h : γ.Alongside ν μ δ) :
    δ.charges = γ.charges := by
  cases h <;> rfl

/-- Calls side by side are charged alike while the limit lasts, and so both get past it. -/
theorem Alongside.lt_spent {δ : Point σ} (hhost : host.IgnoresMeter) {ν : Meter} {limit : UInt64}
    (h : γ.Alongside ν (.new limit) δ) (hunlimited : ∀ n, (steps host n γ).meter.limit = 0)
    {n : Nat} (hn : limit.toNat < spent host n γ) : ∃ k, limit.toNat < spent host k δ := by
  have alike : ∀ n, spent host n γ ≤ limit.toNat → spent host n δ = spent host n γ := by
    intro n
    induction n with
    | zero => exact fun _ => rfl
    | succ n ih =>
      intro hspent
      rw [spent_succ'] at hspent
      have hn := (alongside_steps hhost h hunlimited (n := n) (by omega)).charges
      rw [spent_succ', spent_succ', ih (by omega), hn]
  obtain ⟨k, hk, hcharges⟩ := exists_spent_eq hn
  have hδ := (alongside_steps hhost h hunlimited (Nat.le_of_eq hk)).charges
  refine ⟨k + 1, ?_⟩
  rw [spent_succ', alike k (Nat.le_of_eq hk), hk, hδ, hcharges]
  exact Nat.lt_succ_self _

variable (host) in
/-- An instruction that is due at the limit is refused, and the call ends. -/
theorem step_at_limit {limit : UInt64} (hlimit : limit ≠ 0) (hlone : γ.callers = [])
    (hmeter : γ.meter = .after limit limit.toNat) (hcharges : γ.charges = true) :
    γ.refuses = true ∧ ∃ m s f, γ.step host = ⟨.returning m s ⟨returnMarker, some f⟩, []⟩ ∧
      Failure.kindOf (some f) = .budgetExceeded := by
  obtain ⟨φ, callers⟩ := γ
  obtain rfl : callers = [] := hlone
  cases φ with
  | handling | returning => contradiction
  | executing before i x s =>
    have hpc : x.registers.pc.toNat < x.program.code.size := of_decide_eq_true hcharges
    have hmeter : x.status.meter = .after limit limit.toNat := hmeter
    have hrefused := Meter.charge_after_limit hlimit
    rw [← hmeter] at hrefused
    refine ⟨by simp [refuses, hpc, hrefused], ?_⟩
    rw [step, Focus.advance, x.advance_of_refused i s hpc hrefused]
    exact ⟨_, _, _, rfl, rfl⟩

/-! ## The start of a call -/

theorem start_withInterruption (m : Machine) (s : σ) (c : Invocation) (i : Option Interruption) :
    (start m s c).withInterruption i = start m s { c with interruption := i } := by
  have haccept : m.accept { c with interruption := i } = m.accept c := rfl
  rw [start, Focus.start, start, Focus.start, haccept]
  cases m.accept c <;> rfl

theorem counts_start (m : Machine) (s : σ) (c : Invocation) : (start m s c).Counts 0 := by
  obtain ⟨_ | l, status⟩ := m
  · trivial
  · rw [start, Focus.start, Machine.accept]
    dsimp only
    by_cases hargs : maxCallArgs < c.args.length
    · rw [if_pos hargs]
      trivial
    · rw [if_neg hargs]
      rfl

/-- A call that is charged for anything has been accepted. -/
theorem accepted_of_spent {m : Machine} {s : σ} {c : Invocation} {n : Nat}
    (h : 0 < spent host n (start m s c)) : m.loaded.isSome ∧ c.args.length ≤ maxCallArgs := by
  obtain ⟨_ | l, status⟩ := m
  · rw [start, Focus.start, Machine.accept, spent_returning] at h
    contradiction
  · by_cases hargs : maxCallArgs < c.args.length
    · rw [start, Focus.start, Machine.accept] at h
      dsimp only at h
      rw [if_pos hargs, spent_returning] at h
      contradiction
    · exact ⟨rfl, Nat.le_of_not_lt hargs⟩

end Point

/-! ## Calls -/

/-- The same call for a caller that has stopped waiting already. -/
def Invocation.abandoned (c : Invocation) (reason : Cancellation) : Invocation :=
  { c with interruption := some ⟨reason, 0⟩ }

/-- Only every 4096th instruction is polled. -/
theorem Activation.polled_eq_none {reason : Cancellation} {k : Nat} (h : k + 1 < pollInterval) :
    polled (some ⟨reason, 0⟩) (k + 1) = none := by
  have hmod : (k + 1) % pollInterval ≠ 0 := by
    rw [Nat.mod_eq_of_lt h]
    omega
  rw [polled]
  exact if_neg fun hpoll => hmod hpoll.1

/-- The instruction at which an activation is polled is charged and not dispatched: the call is
canceled. -/
theorem Point.step_of_due (host : Host σ) {x : Activation}
    (hpc : x.registers.pc.toNat < x.program.code.size) (hunlimited : x.status.meter.limit = 0)
    (hexecuted : x.executed = 4095) (reason : Cancellation) (before : Status) (s : σ) :
    Point.step host ⟨.executing before (some ⟨reason, 0⟩) x s, []⟩
        = ⟨.ended before (({ x.withMeter (x.status.meter.charge 1).1 with
            executed := x.executed + 1 } : Activation).fail s (.canceled reason)), []⟩ ∧
      Point.dispatches ⟨.executing before (some ⟨reason, 0⟩) x s, []⟩ = false := by
  have haccount := Activation.account_of_granted (some ⟨reason, 0⟩) hpc
    (Meter.granted_of_limit_eq_zero hunlimited)
  have hpolled : Activation.polled (some ⟨reason, 0⟩) (x.executed + 1)
      = some (.canceled reason) := by
    rw [hexecuted]
    rfl
  rw [hpolled] at haccount
  refine ⟨?_, ?_⟩
  · rw [Point.step, Focus.advance, Activation.advance, haccount]
  · rw [Point.dispatches, haccount]
    rfl

namespace Machine

variable {host : Host σ} {m : Machine} {s : σ} {c : Invocation} {N : Nat}
  {y : Machine × σ × CallResult}

/-- No trap of a call calls back: at no point of its course does another call wait. -/
def WithoutCallsBack (host : Host σ) (m : Machine) (s : σ) (c : Invocation) : Prop :=
  ∀ n, (Point.steps host n (.start m s c)).callers = []

/-- A call that has returned has done so after the instructions charged. -/
theorem returnsAfter_of_returned {n : Nat}
    (h : (Point.steps host n (.start m s c)).returned = true) :
    ∃ y, ReturnsAfter host m s c (Point.spent host n (.start m s c)) y := by
  obtain ⟨m', s', r, hn⟩ := Point.exists_of_returned h
  exact ⟨(m', s', r), n, hn, rfl⟩

/-- A call that is not over after a number of instructions is charged for more. -/
theorem exists_lt_spent (hlone : WithoutCallsBack host m s c) {K : Nat}
    (h : ∀ N y, ReturnsAfter host m s c N y → K < N) :
    ∃ n, K < Point.spent host n (.start m s c) := by
  obtain ⟨n, hn⟩ | hspent := Point.exists_returned_or_lt_spent hlone K
  · obtain ⟨y, hy⟩ := returnsAfter_of_returned hn
    exact ⟨n, h _ _ hy⟩
  · exact hspent

section

variable (hlone : WithoutCallsBack host m s c) (hwaits : c.interruption = none)

include hwaits in
theorem start_waits : (Point.start m s c).withInterruption none = .start m s c := by
  rw [Point.start_withInterruption, ← hwaits]

include hlone hwaits

/-- A call whose caller does not wait goes along with the call whose caller does, until it is
polled. -/
theorem steps_abandoned (reason : Cancellation) {n : Nat}
    (h : ∀ k < n, (Point.steps host k (.start m s c)).charges = true →
      (Point.steps host k (.start m s c)).refuses = false →
      Point.spent host k (.start m s c) + 1 < Activation.pollInterval) :
    Point.steps host n (.start m s (c.abandoned reason))
        = (Point.steps host n (.start m s c)).withInterruption (some ⟨reason, 0⟩) ∧
      Point.spent host n (.start m s (c.abandoned reason))
        = Point.spent host n (.start m s c) ∧
      Point.dispatched host n (.start m s (c.abandoned reason))
        = Point.dispatched host n (.start m s c) := by
  rw [Invocation.abandoned, ← Point.start_withInterruption]
  refine Point.steps_withInterruption hlone fun k hk => ?_
  have hcounts := Point.counts_steps hlone (Point.counts_start m s c) k
  have hwaits := Point.withInterruption_steps hlone (start_waits hwaits) k
  exact hcounts.indifferent hwaits fun hcharges hrefuses =>
    Activation.polled_eq_none (h k hk hcharges hrefuses)

/-- A call that is over before it is polled is the same for a caller that does not wait. -/
theorem ReturnsAfter.abandoned (h : ReturnsAfter host m s c N y) (reason : Cancellation)
    (hquiet : ∀ k, Point.spent host k (.start m s c) < N →
      (Point.steps host k (.start m s c)).charges = true →
      (Point.steps host k (.start m s c)).refuses = false →
      Point.spent host k (.start m s c) + 1 < Activation.pollInterval) :
    ReturnsAfter host m s (c.abandoned reason) N y := by
  obtain ⟨n, hn, hspent⟩ := h
  obtain ⟨hsteps, hspent', -⟩ := steps_abandoned hlone hwaits reason (n := n)
    fun k hk hcharges => hquiet k (hspent ▸ Point.spent_lt_of_charges hcharges hk) hcharges
  refine ⟨n, ?_, hspent'.trans hspent⟩
  rw [hsteps, hn]
  rfl

/-- Without a limit and before it is polled, a call is carried out as far as it is charged. -/
theorem dispatched_eq_spent (hlimit : ∀ n, (Point.steps host n (.start m s c)).meter.limit = 0)
    (n : Nat) :
    Point.dispatched host n (.start m s c) = Point.spent host n (.start m s c) := by
  induction n with
  | zero => rfl
  | succ n ih =>
    have hwaits := Point.withInterruption_steps hlone (start_waits hwaits) n
    rw [Point.dispatched_succ', Point.spent_succ', ih,
      Point.dispatches_eq_charges hwaits (hlimit n)]

/-- **A call that is due to be polled is canceled**, at its 4096th instruction, which is charged and
not carried out. The machine's arena and the host's state are those that the call would have gone on
with if its caller had waited. -/
theorem canceled_of_abandoned (hlevel : m.status.callLevel = 0)
    (hunlimited : m.status.meter.limit = 0) (reason : Cancellation)
    (h : ∃ n, 4095 < Point.spent host n (.start m s c)) :
    ∃ n x s₁ m' f, Pauses host m s c 4095 x s₁ ∧
      Point.steps host n (.start m s (c.abandoned reason))
        = ⟨.returning m' s₁ ⟨returnMarker, some f⟩, []⟩ ∧
      Point.spent host n (.start m s (c.abandoned reason)) = 4096 ∧
      Point.dispatched host n (.start m s (c.abandoned reason)) = 4095 ∧
      (Point.LeavesMeter host (.start m s (c.abandoned reason)) → m'.status.meter.used = 4096) ∧
      m'.loaded = some ⟨x.program, x.arena⟩ ∧ f = (Fault.canceled reason).toFailure := by
  obtain ⟨n, hn⟩ := h
  obtain ⟨hloaded, hargs⟩ := Point.accepted_of_spent (Nat.zero_lt_of_lt hn)
  have hstart : ∀ c' : Invocation, c'.args = c.args →
      (Point.start m s c').meter = .new 0 := fun c' hc' => by
    rw [(Point.alongside_start hloaded hlevel (hc' ▸ hargs) s m.status.meter).1, hunlimited]
  have hlimit : ∀ k, (Point.steps host k (.start m s c)).meter.limit = 0 := fun k =>
    (Point.limit_steps host k (Point.kept_steps host 0 m s c)).trans
      (congrArg Meter.limit (hstart c rfl))
  obtain ⟨k, hk, hcharges⟩ := Point.exists_spent_eq hn
  have hcounts := Point.counts_steps hlone (Point.counts_start m s c) k
  have hwaiting := Point.withInterruption_steps hlone (start_waits hwaits) k
  obtain ⟨hsteps, hspent, hdispatched⟩ := steps_abandoned hlone hwaits reason (n := k)
    fun j hj hcharges _ => by
      have := Point.spent_lt_of_charges hcharges hj
      rw [Activation.pollInterval]
      omega
  rw [dispatched_eq_spent hlone hwaits hlimit, hk] at hdispatched
  rw [hk] at hspent hcounts
  have hunlimited := hlimit k
  generalize hγ : Point.steps host k (.start m s c) = γ at *
  obtain ⟨φ, callers⟩ := γ
  obtain rfl : callers = [] := (congrArg Point.callers hγ).symm.trans (hlone k)
  cases φ with
  | handling | returning => contradiction
  | executing before i x s₁ =>
    have hpc : x.registers.pc.toNat < x.program.code.size := of_decide_eq_true hcharges
    obtain ⟨hstep, hdue⟩ := Point.step_of_due host hpc hunlimited hcounts reason before s₁
    have hend := (Point.steps_succ' host k (.start m s (c.abandoned reason))).trans
      ((congrArg (Point.step host) hsteps).trans hstep)
    have hspent' : Point.spent host (k + 1) (.start m s (c.abandoned reason)) = 4096 := by
      rw [Point.spent_succ', hspent, hsteps, Point.charges_withInterruption, hcharges]
      rfl
    have hdispatched' : Point.dispatched host (k + 1) (.start m s (c.abandoned reason)) = 4095 := by
      rw [Point.dispatched_succ', hdispatched, hsteps]
      exact congrArg (4095 + ·.toNat) hdue
    refine ⟨k + 1, x, s₁, _, _, ⟨k, before, i, hγ, hk, hpc⟩, hend, hspent', hdispatched',
      fun hleaves => ?_, rfl, rfl⟩
    have hused := Point.used_steps hleaves (k + 1)
    rw [hend, hspent', hstart (c.abandoned reason) rfl] at hused
    exact hused

/-- **A limit below the first poll is not outlived**, if handlers leave the meter alone. A call with
such a limit returns, for a caller that waits and for one that does not alike, and its instructions
are used up if it is charged for more than the limit. What it is charged for is its own count: a
host that reads the meter may have had it do something else than the call without a limit does. -/
theorem returnsAfter_of_limit (hleaves : Point.LeavesMeter host (.start m s c))
    (hlevel : m.status.callLevel = 0) (hlimit : m.status.meter.limit ≠ 0)
    (hle : m.status.meter.limit.toNat ≤ 4095) (reason : Cancellation) :
    ∃ N y, ReturnsAfter host m s c N y ∧ ReturnsAfter host m s (c.abandoned reason) N y ∧
      (m.status.meter.limit.toNat < N →
        ∃ f, y.2.2 = ⟨returnMarker, some f⟩ ∧ Failure.kindOf (some f) = .budgetExceeded) ∧
      ((∃ n, m.status.meter.limit.toNat < Point.spent host n (.start m s c)) →
        m.status.meter.limit.toNat < N) := by
  by_cases hmore : ∃ n, m.status.meter.limit.toNat < Point.spent host n (.start m s c)
  · obtain ⟨n, hn⟩ := hmore
    obtain ⟨hloaded, hargs⟩ := Point.accepted_of_spent (Nat.zero_lt_of_lt hn)
    have hstart := (Point.alongside_start hloaded hlevel hargs s m.status.meter).1
    -- once as much is charged as the limit allows, the next charge is refused
    have hlast : ∀ k, Point.spent host k (.start m s c) = m.status.meter.limit.toNat →
        (Point.steps host k (.start m s c)).meter
          = .after m.status.meter.limit m.status.meter.limit.toNat := fun k hk => by
      have hmeter := Point.meter_steps hleaves hstart (Nat.le_of_eq hk)
      rwa [hk] at hmeter
    obtain ⟨k, hk, hcharges⟩ := Point.exists_spent_eq hn
    obtain ⟨-, m', s', f, hstep, hf⟩ :=
      Point.step_at_limit host hlimit (hlone k) (hlast k hk) hcharges
    have hreturns : ReturnsAfter host m s c (m.status.meter.limit.toNat + 1)
        (m', s', ⟨returnMarker, some f⟩) := by
      refine ⟨k + 1, by rw [Point.steps_succ', hstep], ?_⟩
      rw [Point.spent_succ', hk, hcharges, Bool.toNat_true]
    refine ⟨_, _, hreturns, hreturns.abandoned hlone hwaits reason fun j hj hcharges hrefuses => ?_,
      fun _ => ⟨f, rfl, hf⟩, fun _ => Nat.lt_succ_self _⟩
    by_cases hj' : Point.spent host j (.start m s c) = m.status.meter.limit.toNat
    · have hrefused := (Point.step_at_limit host hlimit (hlone j) (hlast j hj') hcharges).1
      rw [hrefuses] at hrefused
      contradiction
    · rw [Activation.pollInterval]
      omega
  · obtain ⟨n, hn⟩ | hspent :=
      Point.exists_returned_or_lt_spent hlone m.status.meter.limit.toNat
    · obtain ⟨y, hreturns⟩ := returnsAfter_of_returned hn
      have hspent := Nat.le_of_not_lt fun hlt => hmore ⟨n, hlt⟩
      refine ⟨_, y, hreturns, hreturns.abandoned hlone hwaits reason fun j hj _ _ => ?_,
        fun hlt => absurd ⟨n, hlt⟩ hmore, fun hmore' => absurd hmore' hmore⟩
      rw [Activation.pollInterval]
      omega
    · exact absurd hspent hmore

end

/-- Hosts that do not depend on the meter do not call back. -/
theorem withoutCallsBack_of_ignoresMeter (hhost : host.IgnoresMeter) (m : Machine) (s : σ)
    (c : Invocation) : WithoutCallsBack host m s c :=
  fun n => (Point.solitary_steps hhost m s c n).callers

/-- With a host that does not depend on the meter, a call that is charged for more than a limit
without it is charged for more than the limit with it. -/
theorem lt_spent_withMeter (hhost : host.IgnoresMeter) (hlevel : m.status.callLevel = 0)
    (hunlimited : m.status.meter.limit = 0) {μ : Meter}
    (h : ∃ n, μ.limit.toNat < Point.spent host n (.start m s c)) :
    ∃ n, μ.limit.toNat < Point.spent host n (.start (m.withMeter μ) s c) := by
  obtain ⟨n, hn⟩ := h
  obtain ⟨hloaded, hargs⟩ := Point.accepted_of_spent (Nat.zero_lt_of_lt hn)
  obtain ⟨hstart, halongside⟩ := Point.alongside_start hloaded hlevel hargs s μ
  have hkept : Point.Kept m (.start m s c) := Point.kept_steps host 0 m s c
  refine halongside.lt_spent hhost (fun k => ?_) hn
  rw [Point.limit_steps host k hkept, hstart]
  exact hunlimited

end Machine

/-! ## A host that reads the meter -/

/-- A program that goes on at the instruction that its host names. -/
def Program.detour : List Instruction :=
  [⟨.enter, 8⟩, ⟨.constant, returnMarker⟩, ⟨.call, 0⟩, ⟨.jump, 0⟩, ⟨.ignore, 0⟩, ⟨.ignore, 0⟩,
    ⟨.constant, 0⟩, ⟨.leave, 8⟩]

/-- The image of the program, with a little room for the frames. -/
def Module.detourImage : ByteArray :=
  Header.encode ⟨Header.moduleMagic, 8, 32, 24, 56, 0, 0, 256⟩
    ++ ⟨(Program.detour.flatMap Instruction.bytes).toArray⟩

namespace Machine

/-- A host that spares a call with a limit the detour. -/
def sparing : Host Unit :=
  fun _ => do
    let m : Machine ← HostM.ask .inspect
    return .value (if m.status.meter.limit = 0 then 4 else 6)

end Machine

/-! ## A module that never returns -/

/-- A program that jumps to its start again and again. -/
def Program.endless : List Instruction :=
  [⟨.constant, 0⟩, ⟨.jump, 0⟩]

/-- The image of the program, with a little room for the frame of a call. -/
def Module.endlessImage : ByteArray :=
  Header.encode ⟨Header.moduleMagic, 2, 32, 6, 38, 0, 0, 256⟩
    ++ ⟨(Program.endless.flatMap Instruction.bytes).toArray⟩

/-- The endless program as it is prepared. -/
def Program.endlessStream : Program :=
  ⟨#[8, 0, 10, 0], #[0, 2, 3]⟩

theorem Program.step_endless_constant (frame : UInt32) (operands : Operands) (a : Arena) :
    step endlessStream 2 ⟨0, frame, operands⟩ a = .next ⟨2, frame, operands.push 0⟩ a := rfl

theorem Program.step_endless_jump (frame : UInt32) {operands : Operands} (a : Arena)
    (h : operands.first = 0) :
    step endlessStream 2 ⟨2, frame, operands⟩ a = .next ⟨0, frame, operands.drop 1⟩ a := by
  show execute endlessStream 2 .jump 3 frame operands a = _
  simp only [execute, h]
  rfl

/-- The endless program is at its start, or about to jump there. -/
def Point.Spins : Point σ → Prop
  | ⟨.executing _ i x _, callers⟩ =>
    i = none ∧ callers = [] ∧ x.program = Program.endlessStream ∧
      x.status.instructionCount = 2 ∧ x.status.meter.limit = 0 ∧
      (x.registers.pc = 0 ∨ x.registers.pc = 2 ∧ x.registers.operands.first = 0)
  | _ => False

theorem Point.Spins.step {host : Host σ} {γ : Point σ} (h : γ.Spins) :
    (γ.step host).Spins ∧ γ.charges = true := by
  obtain ⟨φ, callers⟩ := γ
  cases φ with
  | handling | returning => exact h.elim
  | executing before i x s =>
    obtain ⟨program, arena, status, ⟨pc, frame, operands⟩, executed⟩ := x
    obtain ⟨rfl, rfl, rfl : program = _, hcount : status.instructionCount = 2,
      hlimit : status.meter.limit = 0, hpc⟩ := h
    have hlimit' : (status.meter.charge 1).1.limit = 0 := by rw [Meter.limit_charge, hlimit]
    have hin : pc.toNat < Program.endlessStream.code.size := by
      obtain rfl | ⟨rfl, -⟩ := hpc <;> decide
    refine ⟨?_, decide_eq_true hin⟩
    rw [Point.step, Focus.advance, Activation.advance,
      Activation.account_of_granted none hin (Meter.granted_of_limit_eq_zero hlimit)]
    dsimp only [Activation.polled, Activation.withMeter, Status.withMeter]
    rw [hcount]
    obtain rfl | ⟨rfl, hfirst⟩ := hpc
    · rw [Program.step_endless_constant]
      exact ⟨rfl, rfl, rfl, rfl, hlimit', .inr ⟨rfl, Operands.slot_setSlot_self _ _ _⟩⟩
    · rw [Program.step_endless_jump frame arena hfirst]
      exact ⟨rfl, rfl, rfl, rfl, hlimit', .inl rfl⟩

/-- The endless program goes on for ever. -/
theorem Point.Spins.steps {host : Host σ} {γ : Point σ} (h : γ.Spins) (n : Nat) :
    (Point.steps host n γ).Spins := by
  induction n with
  | zero => exact h
  | succ n ih =>
    rw [steps_succ']
    exact ih.step.1

namespace Machine

theorem endless_never_returns {host : Host σ} {m : Machine} {s : σ} {c : Invocation}
    (h : (Point.start m s c).Spins) {N : Nat} {y : Machine × σ × CallResult} :
    ¬ReturnsAfter host m s c N y := by
  rintro ⟨n, hn, -⟩
  have hspins : (Point.steps host n (.start m s c)).Spins := h.steps n
  rw [hn] at hspins
  exact hspins

end Machine

end BytecodeHost
