import BytecodeHost.Proofs.Machine.Budget

/-!
# Calls that do the same

Two machines with one program and one arena do the same when they are called alike, even if their
names, their histories of failures and the states of their hosts differ. What has to agree is what
execution reads: the instruction count, the meter and the heap. The hosts may be different ones as
long as they handle the traps that occur in the same way, which for scripts is a relation with a
rule for each constructor. A host that calls back is left out.

A caller that stops waiting makes a difference only if it is polled afterwards, so a call is
compared with one whose caller waits for as long as the call takes. One trap may be handled
differently, and then a call is compared only if its course avoids that trap.

## Main definitions

* `Script.Paired`, `HostM.Paired` — scripts that ask the same and end with the same value
* `Machine.Twin`, `Activation.Twin` — machines that agree on what execution reads
* `Waits` — a caller that waits through a number of instructions
* `Point.Avoids` — a course without a certain trap
* `Machine.Idle` — a machine between two calls

## Main results

* `Script.Paired.run` — paired scripts have the same outcome on related machines
* `Activation.Twin.advance`, `Activation.run_paired` — twins execute an instruction alike, and run
  alike under hosts with paired scripts
* `Machine.call_paired` — idle machines with one arena answer a call alike
-/

namespace BytecodeHost

variable {σ τ α β : Type}

/-! ## Scripts -/

/-- Two scripts do the same on machines in a relation: they ask the same, the requests keep the
relation, and they end with one value, in related states. They do not call back. -/
inductive Script.Paired (R : Machine → Machine → Prop) (S : σ → τ → Prop) :
    Script σ α → Script τ α → Prop where
  | done {s : σ} {t : τ} {a : α} (h : S s t) : Paired R S (.done s a) (.done t a)
  | ask {q : Request} {k : q.Reply → Script σ α} {l : q.Reply → Script τ α}
    (hkeeps : ∀ m n, R m n → R (q.perform m).1 (q.perform n).1)
    (hnext : ∀ m n, R m n → Paired R S (k (q.perform m).2) (l (q.perform n).2)) :
    Paired R S (.ask q k) (.ask q l)

namespace Script.Paired

variable {R : Machine → Machine → Prop} {S : σ → τ → Prop}

/-- **Paired scripts have the same outcome** on related machines, however calls back would go. -/
theorem run {x : Script σ α} {y : Script τ α} (h : Paired R S x y)
    (callBack : Machine → σ → Invocation → Option (Machine × σ × CallResult))
    (callBack' : Machine → τ → Invocation → Option (Machine × τ × CallResult))
    {m n : Machine} (hmn : R m n) :
    ∃ m' s a n' t, x.run callBack m = some (m', s, a) ∧ y.run callBack' n = some (n', t, a) ∧
      R m' n' ∧ S s t := by
  induction h generalizing m n with
  | @done s t a hst => exact ⟨m, s, a, n, t, rfl, rfl, hmn, hst⟩
  | @ask q k l hkeeps hnext ih => exact ih m n hmn (hkeeps m n hmn)

theorem andThen {x : Script σ α} {y : Script τ α} (h : Paired R S x y)
    {f : σ → α → Script σ β} {g : τ → α → Script τ β}
    (hnext : ∀ s t a, S s t → Paired R S (f s a) (g t a)) :
    Paired R S (x.andThen f) (y.andThen g) := by
  induction h with
  | @done s t a hst => exact hnext s t a hst
  | ask hkeeps _ ih => exact .ask hkeeps ih

end Script.Paired

/-- Two computations of hosts do the same on machines in a relation. -/
def HostM.Paired (R : Machine → Machine → Prop) (S : σ → τ → Prop) (x : HostM σ α)
    (y : HostM τ α) : Prop :=
  ∀ s t, S s t → Script.Paired R S (x s) (y t)

namespace HostM.Paired

variable {R : Machine → Machine → Prop} {S : σ → τ → Prop}

theorem pure (a : α) : Paired R S (Pure.pure a) (Pure.pure a) :=
  fun _ _ h => .done h

theorem bind {x : HostM σ α} {y : HostM τ α} {f : α → HostM σ β} {g : α → HostM τ β}
    (h : Paired R S x y) (hnext : ∀ a, Paired R S (f a) (g a)) :
    Paired R S (x >>= f) (y >>= g) :=
  fun s t hst => (h s t hst).andThen fun s t a hst => hnext a s t hst

theorem ite {c : Prop} [Decidable c] {x x' : HostM σ α} {y y' : HostM τ α} (h : Paired R S x y)
    (h' : Paired R S x' y') : Paired R S (if c then x else x') (if c then y else y') := by
  split
  · exact h
  · exact h'

theorem modify {f : σ → σ} {g : τ → τ} (h : ∀ s t, S s t → S (f s) (g t)) :
    Paired R S (HostM.modify f) (HostM.modify g) :=
  fun s t hst => .done (h s t hst)

/-- A request that is answered alike. -/
theorem ask {q : Request}
    (h : ∀ m n, R m n → R (q.perform m).1 (q.perform n).1 ∧ (q.perform m).2 = (q.perform n).2) :
    Paired R S (HostM.ask q) (HostM.ask q) := by
  intro s t hst
  refine .ask (fun m n hmn => (h m n hmn).1) fun m n hmn => ?_
  rw [(h m n hmn).2]
  exact .done hst

/-- A machine that is inspected may be another one in the relation. -/
theorem inspect {f : Machine → HostM σ β} {g : Machine → HostM τ β}
    (h : ∀ m n, R m n → Paired R S (f m) (g n)) :
    Paired R S (HostM.ask .inspect >>= f) (HostM.ask .inspect >>= g) :=
  fun s t hst => .ask (fun _ _ hmn => hmn) fun m n hmn => h m n hmn s t hst

end HostM.Paired

/-! ## Machines -/

namespace Machine

/-- Two machines agree on what execution reads. No heap is set in either of them. -/
structure Twin (count : Int32) (m n : Machine) : Prop where
  /-- Program and arena are the same. -/
  loaded : m.loaded = n.loaded
  /-- So are the meters. -/
  meter : m.status.meter = n.status.meter
  /-- So are the instruction counts. -/
  instructionCount : m.status.instructionCount = count ∧ n.status.instructionCount = count
  /-- There are no heaps. -/
  heap : m.status.heap = {} ∧ n.status.heap = {}

namespace Twin

variable {count : Int32} {m n : Machine}

theorem refuse (h : Twin count m n) (f : Fault) :
    Twin count (m.refuse f : Machine × Except Failure α).1
        (n.refuse f : Machine × Except Failure α).1 ∧
      (m.refuse f : Machine × Except Failure α).2 = (n.refuse f).2 :=
  ⟨⟨h.loaded, h.meter, h.instructionCount, h.heap⟩, rfl⟩

/-- Twins answer a question about the arena alike. -/
theorem cString (h : Twin count m n) (address : UInt32) :
    Twin count (m.cString address).1 (n.cString address).1 ∧
      (m.cString address).2 = (n.cString address).2 := by
  rw [Machine.cString, Machine.cString, ← h.loaded]
  split
  · exact h.refuse _
  · exact ⟨h, rfl⟩

theorem validateRange (h : Twin count m n) (address length : UInt32) :
    Twin count (m.validateRange address length).1 (n.validateRange address length).1 ∧
      (m.validateRange address length).2 = (n.validateRange address length).2 := by
  rw [Machine.validateRange, Machine.validateRange, ← h.loaded]
  split
  · exact h.refuse _
  · split
    · exact h.refuse _
    · split
      · exact h.refuse _
      · exact ⟨h, rfl⟩

theorem poke (h : Twin count m n) (offset : Nat) (s : ByteArray) :
    Twin count (m.poke offset s) (n.poke offset s) := by
  obtain ⟨l, status⟩ := m
  obtain ⟨l', status'⟩ := n
  obtain rfl : l = l' := h.loaded
  cases l with
  | none => exact h
  | some l => exact ⟨rfl, h.meter, h.instructionCount, h.heap⟩

/-- Without a heap nothing is handed out. -/
theorem malloc (h : Twin count m n) (size : Int32) :
    Twin count (m.malloc size).1 (n.malloc size).1 ∧ (m.malloc size).2 = (n.malloc size).2 := by
  rw [Machine.malloc, Machine.malloc, h.heap.1, h.heap.2]
  exact h.refuse _

end Twin

end Machine

/-! ## Activations -/

/-- A caller is still waiting whenever it is polled within a number of instructions. -/
def Waits (interruption : Option Interruption) (instructions : Nat) : Prop :=
  ∀ i, interruption = some i → ∀ n, 0 < n → n ≤ instructions →
    n % Activation.pollInterval = 0 → n < i.after

namespace Activation

/-- Two activations are at the same point of the same run. -/
structure Twin (count : Int32) (x y : Activation) : Prop where
  /-- The machines agree. -/
  machine : Machine.Twin count x.machine y.machine
  /-- So do the registers. -/
  registers : x.registers = y.registers
  /-- So does the number of instructions. -/
  executed : x.executed = y.executed

/-- A caller that waits might as well not be there. -/
theorem account_of_waits {x : Activation} {i : Option Interruption}
    (h : Waits i (x.executed + 1)) : x.account i = x.account none := by
  cases i with
  | none => rfl
  | some j =>
    rw [account, account]
    split
    · rfl
    · dsimp only
      split
      · refine if_neg fun hpoll => ?_
        have := h j rfl (x.executed + 1) (Nat.succ_pos _) (Nat.le_refl _) hpoll.1
        omega
      · rfl

/-- Twins differ in what execution does not read. -/
theorem Twin.exists_status {count : Int32} {x y : Activation} (h : Twin count x y) :
    ∃ status, y = { x with status } ∧ x.status.meter = status.meter ∧
      (x.status.instructionCount = count ∧ status.instructionCount = count) ∧
      x.status.heap = {} ∧ status.heap = {} := by
  obtain ⟨⟨hloaded, hmeter, hcount, hheap⟩, hregisters, hexecuted⟩ := h
  obtain ⟨program, arena, status, registers, executed⟩ := x
  obtain ⟨program', arena', status', registers', executed'⟩ := y
  obtain ⟨rfl, rfl⟩ := Loaded.mk.inj (Option.some.inj hloaded)
  obtain rfl : registers = registers' := hregisters
  obtain rfl : executed = executed' := hexecuted
  exact ⟨status', rfl, hmeter, hcount, hheap⟩

/-- Twins account for an instruction alike, unless the first is refused. -/
theorem Twin.account {count : Int32} {x y : Activation} (h : Twin count x y)
    {i : Option Interruption} (hwaits : Waits i (x.executed + 1)) :
    (∃ x' f, x.account none = (x', some f)) ∨
      ∃ x' y', x.account none = (x', none) ∧ y.account i = (y', none) ∧ Twin count x' y' ∧
        x'.executed = x.executed + 1 := by
  rw [h.executed] at hwaits
  rw [account_of_waits hwaits]
  obtain ⟨status, rfl, hmeter, hcount, hheap⟩ := h.exists_status
  simp only [Activation.account, ← hmeter]
  split
  · exact .inl ⟨_, _, rfl⟩
  · split
    · exact .inr ⟨_, _, rfl, rfl, ⟨⟨rfl, rfl, hcount, hheap⟩, rfl, rfl⟩, rfl⟩
    · exact .inl ⟨_, _, rfl⟩

end Activation

/-- What becomes of twins at an instruction, unless the first of them fails. The instruction is the
given one in the count of the activations, and the second has a caller that may stop waiting. -/
inductive Advance.Paired (count : Int32) (i : Option Interruption) (executed : Nat) (s : σ)
    (t : τ) : Advance σ → Advance τ → Prop where
  | goesOn {x y : Activation} (h : x.Twin count y) (hexecuted : x.executed = executed) :
    Paired count i executed s t (.goesOn x) (.goesOn y)
  | ends {m n : Machine} {value : UInt32} (h : m.Twin count n) :
    Paired count i executed s t (.ends ⟨m, s, value, none⟩) (.ends ⟨n, t, value, none⟩)
  | fails {m : Machine} {value : UInt32} {f : Fault} {r : Advance τ} :
    Paired count i executed s t (.ends ⟨m, s, value, some f⟩) r
  | traps {words : Array UInt32} {frame : UInt32} {operands : Operands} {m n : Machine}
    (h : m.Twin count n) :
    Paired count i executed s t (.traps ⟨none, words, frame, operands, executed⟩ m)
      (.traps ⟨i, words, frame, operands, executed⟩ n)

/-- **Twins execute an instruction alike.** -/
theorem Activation.Twin.advance {count : Int32} {x y : Activation} (h : x.Twin count y)
    {i : Option Interruption} (hwaits : Waits i (x.executed + 1)) (s : σ) (t : τ) :
    Advance.Paired count i (x.executed + 1) s t (x.advance none s) (y.advance i t) := by
  rw [Activation.advance, Activation.advance]
  obtain ⟨x', f, hx⟩ | ⟨x', y', hx, hy, htwin, hexecuted⟩ := h.account hwaits
  · rw [hx]
    exact .fails
  · rw [hx, hy, ← hexecuted]
    obtain ⟨status, rfl, hmeter, hcount, hheap⟩ := htwin.exists_status
    have hstep : step x'.program status.instructionCount x'.registers x'.arena
        = step x'.program x'.status.instructionCount x'.registers x'.arena := by
      rw [hcount.1, hcount.2]
    dsimp only
    rw [hstep]
    cases step x'.program x'.status.instructionCount x'.registers x'.arena with
    | next r a => exact .goesOn ⟨⟨rfl, hmeter, hcount, hheap⟩, rfl, rfl⟩ rfl
    | broke r a => exact .goesOn ⟨⟨rfl, hmeter, hcount, hheap⟩, rfl, rfl⟩ rfl
    | finish operands a =>
      dsimp only
      rw [finish, finish]
      split
      · exact .ends ⟨rfl, hmeter, hcount, hheap⟩
      · exact .fails
    | fault f a => exact .fails
    | stuck a => exact .fails
    | trap r a => exact .traps ⟨rfl, hmeter, hcount, hheap⟩

/-- Twins go on alike after a trap that both hosts answer alike, unless the first fails. -/
theorem Machine.Twin.resume {count : Int32} {m n : Machine} (h : m.Twin count n) (trap : Pending)
    (i : Option Interruption) (s : σ) (t : τ) (reply : TrapReply) :
    (∃ value f, trap.resume m s reply = .error ⟨m, s, value, some f⟩) ∨
      ∃ x y, trap.resume m s reply = .ok x ∧
        Pending.resume { trap with interruption := i } n t reply = .ok y ∧ x.Twin count y ∧
        x.executed = trap.executed := by
  obtain ⟨hloaded, hmeter, hcount, hheap⟩ := h
  obtain ⟨l, status⟩ := m
  obtain ⟨l', status'⟩ := n
  obtain rfl : l = l' := hloaded
  cases reply with
  | refused f => exact .inl ⟨_, _, rfl⟩
  | panicked message => exact .inl ⟨_, _, rfl⟩
  | value v =>
    cases l with
    | none => exact .inl ⟨_, _, rfl⟩
    | some l => exact .inr ⟨_, _, rfl, rfl, ⟨⟨rfl, hmeter, hcount, hheap⟩, rfl, rfl⟩, rfl⟩

/-! ## Runs and calls -/

namespace Point

/-- A trap with the given number is being handled. -/
def handles (number : UInt32) : Point σ → Bool
  | ⟨.handling _ trap _ _, _⟩ => trapNumber trap.words == number
  | ⟨.executing .., _⟩ | ⟨.returning .., _⟩ => false

/-- No trap with the given number is handled in the course from a point on. -/
def Avoids (host : Host σ) (number : UInt32) (γ : Point σ) : Prop :=
  ∀ n, (steps host n γ).handles number = false

theorem Avoids.of_reaches {host : Host σ} {number : UInt32} {γ δ : Point σ}
    (h : Avoids host number γ) (hreaches : Reaches host γ δ) : Avoids host number δ := by
  obtain ⟨k, rfl⟩ := hreaches
  intro n
  rw [← steps_add]
  exact h (k + n)

/-- The outermost call has returned. -/
def returned : Point σ → Bool
  | ⟨.returning .., []⟩ => true
  | _ => false

theorem step_of_returned (host : Host σ) {γ : Point σ} (h : γ.returned = true) :
    γ.step host = γ := by
  obtain ⟨φ, callers⟩ := γ
  cases φ with
  | executing | handling => contradiction
  | returning =>
    cases callers with
    | nil => rfl
    | cons => contradiction

/-- Whether a course comes to its end within some steps, and every point of it is of some kind. -/
def always? (host : Host σ) (p : Point σ → Bool) : Nat → Point σ → Bool
  | 0, γ => p γ && γ.returned
  | n + 1, γ => p γ && always? host p n (γ.step host)

theorem always_of_always? {host : Host σ} {p : Point σ → Bool} {n : Nat} {γ : Point σ}
    (h : always? host p n γ = true) (k : Nat) : p (steps host k γ) = true := by
  induction n generalizing γ k with
  | zero =>
    rw [always?, Bool.and_eq_true] at h
    induction k with
    | zero => exact h.1
    | succ k ih => rwa [steps, step_of_returned host h.2]
  | succ n ih =>
    rw [always?, Bool.and_eq_true] at h
    cases k with
    | zero => exact h.1
    | succ k => exact ih h.2 k

/-- Whether a course comes to its end within some steps without handling a trap. -/
def avoids? (host : Host σ) (number : UInt32) (n : Nat) (γ : Point σ) : Bool :=
  always? host (fun γ => !γ.handles number) n γ

theorem avoids_of_avoids? {host : Host σ} {number : UInt32} {n : Nat} {γ : Point σ}
    (h : avoids? host number n γ = true) : Avoids host number γ := fun k => by
  simpa using always_of_always? h k

end Point

/-- Two hosts handle every trap alike that does not have the given number. -/
def Host.PairedExcept (number : UInt32) (R : Machine → Machine → Prop) (S : σ → τ → Prop)
    (host : Host σ) (host' : Host τ) : Prop :=
  ∀ words, trapNumber words ≠ number → HostM.Paired R S (host words) (host' words)

section

variable {count : Int32} {number : UInt32} {S : σ → τ → Prop} {host : Host σ} {host' : Host τ}

/-- **Twins run alike** if the first succeeds without the trap that the hosts do not handle alike,
and if the caller of the second waits that long. -/
theorem Activation.run_paired (hhosts : Host.PairedExcept number (Machine.Twin count) S host host')
    {fuel : Nat} {i : Option Interruption} {x y : Activation} {s : σ} {t : τ}
    (h : x.Twin count y) (hst : S s t) (hwaits : Waits i (x.executed + fuel)) {before : Status}
    {callers : List (Caller σ)}
    (havoids : Point.Avoids host number ⟨.executing before none x s, callers⟩)
    {m : Machine} {s' : σ} {value : UInt32}
    (hrun : run host fuel none x s = some ⟨m, s', value, none⟩) :
    ∃ n t', run host' fuel i y t = some ⟨n, t', value, none⟩ ∧ m.Twin count n ∧ S s' t' := by
  induction fuel generalizing x y s t with
  | zero => contradiction
  | succ fuel ih =>
    have hnext : Waits i (x.executed + 1) :=
      fun j hj k hpos hle => hwaits j hj k hpos (by omega)
    have hrest : Waits i (x.executed + 1 + fuel) := by
      rw [Nat.add_assoc, Nat.add_comm 1]
      exact hwaits
    rw [run_succ] at hrun ⊢
    have hadvance := h.advance hnext s t
    -- a step of the course of the first run, which avoids the trap from there on
    have hstep : Point.Reaches host ⟨.executing before none x s, callers⟩
        ⟨.advance host before none x s, callers⟩ := ⟨1, rfl⟩
    rw [Focus.advance] at hstep
    generalize x.advance none s = r, y.advance i t = r' at hrun hadvance hstep ⊢
    cases hadvance with
    | goesOn htwin hexecuted =>
      refine ih htwin hst ?_ (havoids.of_reaches hstep) hrun
      rw [hexecuted]
      exact hrest
    | ends htwin =>
      obtain ⟨rfl, rfl, rfl, -⟩ := Ended.mk.inj (Option.some.inj hrun)
      exact ⟨_, t, rfl, htwin, hst⟩
    | fails =>
      obtain ⟨-, -, -, hfault⟩ := Ended.mk.inj (Option.some.inj hrun)
      contradiction
    | @traps words frame operands m₀ n₀ htwin =>
      have hnumber : trapNumber words ≠ number := by
        simpa [Point.handles, Point.steps] using havoids.of_reaches hstep 0
      obtain ⟨m₁, s₁, reply, n₁, t₁, hscript, hscript', htwin, hst⟩ :=
        (hhosts words hnumber s t hst).run (Machine.enter (run host fuel))
          (Machine.enter (run host' fuel)) htwin
      have hdone := Point.reaches_done (Point.reaches_returning (Point.reaches_ended fuel)) before
        ⟨none, words, frame, operands, x.executed + 1⟩ callers _ hscript
      have hanswer : Point.Reaches host _ ⟨.answer before _ m₁ s₁ reply, callers⟩ :=
        (hstep.trans hdone).trans ⟨1, rfl⟩
      dsimp only at hrun ⊢
      rw [hscript, Option.bind_some] at hrun
      rw [hscript', Option.bind_some]
      rw [Focus.answer] at hanswer
      obtain ⟨v, f, hresume⟩ | ⟨x₁, y₁, hresume, hresume', htwin, hexecuted⟩ :=
        htwin.resume ⟨none, words, frame, operands, x.executed + 1⟩ i s₁ t₁ reply
      · dsimp only at hrun
        rw [hresume] at hrun
        obtain ⟨-, -, -, hfault⟩ := Ended.mk.inj (Option.some.inj hrun)
        contradiction
      · dsimp only at hrun hresume' ⊢
        rw [hresume] at hrun hanswer
        rw [hresume']
        refine ih htwin hst ?_ (havoids.of_reaches hanswer) hrun
        rw [hexecuted]
        exact hrest

namespace Machine

variable {mod : Module} {limit : UInt64} {a : Arena} {m n : Machine}

/-- A machine for a module between two calls, with the given arena and without a heap. -/
structure Idle (mod : Module) (limit : UInt64) (a : Arena) (m : Machine) : Prop
    extends m.Rests limit where
  /-- Program and arena. -/
  loaded : m.loaded = some ⟨mod.program, a⟩
  /-- The instruction count. -/
  instructionCount : m.status.instructionCount = mod.header.instructionCount
  /-- The program stack is empty. -/
  programStack : m.status.programStack = mod.arena.size
  /-- There is no heap. -/
  heap : m.status.heap = {}

/-- A fresh machine is idle, whatever the module is called. -/
theorem idle_create (mod : Module) (limit : UInt64) (name : String) :
    (create { mod with name } limit).Idle mod limit mod.arena :=
  ⟨⟨rfl, rfl⟩, rfl, rfl, rfl, rfl⟩

/-- A call that succeeds has no more arguments than there is room for. -/
theorem Idle.length_args_le (h : m.Idle mod limit a) {fuel : Nat} {m' : Machine} {s s' : σ}
    {c : Invocation} {value : UInt32}
    (hcall : Machine.call host fuel m s c = some (m', s', ⟨value, none⟩)) :
    c.args.length ≤ maxCallArgs := by
  refine Nat.not_lt.mp fun hlt => ?_
  rw [Machine.call, enter_eq, Machine.accept, h.loaded] at hcall
  simp [hlt] at hcall

/-- Idle machines with one arena start a call alike. -/
theorem Idle.accept (hm : m.Idle mod limit a) (hn : n.Idle mod limit a) (command : UInt32)
    {args : List UInt32} (hargs : args.length ≤ maxCallArgs) (i : Option Interruption) :
    ∃ x y, m.accept ⟨command, args, none⟩ = .ok x ∧ n.accept ⟨command, args, i⟩ = .ok y ∧
      x.Twin mod.header.instructionCount y ∧ x.executed = 0 := by
  have accepted : ∀ {m : Machine} (i : Option Interruption), m.Idle mod limit a →
      m.accept ⟨command, args, i⟩
        = .ok (activation ⟨mod.program, a⟩ m.status ⟨command, args, i⟩) := by
    intro m i h
    rw [Machine.accept, h.loaded]
    exact if_neg (Nat.not_lt.mpr hargs)
  refine ⟨_, _, accepted none hm, accepted i hn, ⟨⟨?_, ?_, ?_, hm.heap, hn.heap⟩, ?_, rfl⟩, rfl⟩
  · rw [activation, activation, hm.programStack, hn.programStack]
    rfl
  · exact (hm.meter_accept (accepted none hm)).trans (hn.meter_accept (accepted i hn)).symm
  · exact ⟨hm.instructionCount, hn.instructionCount⟩
  · rw [activation, activation, hm.programStack, hn.programStack]

/-- A call that returns leaves an idle machine idle, if it leaves it without a heap. -/
theorem Idle.call (h : m.Idle mod limit a) {fuel : Nat} {m' : Machine} {s s' : σ} {c : Invocation}
    {r : CallResult} (hcall : Machine.call host fuel m s c = some (m', s', r))
    (hcount : m'.status.instructionCount = mod.header.instructionCount)
    (hheap : m'.status.heap = {}) : ∃ a', a'.mask = a.mask ∧ m'.Idle mod limit a' := by
  obtain ⟨hfabric, -, -, hstack⟩ := kept_call hcall
  obtain ⟨a', hl, hmask⟩ := exists_loaded_of_fabric hfabric h.loaded
  exact ⟨a', hmask, h.toRests.call hcall, hl, hcount, hstack.trans h.programStack, hheap⟩

/-- What a call that succeeded makes of the end of its activation. -/
theorem close_eq_success {before : Status} {e : Ended σ} {m : Machine} {s : σ} {value : UInt32}
    (h : close before e = (m, s, ⟨value, none⟩)) :
    ∃ m₁, m = leave before m₁ ∧ e = ⟨m₁, s, value, none⟩ := by
  obtain ⟨m₁, s₁, v, _ | f⟩ := e
  · cases h
    exact ⟨m₁, rfl, rfl⟩
  · cases h

/-- **Idle machines with one arena answer a call alike**, and are idle with one arena again. The
first succeeds without the trap that the hosts do not handle alike, and the caller of the second
waits. -/
theorem call_paired
    (hhosts : Host.PairedExcept number (Twin mod.header.instructionCount) S host host')
    (hm : m.Idle mod limit a) (hn : n.Idle mod limit a) {s : σ} {t : τ} (hst : S s t) {fuel : Nat}
    {i : Option Interruption} (hwaits : Waits i fuel) {command : UInt32} {args : List UInt32}
    (havoids : Point.Avoids host number (.start m s ⟨command, args, none⟩)) {m' : Machine} {s' : σ}
    {value : UInt32}
    (hcall : call host fuel m s ⟨command, args, none⟩ = some (m', s', ⟨value, none⟩)) :
    ∃ n' t' a', call host' fuel n t ⟨command, args, i⟩ = some (n', t', ⟨value, none⟩) ∧ S s' t' ∧
      a'.mask = a.mask ∧ m'.Idle mod limit a' ∧ n'.Idle mod limit a' ∧
      n'.status.meter = m'.status.meter := by
  obtain ⟨x, y, hx, hy, htwin, hexecuted⟩ :=
    hm.accept hn command (hm.length_args_le hcall) i
  have hresult := hcall
  rw [Machine.call, enter_eq, hx] at hresult
  obtain ⟨e, hrun, hclose⟩ := Option.map_eq_some_iff.mp hresult
  obtain ⟨m₁, rfl, rfl⟩ := close_eq_success hclose
  rw [Point.start, Focus.start, hx] at havoids
  obtain ⟨n₁, t', hrun', htwin, hst⟩ :=
    Activation.run_paired hhosts htwin hst (by rwa [hexecuted, Nat.zero_add]) havoids hrun
  have hcall' : Machine.call host' fuel n t ⟨command, args, i⟩
      = some (leave n.status n₁, t', ⟨value, none⟩) := by
    rw [Machine.call, enter_eq, hy]
    dsimp only
    rw [hrun']
    rfl
  obtain ⟨a', hmask, hm'⟩ := hm.call hcall htwin.instructionCount.1 htwin.heap.1
  obtain ⟨b', -, hn'⟩ := hn.call hcall' htwin.instructionCount.2 htwin.heap.2
  have hab : b' = a' := by
    have hloaded := (hn'.loaded.symm.trans htwin.loaded.symm).trans hm'.loaded
    exact (Loaded.mk.inj (Option.some.inj hloaded)).2
  exact ⟨_, t', a', hcall', hst, hmask, hm', hab ▸ hn', htwin.meter.symm⟩

end Machine

end

end BytecodeHost
