import BytecodeHost.Proofs.Machine.Budget

/-!
# Failures of calls and their reports

A call that fails is recorded as the machine's last error, is reported as an event and is returned.
Failures arise in many places: an instruction may be refused or fail, a host may refuse a trap or
give up, and a call back may have failed and been reported before that. All of them leave an
activation through one door, so the failure that is returned is the one that was reported last.

A call with too many arguments is the exception. It is refused before it starts, and nobody is told.

## Main definitions

* `Kind.ofCalls` — the kinds that a call can fail with
* `Ended.Reportable` — an activation whose fault, if it has one, is of these kinds
* `Machine.Reports` — a failure that was recorded and reported last
* `Point.Reporting` — the invariant of a course

## Main results

* `reportable_step` — faults of instructions are of these kinds
* `Request.reports_perform` — no request of a host withdraws a report
* `Point.reporting_step`, `Point.reporting_steps` — the outermost call reports its failure last
* `Machine.call_reports` — so does every call
-/

namespace BytecodeHost

variable {σ : Type}

/-! ## Kinds of failures -/

/-- The kinds that a call can fail with. -/
def Kind.ofCalls : List Kind :=
  [notLoaded, pcOutOfRange, budgetExceeded, canceled, blockCopyRange, divisionByZero,
    badInstruction, stackCorruption, trapFailed]

/-- An effect that is no fault, or one that a call can fail with. -/
def Effect.Reportable : Effect → Prop
  | fault f _ => f.kind ∈ Kind.ofCalls
  | _ => True

/-- **An instruction fails in ways that calls can fail.** -/
theorem reportable_step (p : Program) (count : Int32) (r : Registers) (a : Arena) :
    (step p count r a).Reportable := by
  have immediate : ∀ (pc : UInt32) (k : UInt32 → Arena → Effect),
      (∀ w, (k w a).Reportable) → (withImmediate p pc a k).Reportable := by
    intro pc k hk
    rw [withImmediate]
    split
    · exact hk _
    · trivial
  have instruction : ∀ (index frame : UInt32) (operands : Operands) (a' : Arena),
      (toInstruction p index frame operands a').Reportable := by
    intro index frame operands a'
    rw [toInstruction]
    split <;> trivial
  rw [step]
  split
  · trivial
  · split
    · exact (by decide : Kind.badInstruction ∈ Kind.ofCalls)
    · rename_i op _
      rw [execute]
      cases op.shape with
      | ignore | breakpoint | load1 | load2 | load4 | push | pop | unary | binary => trivial
      | store1 | store2 | store4 => trivial
      | invalid => exact (by decide : Kind.badInstruction ∈ Kind.ofCalls)
      | constant | frameAddress | argument | enter => exact immediate _ _ fun w => trivial
      | blockCopy =>
        refine immediate _ _ fun w => ?_
        split
        · trivial
        · exact (by decide : Kind.blockCopyRange ∈ Kind.ofCalls)
      | call =>
        dsimp only
        split
        · trivial
        · split
          · exact (by decide : Kind.pcOutOfRange ∈ Kind.ofCalls)
          · exact instruction _ _ _ _
      | leave =>
        refine immediate _ _ fun w => ?_
        dsimp only
        split
        · trivial
        · split
          · trivial
          · exact (by decide : Kind.pcOutOfRange ∈ Kind.ofCalls)
      | jump =>
        dsimp only
        split
        · exact (by decide : Kind.pcOutOfRange ∈ Kind.ofCalls)
        · exact instruction _ _ _ _
      | branch =>
        dsimp only
        split
        · exact immediate _ _ fun w => trivial
        · trivial
      | divide =>
        dsimp only
        split
        · exact (by decide : Kind.divisionByZero ∈ Kind.ofCalls)
        · trivial

/-- An activation that ends without a fault, or with one that a call can fail with. Then its result
word is minus one, unless it is what unbalanced operands left on top. -/
def Ended.Reportable (e : Ended σ) : Prop :=
  ∀ f, e.fault = some f →
    f.kind ∈ Kind.ofCalls ∧ (e.value = returnMarker ∨ f.kind = .stackCorruption)

theorem Activation.reportable_fail (x : Activation) (s : σ) {f : Fault}
    (h : f.kind ∈ Kind.ofCalls) : (x.fail s f).Reportable := by
  intro g hg
  obtain rfl : f = g := Option.some.inj hg
  exact ⟨h, .inl rfl⟩

theorem Activation.reportable_finish (x : Activation) (s : σ) (operands : Operands) :
    (x.finish s operands).Reportable := by
  intro f hf
  rw [finish] at hf
  split at hf
  · contradiction
  · obtain rfl := Option.some.inj hf
    exact ⟨(by decide : Kind.stackCorruption ∈ Kind.ofCalls), .inr rfl⟩

/-- The accounting fails in ways that calls can fail. -/
theorem Activation.kind_of_account {x : Activation} {i : Option Interruption} {f : Fault}
    (h : (x.account i).2 = some f) : f.kind ∈ Kind.ofCalls := by
  rw [account] at h
  split at h
  · obtain rfl := Option.some.inj h
    exact (by decide : Kind.pcOutOfRange ∈ Kind.ofCalls)
  · dsimp only at h
    split at h
    · cases i with
      | none => contradiction
      | some i =>
        dsimp only at h
        split at h
        · obtain rfl := Option.some.inj h
          exact (by decide : Kind.canceled ∈ Kind.ofCalls)
        · contradiction
    · obtain rfl := Option.some.inj h
      exact (by decide : Kind.budgetExceeded ∈ Kind.ofCalls)

theorem Activation.reportable_of_advance {x : Activation} {i : Option Interruption} {s : σ}
    {e : Ended σ} (h : x.advance i s = .ends e) : e.Reportable := by
  rw [advance] at h
  split at h
  · rename_i hf
    obtain rfl := Advance.ends.inj h
    exact reportable_fail _ s (kind_of_account (congrArg Prod.snd hf))
  · rename_i y _
    have hstep := reportable_step y.program y.status.instructionCount y.registers y.arena
    split at h
    · contradiction
    · contradiction
    · obtain rfl := Advance.ends.inj h
      exact reportable_finish _ s _
    · rename_i f a hfault
      obtain rfl := Advance.ends.inj h
      rw [hfault] at hstep
      exact reportable_fail _ s hstep
    · obtain rfl := Advance.ends.inj h
      exact reportable_fail _ s (by decide : Kind.trapFailed ∈ Kind.ofCalls)
    · contradiction

theorem Pending.reportable_of_resume {trap : Pending} {m : Machine} {s : σ} {reply : TrapReply}
    {e : Ended σ} (h : trap.resume m s reply = .error e) : e.Reportable := by
  have failed : ∀ {m : Machine} {f : Fault}, f.kind = .trapFailed →
      Ended.Reportable ⟨m, s, returnMarker, some f⟩ := by
    rintro m f hf _ ⟨⟩
    exact ⟨by rw [hf]; decide, .inl rfl⟩
  cases reply with
  | refused g =>
    obtain rfl := Except.error.inj h
    exact failed rfl
  | panicked message =>
    obtain rfl := Except.error.inj h
    exact failed rfl
  | value v =>
    rw [resume] at h
    split at h
    · contradiction
    · obtain rfl := Except.error.inj h
      exact failed rfl

/-! ## Reports -/

namespace Machine

/-- The reports about a machine, oldest first. -/
def reports (m : Machine) : List Event :=
  m.status.events.toList

/-- A fault that is recorded is reported. -/
theorem reports_fail (m : Machine) (f : Fault) :
    reports { m with status := m.status.fail f } = m.reports ++ [⟨f.kind, f.detail, true⟩] :=
  Array.toList_push

end Machine

theorem Request.Outcome.reports {q : Request} {m m' : Machine} (h : q.Outcome m m') :
    m.reports <+: m'.reports := by
  cases h with
  | same | allotted | freed | restored => exact List.prefix_refl _
  | refused f =>
    rw [Machine.reports_fail]
    exact List.prefix_append _ _
  | poked offset bytes => obtain ⟨_ | l, status⟩ := m <;> exact List.prefix_refl _

/-- **No request of a host withdraws a report.** -/
theorem Request.reports_perform (m : Machine) (q : Request) :
    m.reports <+: (q.perform m).1.reports :=
  (q.outcome m).reports

/-- A failure of a call on `m`, with the machine and the result word that the call left: it is of a
kind that calls can fail with, it is the last error, and it was reported last of all that was
reported in the call. -/
structure Machine.Reports (m m' : Machine) (value : UInt32) (f : Failure) : Prop where
  /-- The kind is one of those that calls can fail with. -/
  kind : Failure.kindOf (some f) ∈ Kind.ofCalls
  /-- The last error is of this kind. -/
  lastError : m'.status.lastError = Failure.kindOf (some f)
  /-- So is the last report, which is about a machine and came after the call was made. -/
  report : ∃ earlier detail, m'.reports = earlier ++ [⟨Failure.kindOf (some f), detail, true⟩] ∧
    m.reports <+: earlier
  /-- The result word is minus one, unless it is what unbalanced operands left on top. -/
  value : value = returnMarker ∨ Failure.kindOf (some f) = .stackCorruption

namespace Machine

variable {m : Machine}

theorem reports_close (before : Status) (e : Ended σ) :
    e.machine.reports <+: (close before e).1.reports := by
  obtain ⟨m, s, value, _ | f⟩ := e
  · exact List.prefix_refl _
  · show m.reports <+: reports { m with status := m.status.fail f }
    rw [reports_fail]
    exact List.prefix_append _ _

/-- **A call that fails records and reports the failure** as the last thing that it does. -/
theorem Reports.of_close {before : Status} {e : Ended σ} (he : e.Reportable)
    (hgrows : m.reports <+: e.machine.reports) {m' : Machine} {s : σ} {value : UInt32} {f : Failure}
    (h : close before e = (m', s, ⟨value, some f⟩)) : m.Reports m' value f := by
  obtain ⟨m₁, s₁, v, _ | fault⟩ := e
  · cases h
  · obtain ⟨hkind, hvalue⟩ := he fault rfl
    cases h
    exact ⟨hkind, rfl, ⟨m₁.reports, fault.detail, reports_fail m₁ fault, hgrows⟩, hvalue⟩

/-- A call on a machine that is not loaded is refused, and this is reported. -/
theorem Reports.of_accept {c : Invocation} (hargs : m.loaded.isSome → c.args.length ≤ maxCallArgs)
    {m' : Machine} {value : UInt32} {f : Failure} (h : m.accept c = .error (m', ⟨value, some f⟩)) :
    m.Reports m' value f := by
  obtain ⟨_ | l, status⟩ := m
  · cases h
    exact ⟨by decide, rfl, ⟨_, _, reports_fail ⟨none, status⟩ _, List.prefix_refl _⟩, .inl rfl⟩
  · rw [accept] at h
    dsimp only at h
    rw [if_neg (Nat.not_lt.mpr (hargs rfl))] at h
    contradiction

theorem reports_accept (m : Machine) (c : Invocation) :
    (∀ x, m.accept c = .ok x → x.machine.reports = m.reports) ∧
      ∀ m' r, m.accept c = .error (m', r) → m.reports <+: m'.reports := by
  obtain ⟨_ | l, status⟩ := m
  · refine ⟨fun x hx => by contradiction, fun m' r h => ?_⟩
    obtain ⟨rfl, -⟩ := Prod.mk.inj (Except.error.inj h)
    rw [reports_fail ⟨none, status⟩]
    exact List.prefix_append _ _
  · rw [accept]
    dsimp only
    split
    · refine ⟨fun x hx => by contradiction, fun m' r h => ?_⟩
      obtain ⟨rfl, -⟩ := Prod.mk.inj (Except.error.inj h)
      exact List.prefix_refl _
    · refine ⟨fun x hx => ?_, fun m' r h => by contradiction⟩
      obtain rfl := Except.ok.inj hx
      rfl

end Machine

namespace Point

/-! ## Reports in the course of a call -/

/-- At a point in the course of a call on `m₀`: no report about it was withdrawn, and if the call
has returned with a failure, the failure was recorded and reported last. -/
structure Reporting (m₀ : Machine) (γ : Point σ) : Prop where
  /-- No report was withdrawn. -/
  grows : m₀.reports <+: γ.machine.reports
  /-- A failure of the outermost call was reported last. -/
  returned : ∀ m s value f, γ = ⟨.returning m s ⟨value, some f⟩, []⟩ → m₀.Reports m value f

variable {m₀ : Machine} {callers : List (Caller σ)}

theorem reporting_executing {before : Status} {i : Option Interruption} {x : Activation} {s : σ}
    (h : m₀.reports <+: x.machine.reports) : Reporting m₀ ⟨.executing before i x s, callers⟩ :=
  ⟨h, fun _ _ _ _ heq => by cases heq⟩

theorem reporting_handling {before : Status} {trap : Pending} {script : Script σ TrapReply}
    {m : Machine} (h : m₀.reports <+: m.reports) :
    Reporting m₀ ⟨.handling before trap script m, callers⟩ :=
  ⟨h, fun _ _ _ _ heq => by cases heq⟩

theorem reporting_ended {before : Status} {e : Ended σ} (he : e.Reportable)
    (h : m₀.reports <+: e.machine.reports) : Reporting m₀ ⟨.ended before e, callers⟩ := by
  refine ⟨h.trans (Machine.reports_close before e), fun m s value f heq => ?_⟩
  obtain ⟨hfocus, -⟩ := Point.mk.inj heq
  obtain ⟨hm, hs, hr⟩ := Focus.returning.inj hfocus
  exact .of_close he h (Prod.ext hm (Prod.ext hs hr))

/-- A call that starts. A refusal is the outermost call's only if there are no callers. -/
theorem reporting_start {m : Machine} (h : m₀.reports <+: m.reports) (s : σ) {c : Invocation}
    (hrefused : callers = [] → ∀ m' value f, m.accept c = .error (m', ⟨value, some f⟩) →
      m₀.Reports m' value f) :
    Reporting m₀ ⟨.start m s c, callers⟩ := by
  obtain ⟨hok, herror⟩ := m.reports_accept c
  rw [Focus.start]
  cases haccept : m.accept c with
  | ok x => exact reporting_executing (by rwa [hok x haccept])
  | error refusal =>
    obtain ⟨m', r⟩ := refusal
    refine ⟨h.trans (herror m' r haccept), fun m s value f heq => ?_⟩
    obtain ⟨hfocus, hcallers⟩ := Point.mk.inj heq
    obtain ⟨rfl, -, rfl⟩ := Focus.returning.inj hfocus
    exact hrefused hcallers _ _ _ haccept

/-- **Every step keeps the reports in order.** -/
theorem reporting_step (host : Host σ) {γ : Point σ} (h : Reporting m₀ γ) :
    Reporting m₀ (γ.step host) := by
  obtain ⟨φ, callers⟩ := γ
  have hgrows := h.grows
  cases φ with
  | executing before i x s =>
    rw [step, Focus.advance]
    -- an instruction reports nothing
    obtain ⟨a, status, -, ⟨breakCount, programStack, rfl⟩, hx⟩ := x.advance_cases i s
    obtain ⟨y, hy, hm⟩ | ⟨value, fault, hx⟩ | ⟨trap, hx, -⟩ := hx
    · rw [hy]
      exact reporting_executing (by rw [hm]; exact hgrows)
    · rw [hx]
      exact reporting_ended (Activation.reportable_of_advance hx) hgrows
    · rw [hx]
      exact reporting_handling hgrows
  | handling before trap script m =>
    cases script with
    | done s reply =>
      rw [step, Focus.answer]
      obtain ⟨x, hx, hm⟩ | ⟨value, fault, hx⟩ := trap.resume_cases m s reply
      · rw [hx]
        exact reporting_executing (by rw [hm]; exact hgrows)
      · rw [hx]
        exact reporting_ended (Pending.reportable_of_resume hx) hgrows
    | ask q k => exact reporting_handling (hgrows.trans (q.reports_perform m))
    | call s c k => exact reporting_start hgrows s fun hcallers => by contradiction
  | returning m s r =>
    cases callers with
    | nil => exact h
    | cons caller callers => exact reporting_handling hgrows

/-- **The outermost call reports its failure last**, whatever was reported in its course. -/
theorem reporting_steps (host : Host σ) (n : Nat) (m : Machine) (s : σ) {c : Invocation}
    (hargs : m.loaded.isSome → c.args.length ≤ maxCallArgs) :
    Reporting m (steps host n (start m s c)) := by
  induction n with
  | zero =>
    exact reporting_start (List.prefix_refl _) s fun _ _ _ _ h => .of_accept hargs h
  | succ n ih =>
    rw [steps_succ']
    exact reporting_step host ih

/-- The failure with which the host refuses a trap at a point, if it does. -/
def refusal? : Point σ → Option Failure
  | ⟨.handling _ _ (.done _ (.refused g)) _, _⟩ => some g
  | ⟨.handling .., _⟩ | ⟨.executing .., _⟩ | ⟨.returning .., _⟩ => none

/-- **A call whose trap is refused fails with a failed trap**, and with all that the host's own
failure can be matched against. -/
theorem step_of_refusal? (host : Host σ) {γ : Point σ} {g : Failure} (h : γ.refusal? = some g) :
    ∃ m s f, γ.step host = ⟨.returning m s ⟨returnMarker, some f⟩, γ.callers⟩ ∧
      f.causes = .kind .trapFailed :: g.causes := by
  obtain ⟨φ, callers⟩ := γ
  cases φ with
  | executing | returning => contradiction
  | handling before trap script m =>
    cases script with
    | ask | call => contradiction
    | done s reply =>
      cases reply with
      | value | panicked => contradiction
      | refused g' =>
        obtain rfl := Option.some.inj h
        exact ⟨_, _, _, rfl, rfl⟩

end Point

/-! ## Calls -/

namespace Machine

/-- A call with too many arguments is refused before it starts. -/
theorem accept_of_length_lt {m : Machine} (hloaded : m.loaded.isSome) {c : Invocation}
    (hargs : maxCallArgs < c.args.length) :
    m.accept c = .error (m, ⟨returnMarker, some (tooManyArguments c.args.length)⟩) := by
  obtain ⟨l, hl⟩ := Option.isSome_iff_exists.mp hloaded
  rw [accept, hl]
  exact if_pos hargs

/-- **Calls record and report their failures.** Any call on any machine with any host, which may be
the host's own call back, that returns a failure and has not too many arguments leaves it as the
last error and as the last report, of a kind that calls fail with; whatever was reported before it,
in the call or earlier, is still there. The result word of a failed call is minus one, unless the
operands were unbalanced. A call with too many arguments runs no instruction and leaves the machine
as it was, reports included. If a host refuses a trap, at any depth, the call that raised it fails
with a failed trap, and with everything that the host's own failure can be matched against. -/
theorem call_reports (host : Host σ) (m : Machine) (s : σ) (c : Invocation) :
    (∀ fuel m' s' value f, call host fuel m s c = some (m', s', ⟨value, some f⟩) →
      (m.loaded.isSome → c.args.length ≤ maxCallArgs) → m.Reports m' value f) ∧
    (m.loaded.isSome → maxCallArgs < c.args.length → ∃ f, f.hasCause .tooManyArguments = true ∧
      (∀ fuel, call host fuel m s c = some (m, s, ⟨returnMarker, some f⟩)) ∧
      ∀ n, Point.dispatched host n (.start m s c) = 0) ∧
    ∀ n g, (Point.steps host n (.start m s c)).refusal? = some g → ∃ m₁ s₁ f callers,
      Point.steps host (n + 1) (.start m s c)
        = ⟨.returning m₁ s₁ ⟨returnMarker, some f⟩, callers⟩ ∧
      Failure.kindOf (some f) = .trapFailed ∧ f.hasCause (.kind .trapFailed) = true ∧
      ∀ cause, g.hasCause cause = true → f.hasCause cause = true := by
  refine ⟨fun fuel m' s' value f hcall hargs => ?_, fun hloaded hargs => ?_, ?_⟩
  · obtain ⟨n, hn⟩ := (Point.call_iff_steps host m s c _).mp ⟨fuel, hcall⟩
    exact (Point.reporting_steps host n m s hargs).returned m' s' value f hn
  · have hrefused := accept_of_length_lt hloaded hargs
    refine ⟨tooManyArguments c.args.length, rfl, fun fuel => ?_, fun n => ?_⟩
    · rw [call, enter_eq, hrefused]
    · rw [Point.start, Focus.start, hrefused]
      induction n with
      | zero => rfl
      | succ n ih => exact (Nat.zero_add _).trans ih
  · intro n g hn
    obtain ⟨m₁, s₁, f, hstep, hcauses⟩ := Point.step_of_refusal? host hn
    refine ⟨m₁, s₁, f, _, (Point.steps_succ' host n _).trans hstep, ?_, ?_, fun cause hcause => ?_⟩
    · rw [Failure.kindOf, Failure.kind?, hcauses]
      rfl
    · rw [Failure.hasCause, hcauses, List.contains_cons, beq_self_eq_true, Bool.true_or]
    · rw [Failure.hasCause, List.contains_iff_mem] at hcause ⊢
      rw [hcauses]
      exact List.mem_cons_of_mem _ hcause

/-- A host that refuses every trap as a module's wish. -/
def refusing : Host Unit :=
  fun _ => pure (.refused (.ofCause .moduleAbort "aborted"))

/-- Two calls deep the instructions are used up, and the outer call reports that too; thirteen
arguments are too many; and a refusal can be told from what the host said. -/
theorem call_reports_sample :
    ∃ mod m' value f g m₁ f₁ callers, Module.load "sample" Module.sampleImage = .ok mod ∧
      call insistent 8 (create mod 4) () ⟨0, [], none⟩ = some (m', (), ⟨value, some f⟩) ∧
      (create mod 4).Reports m' value f ∧
      g.hasCause .tooManyArguments = true ∧
      call insistent 8 (create mod 4) () ⟨0, List.replicate 13 0, none⟩
        = some (create mod 4, (), ⟨returnMarker, some g⟩) ∧
      Point.steps refusing 4 (.start (create mod 4) () ⟨0, [], none⟩)
        = ⟨.returning m₁ () ⟨returnMarker, some f₁⟩, callers⟩ ∧
      f₁.hasCause .moduleAbort = true := by
  have hfails : (Module.load "sample" Module.sampleImage).toOption.map (fun mod =>
      ((call insistent 8 (create mod 4) () ⟨0, [], none⟩).bind fun y => y.2.2.failure).isSome)
      = some true := by
    decide +kernel
  have hrefuses : (Module.load "sample" Module.sampleImage).toOption.map (fun mod =>
      (Point.steps refusing 3 (.start (create mod 4) () ⟨0, [], none⟩)).refusal?)
      = some (some (.ofCause .moduleAbort "aborted")) := by
    decide +kernel
  obtain ⟨mod, hmod⟩ := Module.exists_load_sample
  rw [hmod] at hfails hrefuses
  obtain ⟨f, hf⟩ := Option.isSome_iff_exists.mp (Option.some.inj hfails)
  obtain ⟨⟨m', s, value, failure⟩, hcall, rfl⟩ := Option.bind_eq_some_iff.mp hf
  obtain ⟨hreports, -, -⟩ := call_reports insistent (create mod 4) () ⟨0, [], none⟩
  obtain ⟨-, hmany, -⟩ := call_reports insistent (create mod 4) () ⟨0, List.replicate 13 0, none⟩
  obtain ⟨-, -, htrap⟩ := call_reports refusing (create mod 4) () ⟨0, [], none⟩
  obtain ⟨g, hg, hrefused, -⟩ := hmany rfl (by decide)
  obtain ⟨m₁, s₁, f₁, callers, hstep, -, -, hcauses⟩ := htrap 3 _ (Option.some.inj hrefuses)
  exact ⟨mod, m', value, f, g, m₁, f₁, callers, hmod, hcall,
    hreports 8 m' s value f hcall fun _ => by decide, hg, hrefused 8, hstep,
    hcauses .moduleAbort (by decide)⟩

end Machine

end BytecodeHost
