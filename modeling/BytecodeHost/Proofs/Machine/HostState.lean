import BytecodeHost.Proofs.Machine.Pairing

/-!
# Hosts that keep different state

A machine sees what its host does at a trap and not what the host keeps to itself. If two hosts do
the same at every trap, and what the one keeps can be read off what the other keeps, then a call
under the one can be read off the call under the other: it leaves the same machine and gives the
same result, success or failure, and it runs out of fuel when the other does. The hosts do not call
back.

## Main definitions

* `Host.Projects` — the state of a host is read off that of another one, which does the same
* `Ended.mapHost`, `Advance.mapHost` — ends and transitions with the state of the host read off

## Main results

* `Activation.run_mapHost`, `Machine.call_mapHost` — runs and calls are read off
-/

namespace BytecodeHost

variable {σ τ : Type} {f : σ → τ} {host : Host σ} {host' : Host τ}

/-- A host does at every trap what another one does, and its state is read off the other's. -/
def Host.Projects (f : σ → τ) (host : Host σ) (host' : Host τ) : Prop :=
  ∀ words, HostM.Paired Eq (fun s t => f s = t) (host words) (host' words)

/-- The end of an activation with the state of the host read off. -/
def Ended.mapHost (f : σ → τ) (e : Ended σ) : Ended τ :=
  ⟨e.machine, f e.host, e.value, e.fault⟩

/-- A transition with the state of the host read off. -/
def Advance.mapHost (f : σ → τ) : Advance σ → Advance τ
  | goesOn x => goesOn x
  | ends e => ends (e.mapHost f)
  | traps trap m => traps trap m

theorem Activation.finish_mapHost (x : Activation) (s : σ) (operands : Operands) :
    x.finish (f s) operands = (x.finish s operands).mapHost f := by
  rw [finish, finish]
  split <;> rfl

theorem Activation.advance_mapHost (i : Option Interruption) (x : Activation) (s : σ) :
    x.advance i (f s) = (x.advance i s).mapHost f := by
  rw [advance, advance]
  obtain ⟨x, _ | fault⟩ := x.account i
  · dsimp only
    cases step x.program x.status.instructionCount x.registers x.arena with
    | finish operands a => exact congrArg Advance.ends (finish_mapHost _ s operands)
    | next | broke | fault | stuck | trap => rfl
  · rfl

theorem Pending.resume_mapHost (trap : Pending) (m : Machine) (s : σ) (reply : TrapReply) :
    trap.resume m (f s) reply = (trap.resume m s reply).mapError (Ended.mapHost f) := by
  cases reply with
  | refused | panicked => rfl
  | value v =>
    obtain ⟨_ | l, status⟩ := m <;> rfl

theorem Machine.close_mapHost (before : Status) (e : Ended σ) :
    close before (e.mapHost f)
      = ((close before e).1, f (close before e).2.1, (close before e).2.2) := by
  obtain ⟨m, s, value, _ | fault⟩ := e <;> rfl

/-- **A run is read off a run** under a host that does the same. -/
theorem Activation.run_mapHost (h : host.Projects f host') (fuel : Nat)
    (i : Option Interruption) (x : Activation) (s : σ) :
    run host' fuel i x (f s) = (run host fuel i x s).map (Ended.mapHost f) := by
  induction fuel generalizing i x s with
  | zero => rfl
  | succ fuel ih =>
    rw [run_succ, run_succ, advance_mapHost]
    cases x.advance i s with
    | goesOn y => exact ih i y s
    | ends e => rfl
    | traps trap m =>
      obtain ⟨m', s', reply, _, _, hscript, hscript', rfl, rfl⟩ :=
        (h trap.words s (f s) rfl).run (Machine.enter (run host fuel))
          (Machine.enter (run host' fuel)) (rfl : m = m)
      dsimp only [Advance.mapHost]
      rw [hscript, hscript', Option.bind_some, Option.bind_some]
      dsimp only
      rw [Pending.resume_mapHost]
      cases trap.resume m' s' reply with
      | ok y => exact ih trap.interruption y s'
      | error e => rfl

/-- **A call is read off a call** under a host that does the same. -/
theorem Machine.call_mapHost (h : host.Projects f host') (fuel : Nat) (m : Machine) (s : σ)
    (c : Invocation) :
    call host' fuel m (f s) c
      = (call host fuel m s c).map fun (m', s', r) => (m', f s', r) := by
  rw [call, call, enter_eq, enter_eq]
  cases m.accept c with
  | error refusal => rfl
  | ok x =>
    dsimp only
    rw [Activation.run_mapHost h, Option.map_map, Option.map_map]
    exact congrArg (Option.map · _) (funext (close_mapHost m.status))

end BytecodeHost
