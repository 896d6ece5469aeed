import BytecodeHost.Machine.Host

/-!
# What requests do

There is much that a host can ask of a machine and little that can become of the machine. It stays
as it is, or records that something was refused; bytes of its arena are written; the words of its
heap are different. Only at level zero does it lose what is loaded, or get another arena. The meter
comes before all of this, because a request that touches it does nothing else.

What every request keeps is therefore shown for each `Request.Outcome`, without looking into the
requests again.

## Main definitions

* `Request.nextMeter` — what a request makes of the meter
* `Request.Outcome` — what a request can make of a machine, the meter apart

## Main results

* `Request.outcome` — a request has one of these outcomes
-/

namespace BytecodeHost

/-- A range passes its check, or it is refused. -/
theorem Machine.validateRange_cases (m : Machine) (address length : UInt32) :
    m.validateRange address length = (m, .ok ()) ∨
      ∃ f, m.validateRange address length = m.refuse f := by
  rw [validateRange]
  split
  · exact .inr ⟨_, rfl⟩
  · split
    · exact .inr ⟨_, rfl⟩
    · split
      · exact .inr ⟨_, rfl⟩
      · exact .inl rfl

namespace Request

/-- What a request makes of the meter. -/
def nextMeter (q : Request) (μ : Meter) : Meter :=
  match q with
  | resetMeter => μ.reset
  | chargeMeter n => (μ.charge n).1
  | _ => μ

/-- A request that the heap can be different after. -/
def touchesHeap : Request → Bool
  | free | setHeap .. | malloc _ => true
  | _ => false

/-- What a request can make of a machine, after what it makes of the meter. -/
inductive Outcome (m : Machine) : Request → Machine → Prop
  /-- Nothing is different. -/
  | same {q : Request} : Outcome m q m
  /-- It is refused, and the refusal is recorded. -/
  | refused {q : Request} (f : Fault) : Outcome m q { m with status := m.status.fail f }
  /-- Bytes are written, if there is an arena. -/
  | poked (offset : Nat) (bytes : ByteArray) :
    Outcome m (poke offset bytes) (m.poke offset bytes)
  /-- The words of the heap are different. -/
  | allotted {q : Request} (hq : q.touchesHeap = true) (heap : Heap) :
    Outcome m q { m with status := { m.status with heap } }
  /-- Nothing is loaded any more. -/
  | freed (hlevel : m.status.callLevel = 0) :
    Outcome m free { loaded := none, status := { m.status with heap := {} } }
  /-- Another arena of the same size is loaded. -/
  | restored {saved : ByteArray} (hlevel : m.status.callLevel = 0) {l : Loaded} {arena : Arena}
    (hl : m.loaded = some l) (harena : l.arena.restore saved = .ok arena) :
    Outcome m (restore saved) { m with loaded := some { l with arena } }

theorem outcome_setHeap (m : Machine) (start length : Int32) :
    (setHeap start length).Outcome m (m.setHeap start length).1 := by
  rw [Machine.setHeap]
  split
  · exact .refused _
  · split
    · exact .refused _
    · obtain h | ⟨f, h⟩ := m.validateRange_cases start.toUInt32 length.toUInt32
      · rw [h]
        exact .allotted rfl _
      · rw [h]
        exact .refused f

theorem outcome_malloc (m : Machine) (size : Int32) :
    (malloc size).Outcome m (m.malloc size).1 := by
  simp only [Machine.malloc]
  split
  · exact .refused _
  · split
    · exact .refused _
    · split
      · exact .refused _
      · exact .allotted rfl _

theorem outcome_restore (m : Machine) (saved : ByteArray) :
    (restore saved).Outcome m (m.restore saved).1 := by
  rw [Machine.restore]
  split
  · exact .refused _
  · rename_i l hl
    split
    · exact .refused _
    · rename_i hlevel
      split
      · exact .refused _
      · rename_i arena harena
        exact .restored (Decidable.not_not.mp hlevel) hl harena

/-- **What a request does.** -/
theorem outcome (q : Request) (m : Machine) :
    q.Outcome (m.withMeter (q.nextMeter m.status.meter)) (q.perform m).1 := by
  cases q with
  | inspect | resetMeter | chargeMeter => exact .same
  | free =>
    rw [perform, Machine.free]
    split
    · exact .refused _
    · rename_i hlevel
      exact .freed (Decidable.not_not.mp hlevel)
  | snapshot =>
    rw [perform, Machine.snapshot]
    split
    · exact .refused _
    · exact .same
  | restore saved => exact outcome_restore m saved
  | poke offset bytes => exact .poked offset bytes
  | validateRange address length =>
    obtain h | ⟨f, h⟩ := m.validateRange_cases address length
    · rw [perform, h]
      exact .same
    · rw [perform, h]
      exact .refused f
  | cString address =>
    rw [perform, Machine.cString]
    split
    · exact .refused _
    · exact .same
  | translate address =>
    rw [perform, Machine.translate]
    split
    · exact .refused _
    · exact .same
  | setHeap start length => exact outcome_setHeap m start length
  | malloc size => exact outcome_malloc m size

end Request

end BytecodeHost
