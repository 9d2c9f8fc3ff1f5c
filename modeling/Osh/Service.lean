import Osh.Schedule

namespace Osh
open Function (update)

/-- `svc_delay` up to its call of `osi_schedule`. -/
def svcDelaySleep (k : Kernel) (ms : Nat) : Except Stop Kernel :=
  match k.running with
  | none => .error (.assertion .svcDelay)
  | some running => do
    osAssert .svcDelay (k.scheduled ≠ some running)
    let delay := if ms = uint32Max then uint32Max else (k.uptime + ms) % 2 ^ 32
    osAssert .svcDelay (ms ≠ uint32Max → delay ≠ uint32Max)
    let s := { k.toSched with delay := update k.delay running delay }
    let s ← osiTaskStatusSet s running .wait
    return { k with toSched := s }

/-- `svc_delay`; its result is always `OSS_ERROR_TO`. -/
def svcDelay (k : Kernel) (ms : Nat) : Except Stop Kernel := do
  let k ← svcDelaySleep k ms
  let k ← if k.scheduled = none then osiSchedule k else .ok k
  osAssert .svcDelay (k.scheduled ≠ none)
  osAssert .svcDelay (k.scheduled ≠ k.running)
  return k

theorem svcDelay_eq {k : Kernel} {ms : Nat} : svcDelay k ms =
    match k.running with
    | none => .error (.assertion .svcDelay)
    | some running => do
      osAssert .svcDelay (k.scheduled ≠ some running)
      let delay := if ms = uint32Max then uint32Max else (k.uptime + ms) % 2 ^ 32
      osAssert .svcDelay (ms ≠ uint32Max → delay ≠ uint32Max)
      let s ← osiTaskStatusSet { k.toSched with delay := update k.delay running delay } running
        .wait
      let k := { k with toSched := s }
      let k ← if k.scheduled = none then osiSchedule k else .ok k
      osAssert .svcDelay (k.scheduled ≠ none)
      osAssert .svcDelay (k.scheduled ≠ k.running)
      return k := by
  unfold svcDelay svcDelaySleep
  cases k.running with
  | none => rfl
  | some running => simp only [bind_assoc, pure_bind]

def svcAbort (k : Kernel) : Except Stop Kernel := do
  let running ← k.self
  let s ← osiTaskStatusSet k.toSched running .aborted
  let k := { k with toSched := s }
  let k ← if k.scheduled = none then osiSchedule k else .ok k
  osAssert .svcAbort (k.scheduled ≠ none)
  osAssert .svcAbort (k.scheduled ≠ k.running)
  return k

def svcBlock (k : Kernel) (ms flags : Nat) : Except Stop Kernel := do
  let running ← k.self
  svcDelay { k with flags := update k.flags running (k.flags running ||| flags) } ms

/-- Joining a blocked list and going to sleep, as every acquire, enqueue and dequeue does. -/
def block (k : Kernel) (w : Waitable) (task : TaskId) (timeout : Nat) : Except Stop Kernel := do
  let o ← blockedEnq k.bound k.toObjects w task
  svcBlock { k with toObjects := o } timeout w.flag

/-- `osi_task_set_stacked_return`. -/
def Objects.setStackedReturn (o : Objects) (task : TaskId) (v0 : Nat) : Objects :=
  { o with regs := update o.regs task { o.regs task with r0 := v0 } }

/-- A write of both words of `osi_task_stacked_return_tuple`. -/
def Objects.setStackedTuple (o : Objects) (task : TaskId) (status value : Nat) : Objects :=
  { o with regs := update o.regs task ⟨status, value⟩ }

end Osh
