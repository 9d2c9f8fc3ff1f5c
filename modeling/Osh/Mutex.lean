import Osh.Service

namespace Osh
open Function (update)

structure MutexDefinition where
  flags : Nat

def osiMutexCreate (d : MutexDefinition) : Mutex :=
  { owner := none, level := 0, flags := d.flags }

/-- `osi_mutex_acquire`. The level is 16 bits wide, its guard compares it with 32 ones. -/
def osiMutexAcquire (k : Kernel) (m : MutexId) (timeout : Nat) : Except Stop (Kernel × Status) := do
  let task ← k.self
  osAssert .mutexAcquire (k.taskMutex task = none ∨ k.taskMutex task = some m)
  let mutex := k.mutex m
  if mutex.level = 0 then
    let mutex := { mutex with owner := some task, level := 1 }
    return ({ k with mutex := update k.mutex m mutex }, .success)
  else if mutex.owner = some task then
    if mutex.level = uint32Max then return (k, .error)
    else
      let mutex := { mutex with level := (mutex.level + 1) % 2 ^ 16 }
      return ({ k with mutex := update k.mutex m mutex }, .success)
  else if timeout = 0 then return (k, .errorTo)
  else do
    let k ← block k (.mutex m) task timeout
    return (k, .errorTo)

def osiMutexRelease (k : Kernel) (m : MutexId) : Except Stop (Kernel × Status) := do
  let task ← k.self
  let mutex := k.mutex m
  osAssert .mutexRelease (mutex.level > 0)
  osAssert .mutexRelease (mutex.owner = some task)
  let mutex := { mutex with level := mutex.level - 1 }
  let k := { k with mutex := update k.mutex m mutex }
  if mutex.level ≠ 0 then return (k, .success)
  else do
    osAssert .mutexRelease (k.taskMutex task = none)
    let mutex := { mutex with owner := none }
    let k := { k with mutex := update k.mutex m mutex }
    let (o, blockedTask) ← blockedDeq k.toObjects (.mutex m)
    match blockedTask with
    | none => return (k, .success)
    | some blockedTask => do
      let mutex := { mutex with owner := some blockedTask, level := 1 }
      let o := { o with mutex := update o.mutex m mutex }
      let o := o.setStackedReturn blockedTask Status.success.code
      let k ← osiDispatchOrQueue { k with toObjects := o } blockedTask
      return (k, .success)

end Osh
