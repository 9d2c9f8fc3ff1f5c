import Osh.Service

namespace Osh
open Function (update)

structure SemaphoreDefinition where
  tokens : Nat
  flags : Nat

def osiSemaphoreCreate (d : SemaphoreDefinition) : Semaphore :=
  { tokens := d.tokens % 2 ^ 32, flags := d.flags }

def osiSemaphoreAcquire (k : Kernel) (s : SemaphoreId) (timeout : Nat) :
    Except Stop (Kernel × Status) := do
  let task ← k.self
  osAssert .semaphoreAcquire (k.taskSemaphore task = none ∨ k.taskSemaphore task = some s)
  let semaphore := k.semaphore s
  if semaphore.tokens > 0 then
    let semaphore := { semaphore with tokens := semaphore.tokens - 1 }
    return ({ k with semaphore := update k.semaphore s semaphore }, .success)
  else if timeout = 0 then return (k, .errorTo)
  else do
    let k ← block k (.semaphore s) task timeout
    return (k, .errorTo)

def osiSemaphoreRelease (k : Kernel) (s : SemaphoreId) : Except Stop (Kernel × Status) := do
  let (o, blockedTask) ← blockedDeq k.toObjects (.semaphore s)
  match blockedTask with
  | some blockedTask => do
    let o := o.setStackedReturn blockedTask Status.success.code
    let k ← osiDispatchOrQueue { k with toObjects := o } blockedTask
    return (k, .success)
  | none =>
    let semaphore := k.semaphore s
    let semaphore := { semaphore with tokens := (semaphore.tokens + 1) % 2 ^ 32 }
    return ({ k with semaphore := update k.semaphore s semaphore }, .success)

end Osh
