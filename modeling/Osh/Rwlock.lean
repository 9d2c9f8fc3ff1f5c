import Osh.Service

namespace Osh
open Function (update)

structure RwlockDefinition where
  flags : Nat

def desiredNone : Nat := 0
def desiredRead : Nat := 1
def desiredWrite : Nat := 2

def osiRwlockCreate (d : RwlockDefinition) : Rwlock :=
  { readers := 0, writers := 0, writer := none, flags := d.flags }

def osiRwlockAcquireRead (k : Kernel) (l : RwlockId) (timeout : Nat) :
    Except Stop (Kernel × Status) := do
  let task ← k.self
  osAssert .rwlockAcquire (k.taskRwlock task = none ∨ k.taskRwlock task = some l)
  let rwlock := k.rwlock l
  if rwlock.writers = 0 then
    let rwlock := { rwlock with readers := (rwlock.readers + 1) % 2 ^ 16 }
    return ({ k with rwlock := update k.rwlock l rwlock }, .success)
  else if timeout = 0 then return (k, .errorTo)
  else do
    let k ← block { k with c := update k.c task desiredRead } (.rwlock l) task timeout
    return (k, .errorTo)

def osiRwlockAcquireWrite (k : Kernel) (l : RwlockId) (timeout : Nat) :
    Except Stop (Kernel × Status) := do
  let task ← k.self
  osAssert .rwlockAcquire (k.taskRwlock task = none ∨ k.taskRwlock task = some l)
  let rwlock := k.rwlock l
  if rwlock.readers = 0 ∧ rwlock.writers = 0 then
    let rwlock := { rwlock with writers := (rwlock.writers + 1) % 2 ^ 16, writer := some task }
    return ({ k with rwlock := update k.rwlock l rwlock }, .success)
  else if timeout = 0 then return (k, .errorTo)
  else do
    let k ← block { k with c := update k.c task desiredWrite } (.rwlock l) task timeout
    return (k, .errorTo)

/-- The loop of `osi_rwlock_release` over the blocked list. It advances by the link of `iter`,
which it has cleared when `iter` was granted the lock. -/
def grantReadersLoop (l : RwlockId) :
    Nat → Kernel → Option TaskId → Option TaskId → Except Stop Kernel
  | _, k, _, none => .ok k
  | 0, _, _, some _ => .error .diverge
  | n + 1, k, previous, some iter =>
    if k.c iter = desiredRead then do
      let o := match previous with
        | none => { k.toObjects with blocked := update k.blocked (.rwlock l) (k.nblocked iter) }
        | some p => { k.toObjects with nblocked := update k.nblocked p (k.nblocked iter) }
      let o := { o with
        nblocked := update o.nblocked iter none
        c := update o.c iter desiredNone }
      let o := o.setStackedReturn iter Status.success.code
      let s ← osiTaskStatusSet k.toSched iter .idle
      let rwlock := o.rwlock l
      let rwlock := { rwlock with readers := (rwlock.readers + 1) % 2 ^ 16 }
      let o := { o with rwlock := update o.rwlock l rwlock }
      grantReadersLoop l n { toSched := s, toObjects := o } previous (o.nblocked iter)
    else grantReadersLoop l n k (some iter) (k.nblocked iter)

/-- The hand-over of the lock to the writer that is first on the blocked list. -/
def grantWriter (k : Kernel) (l : RwlockId) (task : TaskId) : Except Stop Kernel :=
  let rwlock := k.rwlock l
  let rwlock := { rwlock with writers := (rwlock.writers + 1) % 2 ^ 16, writer := some task }
  let o := { k.toObjects with
    blocked := update k.blocked (.rwlock l) (k.nblocked task)
    nblocked := update k.nblocked task none
    c := update k.c task desiredNone
    rwlock := update k.rwlock l rwlock }
  osiDispatchOrQueue { k with toObjects := o.setStackedReturn task Status.success.code } task

def osiRwlockRelease (k : Kernel) (l : RwlockId) : Except Stop (Kernel × Status) := do
  let task ← k.self
  let rwlock := k.rwlock l
  osAssert .rwlockRelease (rwlock.readers > 0 ∨ rwlock.writers = 1)
  let rwlock := { rwlock with readers := rwlock.readers - 1 }
  osAssert .rwlockRelease (rwlock.writers > 0 → rwlock.writer = some task)
  let rwlock := if rwlock.writers > 0 then
      { rwlock with writer := none, writers := rwlock.writers - 1 }
    else rwlock
  let k := { k with rwlock := update k.rwlock l rwlock }
  match k.blocked (.rwlock l) with
  | none => return (k, .success)
  | some task => do
    let k ← if rwlock.readers = 0 ∧ k.c task = desiredWrite then grantWriter k l task
      else grantReadersLoop l k.bound k none (some task)
    return (k, .success)

end Osh
