import Osh.Types

namespace Osh
open Function (update)

def blockedAppendLoop (task : TaskId) : Nat → Objects → TaskId → Except Stop Objects
  | 0, _, _ => .error .diverge
  | n + 1, o, iter => do
    osAssert .blockedAppend (o.nblocked iter ≠ some task)
    osAssert .blockedAppend (iter ≠ task)
    match o.nblocked iter with
    | none => .ok { o with nblocked := update o.nblocked iter (some task) }
    | some next => blockedAppendLoop task n o next

/-- `blocked_append`; the list is at most `n` long. -/
def blockedAppend (n : Nat) (o : Objects) (w : Waitable) (task : TaskId) :
    Except Stop Objects := do
  osAssert .blockedAppend (o.nblocked task = none)
  match o.blocked w with
  | none => .ok { o with blocked := update o.blocked w (some task) }
  | some head => blockedAppendLoop task n o head

def blockedRemoveLoop (w : Waitable) (task : TaskId) :
    Nat → Objects → Option TaskId → Option TaskId → Except Stop Objects
  | _, o, _, none => .ok o
  | 0, _, _, some _ => .error .diverge
  | n + 1, o, previous, some iter =>
    if iter = task then
      let o := match previous with
        | none => { o with blocked := update o.blocked w (o.nblocked task) }
        | some p => { o with nblocked := update o.nblocked p (o.nblocked task) }
      .ok { o with nblocked := update o.nblocked task none }
    else blockedRemoveLoop w task n o (some iter) (o.nblocked iter)

/-- `blocked_remove`; no caller looks at its result. -/
def blockedRemove (n : Nat) (o : Objects) (w : Waitable) (task : TaskId) : Except Stop Objects :=
  blockedRemoveLoop w task n o none (o.blocked w)

/-- The field of `os_task_t` that names an object of the kind of `w`, as such an object. -/
def Objects.waitsOn (o : Objects) (w : Waitable) (task : TaskId) : Option Waitable :=
  match w with
  | .mutex _ => (o.taskMutex task).map .mutex
  | .queue _ => (o.taskQueue task).map .queue
  | .semaphore _ => (o.taskSemaphore task).map .semaphore
  | .rwlock _ => (o.taskRwlock task).map .rwlock

/-- `task->mutex = mutex`, and its like for the other kinds. -/
def Objects.setWaitsOn (o : Objects) (w : Waitable) (task : TaskId) : Objects :=
  match w with
  | .mutex m => { o with taskMutex := update o.taskMutex task (some m) }
  | .queue q => { o with taskQueue := update o.taskQueue task (some q) }
  | .semaphore s => { o with taskSemaphore := update o.taskSemaphore task (some s) }
  | .rwlock l => { o with taskRwlock := update o.taskRwlock task (some l) }

/-- `blocked_enq`, which `mutex.c`, `queue.c`, `semaphore.c` and `rwlock.c` each define for their
own objects. -/
def blockedEnq (n : Nat) (o : Objects) (w : Waitable) (task : TaskId) : Except Stop Objects := do
  let o ← blockedAppend n o w task
  osAssert .blockedEnq (o.waitsOn w task = none)
  return o.setWaitsOn w task

/-- `blocked_deq` of `mutex.c`, `queue.c` and `semaphore.c`. -/
def blockedDeq (o : Objects) (w : Waitable) : Except Stop (Objects × Option TaskId) :=
  match o.blocked w with
  | none => .ok (o, none)
  | some task => do
    osAssert .blockedDeq (o.waitsOn w task = some w)
    return ({ o with
      blocked := update o.blocked w (o.nblocked task)
      nblocked := update o.nblocked task none }, some task)

/-- `os_mutex_t`'s blocked list in `osi_dispatch`. -/
def detachMutex (n : Nat) (o : Objects) (task : TaskId) : Except Stop Objects :=
  if o.flags task &&& flagMutex = flagMutex then
    match o.taskMutex task with
    | none => .error (.assertion .dispatchDetach)
    | some m => do
      osAssert .dispatchDetach (o.taskQueue task = none ∧ o.taskSemaphore task = none ∧
        o.taskRwlock task = none)
      let o := if o.blocked (.mutex m) = some task then
          { o with
            blocked := update o.blocked (.mutex m) (o.nblocked task)
            nblocked := update o.nblocked task none }
        else o
      let o ← blockedRemove n o (.mutex m) task
      return { o with
        taskMutex := update o.taskMutex task none
        flags := update o.flags task 0 }
  else .ok o

def detachQueue (n : Nat) (o : Objects) (task : TaskId) : Except Stop Objects :=
  if o.flags task &&& flagQueue = flagQueue then
    match o.taskQueue task with
    | none => .error (.assertion .dispatchDetach)
    | some q => do
      osAssert .dispatchDetach (o.taskMutex task = none ∧ o.taskSemaphore task = none ∧
        o.taskRwlock task = none)
      let o ← blockedRemove n o (.queue q) task
      return { o with
        taskQueue := update o.taskQueue task none
        flags := update o.flags task 0 }
  else .ok o

def detachSemaphore (n : Nat) (o : Objects) (task : TaskId) : Except Stop Objects :=
  if o.flags task &&& flagSemaphore = flagSemaphore then
    match o.taskSemaphore task with
    | none => .error (.assertion .dispatchDetach)
    | some s => do
      osAssert .dispatchDetach (o.taskMutex task = none ∧ o.taskQueue task = none ∧
        o.taskRwlock task = none)
      let o ← blockedRemove n o (.semaphore s) task
      return { o with
        taskSemaphore := update o.taskSemaphore task none
        flags := update o.flags task 0 }
  else .ok o

def detachRwlock (n : Nat) (o : Objects) (task : TaskId) : Except Stop Objects :=
  if o.flags task &&& flagRwlock = flagRwlock then
    match o.taskRwlock task with
    | none => .error (.assertion .dispatchDetach)
    | some l => do
      osAssert .dispatchDetach (o.taskMutex task = none ∧ o.taskQueue task = none ∧
        o.taskSemaphore task = none)
      let o ← blockedRemove n o (.rwlock l) task
      return { o with
        c := update o.c task 0
        taskRwlock := update o.taskRwlock task none
        flags := update o.flags task 0 }
  else .ok o

/-- The four masked tests of `osi_dispatch`, in their order. -/
def dispatchDetach (n : Nat) (o : Objects) (task : TaskId) : Except Stop Objects := do
  let o ← detachMutex n o task
  let o ← detachQueue n o task
  let o ← detachSemaphore n o task
  detachRwlock n o task

end Osh
