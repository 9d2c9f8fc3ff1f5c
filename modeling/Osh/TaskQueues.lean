import Osh.Lib.Chain
import Osh.Types

namespace Osh
open Function (update)

def runqueueLength (s : Sched) : Nat → Option TaskId → Except Stop Nat
  | _, none => .ok 0
  | 0, some _ => .error .diverge
  | n + 1, some t => do
    let l ← runqueueLength s n (s.nrp t)
    return l + 1

/-- The head of a list and the `nrp` fields it is threaded through. -/
abbrev Links := Option TaskId × (TaskId → Option TaskId)

def runqueueAddLoop (priority : TaskId → Nat) (task : TaskId) (head : Option TaskId)
    (nrp : TaskId → Option TaskId) : Nat → Option TaskId → Option TaskId → Except Stop Links
  | _, _, none => .error (.assertion .runqueueAdd)
  | 0, _, some _ => .error .diverge
  | n + 1, previous, some iter =>
    if iter = task then .ok (head, nrp)
    else if priority task > priority iter then
      .ok (Lib.setLink head (update nrp task (some iter)) previous (some task))
    else if nrp iter = none then .ok (head, update nrp iter (some task))
    else runqueueAddLoop priority task head nrp n (some iter) (nrp iter)

/-- `runqueue_add` on `&osg.runqueue`. The link of `task` is cleared before the search. -/
def runqueueAdd (s : Sched) (task : TaskId) : Except Stop Sched :=
  let nrp := update s.nrp task none
  match s.runqueue with
  | none => .ok { s with runqueue := some task, nrp := nrp }
  | some head => do
    osAssert .runqueueAdd (s.status task ≠ .wait ∧ s.status task ≠ .finished)
    let (rq, nrp) ← runqueueAddLoop s.priority task (some head) nrp s.bound none (some head)
    return { s with runqueue := rq, nrp := nrp }

/-- The loop of `has_cycles`; `fast` moves two links at a time. -/
def hasCyclesLoop (nrp : TaskId → Option TaskId) : Nat → TaskId → TaskId → Except Stop Bool
  | 0, _, _ => .error .diverge
  | n + 1, slow, fast =>
    match nrp fast with
    | none => .ok false
    | some next =>
      match nrp slow, nrp next with
      | some slow, some fast => if slow = fast then .ok true else hasCyclesLoop nrp n slow fast
      | _, _ => .ok false

def hasCycles (nrp : TaskId → Option TaskId) (n : Nat) (head : Option TaskId) :
    Except Stop Bool :=
  match head with
  | none => .ok false
  | some h => hasCyclesLoop nrp n h h

def waitqueueAddLoop (delay : TaskId → Nat) (task : TaskId) (head : Option TaskId)
    (nrp : TaskId → Option TaskId) (bound : Nat) :
    Nat → Option TaskId → Option TaskId → Except Stop Links
  | _, _, none => .error (.assertion .waitqueueAdd)
  | 0, _, some _ => .error .diverge
  | n + 1, previous, some iter => do
    osAssert .waitqueueAdd (iter ≠ task)
    if delay task < delay iter then
      return Lib.setLink head (update nrp task (some iter)) previous (some task)
    else if nrp iter = none then
      let nrp := update nrp iter (some task)
      let cyclic ← hasCycles nrp bound head
      osAssert .waitqueueAdd (cyclic = false)
      return (head, nrp)
    else waitqueueAddLoop delay task head nrp bound n (some iter) (nrp iter)

/-- `waitqueue_add` on `&osg.waitqueue`. -/
def waitqueueAdd (s : Sched) (task : TaskId) : Except Stop Sched :=
  let nrp := update s.nrp task none
  match s.waitqueue with
  | none => .ok { s with waitqueue := some task, nrp := nrp }
  | some head => do
    let (wq, nrp) ← waitqueueAddLoop s.delay task (some head) nrp s.bound s.bound none (some head)
    return { s with waitqueue := wq, nrp := nrp }

/-- The loop that `runqueue_remove` and `waitqueue_remove` share. -/
def removeLoop (task : TaskId) (head : Option TaskId) (nrp : TaskId → Option TaskId) :
    Nat → Option TaskId → Option TaskId → Except Stop Links
  | _, _, none => .ok (head, nrp)
  | 0, _, some _ => .error .diverge
  | n + 1, previous, some iter =>
    if iter = task then
      let (head, nrp') := if head = some iter then (nrp iter, nrp)
        else Lib.setLink head nrp previous (nrp iter)
      .ok (head, update nrp' iter none)
    else removeLoop task head nrp n (some iter) (nrp iter)

/-- `runqueue_remove` on `&osg.runqueue`. -/
def runqueueRemove (s : Sched) (task : TaskId) : Except Stop Sched := do
  let (head, nrp) ← removeLoop task s.runqueue s.nrp s.bound none s.runqueue
  return { s with runqueue := head, nrp := nrp }

/-- `waitqueue_remove` on `&osg.waitqueue`. -/
def waitqueueRemove (s : Sched) (task : TaskId) : Except Stop Sched := do
  let (head, nrp) ← removeLoop task s.waitqueue s.nrp s.bound none s.waitqueue
  return { s with waitqueue := head, nrp := nrp }

def hasHigherPriorityLoop (s : Sched) (task : TaskId) : Nat → Option TaskId → Except Stop Bool
  | _, none => .ok false
  | 0, some _ => .error .diverge
  | n + 1, some iter =>
    if (s.status iter).isRunning ∧ s.priority iter > s.priority task then .ok true
    else hasHigherPriorityLoop s task n (s.nrp iter)

def runqueueHasHigherPriority (s : Sched) (task : TaskId) : Except Stop Bool :=
  hasHigherPriorityLoop s task s.bound s.runqueue

/-- `osi_task_status_set`; the status hook is not configured. -/
def osiTaskStatusSet (s : Sched) (task : TaskId) (new : TaskStatus) : Except Stop Sched :=
  let old := s.status task
  let s := { s with status := update s.status task new }
  match new with
  | .wait => do
    let s ← runqueueRemove s task
    waitqueueAdd s task
  | .finished | .panic | .aborted => runqueueRemove s task
  | .suspended => do
    let s ← waitqueueRemove s task
    runqueueRemove s task
  | .idle => do
    let s ← if old = .wait then waitqueueRemove s task else .ok s
    runqueueAdd s task
  | .active => .ok s

end Osh
