import Osh.TaskQueues
import Osh.Blocked

namespace Osh
open Function (update)

/-- What `osi_priority_check` prints. -/
inductive Report where
  | panic (scheduled iter : TaskId)
  | status (iter : TaskId)
  | priority (iter : TaskId)
  deriving DecidableEq, Repr

def priorityCheckScheduled (s : Sched) (scheduled : TaskId) : Nat → Option TaskId → List Report
  | 0, _ | _, none => []
  | n + 1, some iter =>
    (if (s.status iter).isRunning ∧ s.priority scheduled % 2 ^ 8 < s.priority iter then
      [.panic scheduled iter] else []) ++ priorityCheckScheduled s scheduled n (s.nrp iter)

def priorityCheckOrder (s : Sched) : Nat → Nat → Option TaskId → List Report
  | 0, _, _ | _, _, none => []
  | n + 1, priority, some iter =>
    (if ¬ (s.status iter).isRunning then [.status iter] else []) ++
    (if ¬ priority ≥ s.priority iter then [.priority iter] else []) ++
    priorityCheckOrder s n (s.priority iter % 2 ^ 8) (s.nrp iter)

/-- `osi_priority_check`, which passes priorities through 8-bit variables. It only prints, so the
calls of it in the other functions are left out. -/
def osiPriorityCheck (s : Sched) (scheduled : Option TaskId) : List Report :=
  (match scheduled with
    | none => []
    | some t => priorityCheckScheduled s t s.bound s.runqueue) ++
  priorityCheckOrder s s.bound 0xff s.runqueue

def runqueueNextWrapped (s : Sched) (t : TaskId) : Option TaskId :=
  match s.nrp t with
  | none => s.runqueue
  | some next => some next

/-- The search loop of `find_new_task`, which ends with `new_task` and `lower_priority`. -/
def findNewTaskLoop (s : Sched) (ours : Nat) (first : Option TaskId) :
    Nat → Option TaskId → Option TaskId → Option TaskId →
      Except Stop (Option TaskId × Option TaskId)
  | 0, _, _, _ => .error .diverge
  | n + 1, task, new, lower =>
    if task = lower then .ok (new, lower)
    else
      match task with
      | none => .error .fault
      | some t =>
        if (s.status t).isRunning ∧ s.priority t > ours then .ok (some t, lower)
        else
          let new := if (s.status t).isRunning ∧ s.priority t = ours ∧ new = none then some t
            else new
          let lower := if (s.status t).isRunning ∧ s.priority t < ours ∧ lower = none then some t
            else lower
          let task := runqueueNextWrapped s t
          if task = first then .ok (new, lower) else findNewTaskLoop s ours first n task new lower

def findNewTask (s : Sched) (running : TaskId) : Except Stop (Option TaskId) := do
  let first := runqueueNextWrapped s running
  let (new, lower) ←
    findNewTaskLoop s (s.priority running) first (3 * s.bound) first none none
  if new = none ∧ ¬ (s.status running).isRunning ∧ lower ≠ none then return lower
  else return new

/-- The `switch` of `osi_dispatch` over the status of the running task. -/
def dispatchLeave (s : Sched) (running : TaskId) : Except Stop Sched :=
  match s.status running with
  | .active => .ok { s with status := update s.status running .idle }
  | .idle | .wait => .ok s
  | .suspended | .finished | .panic | .aborted => runqueueRemove s running

/-- A waiting task that is given a chance changes queues. -/
def dispatchRequeue (s : Sched) (task : TaskId) (old : TaskStatus) : Except Stop Sched :=
  if old = .wait then do
    let s ← waitqueueRemove s task
    runqueueAdd s task
  else .ok s

/-- The run-time accounting of `osi_dispatch`. -/
def dispatchAccount (s : Sched) (running task : TaskId) : Sched :=
  let now := s.micros
  let elapsed := (now + 2 ^ 32 - s.scheduledAt running) % 2 ^ 32
  let s := if s.scheduledAt running > 0 then
      { s with
        runtime := update s.runtime running ((s.runtime running + elapsed) % 2 ^ 32)
        scheduledAt := update s.scheduledAt running 0 }
    else s
  { s with scheduledAt := update s.scheduledAt task now }

/-- The assertion of `OS_CONFIG_PARANOIA`. -/
def dispatchIdleCheck (s : Sched) (task : TaskId) : Except Stop Unit :=
  if s.idle = some task then do
    let l ← runqueueLength s s.bound s.runqueue
    osAssert .dispatchIdle (l = 1)
  else .ok ()

/-- The rest of `osi_dispatch` once `task` is detached from what it was blocked on. -/
def dispatchSwitch (s : Sched) (running task : TaskId) : Except Stop Sched := do
  let s ← dispatchLeave s running
  let old := s.status task
  let s := { s with
    delay := update s.delay task 0
    status := update s.status task .active }
  let s ← dispatchRequeue s task old
  let s := dispatchAccount s running task
  dispatchIdleCheck s task
  return { s with scheduled := some task, pendSv := true }

/-- `osi_dispatch`. It clears `flags` once more after the four tests. -/
def osiDispatch (k : Kernel) (task : TaskId) : Except Stop Kernel :=
  match k.running with
  | none => .error (.assertion .dispatch)
  | some running =>
    if running = task then .ok k
    else do
      let o ← dispatchDetach k.bound k.toObjects task
      let s ← dispatchSwitch k.toSched running task
      return { toSched := s, toObjects := { o with flags := update o.flags task 0 } }

/-- The wake-up test of `osi_schedule`. -/
def Sched.Due (s : Sched) (task : TaskId) : Prop :=
  s.delay task ≠ uint32Max ∧ s.uptime ≥ s.delay task

instance (s : Sched) (task : TaskId) : Decidable (s.Due task) :=
  inferInstanceAs (Decidable (s.delay task ≠ uint32Max ∧ s.uptime ≥ s.delay task))

def wakeLoop (s : Sched) : Nat → Option TaskId → Except Stop Sched
  | _, none => .ok s
  | 0, some _ => .error .diverge
  | n + 1, some task =>
    if s.Due task then osiTaskStatusSet s task .idle else wakeLoop s n (s.nrp task)

/-- The loop of `osi_schedule` over the wait queue, which wakes at most one task. -/
def wakeExpired (s : Sched) : Except Stop Sched :=
  wakeLoop s s.bound s.waitqueue

def osiSchedule (k : Kernel) : Except Stop Kernel :=
  match k.running with
  | none => .error (.assertion .schedule)
  | some running =>
    if k.status running = .idle then .ok k
    else if k.scheduled ≠ none then .ok k
    else do
      let s ← wakeExpired k.toSched
      let new ← findNewTask s running
      let k := { k with toSched := s }
      let k ← match new with
        | some t => if running ≠ t then osiDispatch k t else .ok k
        | none => .ok k
      return if k.scheduled ≠ none then { k with pendSv := true } else k

def osiDispatchOrQueue (k : Kernel) (task : TaskId) : Except Stop Kernel := do
  let higher ← runqueueHasHigherPriority k.toSched task
  if higher then do
    let s ← if ¬ (k.status task).isRunning then osiTaskStatusSet k.toSched task .idle
      else .ok k.toSched
    let k := { k with toSched := s }
    if k.scheduled = none then osiSchedule k else return k
  else osiDispatch k task

def osiIrsSystick (k : Kernel) : Except Stop Kernel :=
  if k.state = .started ∧ k.scheduled = none then osiSchedule k else .ok k

end Osh
