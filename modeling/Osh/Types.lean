import Mathlib.Algebra.Order.Ring.Nat
import Mathlib.Logic.Function.Basic
import Osh.Lib.Result

namespace Osh
open Function (update)

abbrev TaskId := Nat
abbrev MutexId := Nat
abbrev QueueId := Nat
abbrev SemaphoreId := Nat
abbrev RwlockId := Nat

/-- `UINT32_MAX`, which `svc_delay` and `osi_schedule` reserve for "no timeout". -/
def uint32Max : Nat := 2 ^ 32 - 1

inductive TaskStatus where
  | idle | active | wait | suspended | finished | panic | aborted
  deriving DecidableEq, Repr

def TaskStatus.isRunning : TaskStatus → Bool
  | .active | .idle => true
  | _ => false

inductive OsState where
  | default | initialized | tasksInitialized | started
  deriving DecidableEq, Repr

/-- The functions whose `OS_ASSERT`s the model keeps apart. -/
inductive Site where
  | initializeStack | taskInitialize | taskStart | taskSuspend | taskResume | taskFinished
  | start | dispatch | dispatchDetach | dispatchIdle | schedule
  | runqueueAdd | waitqueueAdd | blockedAppend | blockedEnq | blockedDeq
  | svcDelay | svcAbort | mutexAcquire | mutexRelease | semaphoreAcquire
  | queueEnqueue | queueDequeue | rwlockAcquire | rwlockRelease
  deriving DecidableEq, Repr

/-- Why a call does not return: a failed `OS_ASSERT` resets the MCU, a null pointer faults,
a loop runs forever. -/
inductive Stop where
  | assertion (site : Site)
  | fault
  | diverge
  deriving DecidableEq, Repr

def osAssert (site : Site) (p : Prop) [Decidable p] : Except Stop Unit :=
  if p then .ok () else .error (.assertion site)

theorem osAssert_true {site : Site} {p : Prop} [Decidable p] (h : p) : osAssert site p = .ok () :=
  if_pos h

@[simp] theorem osAssert_eq_ok {site : Site} {p : Prop} [Decidable p] {u : Unit} :
    osAssert site p = .ok u ↔ p := by
  unfold osAssert
  split <;> simp_all

inductive Waitable where
  | mutex (m : MutexId)
  | queue (q : QueueId)
  | semaphore (s : SemaphoreId)
  | rwlock (l : RwlockId)
  deriving DecidableEq, Repr

def flagMutex : Nat := 1
def flagQueue : Nat := 2
def flagSemaphore : Nat := 3
def flagRwlock : Nat := 4

/-- The `OS_TASK_FLAG_*` that blocking on an object sets. -/
def Waitable.flag : Waitable → Nat
  | .mutex _ => flagMutex
  | .queue _ => flagQueue
  | .semaphore _ => flagSemaphore
  | .rwlock _ => flagRwlock

structure Mutex where
  owner : Option TaskId
  level : Nat
  flags : Nat
  deriving DecidableEq, Repr

inductive QueueStatus where
  | fine | blockedSend | blockedReceive
  deriving DecidableEq, Repr

/-- A message is the 32-bit word of its pointer. `flags` is the flag word of the definition. -/
structure Queue where
  flags : Nat
  size : Nat
  number : Nat
  first : Nat
  last : Nat
  status : QueueStatus
  messages : Nat → Nat

structure Semaphore where
  tokens : Nat
  flags : Nat
  deriving DecidableEq, Repr

structure Rwlock where
  readers : Nat
  writers : Nat
  writer : Option TaskId
  flags : Nat
  deriving DecidableEq, Repr

/-- The registers of a task's exception frame that service calls answer in, seen through
`osi_task_return_regs`. -/
structure StackedRegs where
  r0 : Nat
  r1 : Nat
  deriving DecidableEq, Repr

/-- The fields of the control blocks and of `osg` that the scheduler works on. A field of
`os_task_t` is a map from tasks, so that writing one leaves the others alone by definition. -/
structure Sched where
  running : Option TaskId
  scheduled : Option TaskId
  state : OsState
  ntasks : Nat
  idle : Option TaskId
  tasks : List TaskId
  runqueue : Option TaskId
  waitqueue : Option TaskId
  status : TaskId → TaskStatus
  priority : TaskId → Nat
  nrp : TaskId → Option TaskId
  delay : TaskId → Nat
  started : TaskId → Nat
  runtime : TaskId → Nat
  scheduledAt : TaskId → Nat
  uptime : Nat
  micros : Nat
  pendSv : Bool

/-- The objects tasks block on, and the fields of the control blocks that their code works on.
`blocked w` is `blocked.tasks` of the object `w`; `c` is the union of `message` and `desired`. -/
structure Objects where
  blocked : Waitable → Option TaskId
  nblocked : TaskId → Option TaskId
  taskQueue : TaskId → Option QueueId
  taskMutex : TaskId → Option MutexId
  taskSemaphore : TaskId → Option SemaphoreId
  taskRwlock : TaskId → Option RwlockId
  flags : TaskId → Nat
  c : TaskId → Nat
  params : TaskId → Nat
  stackSize : TaskId → Nat
  regs : TaskId → StackedRegs
  mutex : MutexId → Mutex
  queue : QueueId → Queue
  semaphore : SemaphoreId → Semaphore
  rwlock : RwlockId → Rwlock

structure Kernel extends Sched, Objects

inductive Status where
  | success | error | errorTo | errorMem | errorInt | errorInvalid | errorNop
  deriving DecidableEq, Repr

def Status.code : Status → Nat
  | .success => 0
  | .error => 1
  | .errorTo => 2
  | .errorMem => 3
  | .errorInt => 4
  | .errorInvalid => 5
  | .errorNop => 6

/-- No walk along distinct created tasks takes more steps than this. -/
def Sched.bound (s : Sched) : Nat := s.tasks.length + 1

/-- `os_task_self()`, dereferenced. -/
def Kernel.self (k : Kernel) : Except Stop TaskId :=
  match k.running with
  | some t => .ok t
  | none => .error .fault

@[simp] theorem Kernel.self_eq_ok {k : Kernel} {t : TaskId} :
    k.self = .ok t ↔ k.running = some t := by
  unfold Kernel.self
  split <;> simp_all

end Osh
