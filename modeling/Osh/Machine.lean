import Osh.Mutex
import Osh.Semaphore
import Osh.Queue
import Osh.Rwlock
import Osh.Tasks
import Osh.Lib.Transition

namespace Osh
open Function (update)

inductive Svc where
  | delay (ms : Nat)
  | abort
  | mutexAcquire (m : MutexId) (timeout : Nat)
  | mutexRelease (m : MutexId)
  | semaphoreAcquire (s : SemaphoreId) (timeout : Nat)
  | semaphoreRelease (s : SemaphoreId)
  | queueEnqueue (q : QueueId) (message timeout : Nat)
  | queueDequeue (q : QueueId) (timeout : Nat)
  | rwlockAcquireRead (l : RwlockId) (timeout : Nat)
  | rwlockAcquireWrite (l : RwlockId) (timeout : Nat)
  | rwlockRelease (l : RwlockId)
  deriving DecidableEq, Repr

/-- The service function of a call: the status it returns, and for queues the value that it
returns with it. -/
def Svc.call (k : Kernel) : Svc → Except Stop (Kernel × Status × Option Nat)
  | .delay ms => do
    let k ← svcDelay k ms
    return (k, .errorTo, none)
  | .abort => do
    let k ← svcAbort k
    return (k, .success, none)
  | .mutexAcquire m timeout => do
    let (k, status) ← osiMutexAcquire k m timeout
    return (k, status, none)
  | .mutexRelease m => do
    let (k, status) ← osiMutexRelease k m
    return (k, status, none)
  | .semaphoreAcquire s timeout => do
    let (k, status) ← osiSemaphoreAcquire k s timeout
    return (k, status, none)
  | .semaphoreRelease s => do
    let (k, status) ← osiSemaphoreRelease k s
    return (k, status, none)
  | .queueEnqueue q message timeout => do
    let (k, status) ← osiQueueEnqueue k q message timeout
    return (k, status, some 0)
  | .queueDequeue q timeout => do
    let (k, status, message) ← osiQueueDequeue k q timeout
    return (k, status, some (message.getD 0))
  | .rwlockAcquireRead l timeout => do
    let (k, status) ← osiRwlockAcquireRead k l timeout
    return (k, status, none)
  | .rwlockAcquireWrite l timeout => do
    let (k, status) ← osiRwlockAcquireWrite k l timeout
    return (k, status, none)
  | .rwlockRelease l => do
    let (k, status) ← osiRwlockRelease k l
    return (k, status, none)

/-- `SVC_Handler` up to its switch: it stores what the service function returned in the frame
of the calling task. -/
def svcHandler (k : Kernel) (call : Svc) : Except Stop Kernel := do
  let caller ← k.self
  let (k, status, value) ← call.call k
  let r1 := value.getD (k.regs caller).r1
  return { k with regs := update k.regs caller ⟨status.code, r1⟩ }

/-- What can happen to a started system. -/
inductive Act where
  | svc (call : Svc)
  | taskFinished
  | taskStart (task : TaskId) (priority params : Nat)
  | taskSuspend (task : TaskId)
  | taskResume (task : TaskId)
  | systick
  | schedule
  | enqueueIsr (q : QueueId) (message : Nat)
  | contextSwitch
  | clock (uptime micros : Nat)
  deriving DecidableEq, Repr

/-- A task makes service calls only while no switch is pending. Only tasks that were created are
started, suspended or resumed. -/
def Act.Enabled (k : Kernel) : Act → Prop
  | .svc _ => k.scheduled = none
  | .contextSwitch => k.scheduled ≠ none
  | .taskStart task _ _ | .taskSuspend task | .taskResume task => task ∈ k.tasks
  | _ => True

instance (k : Kernel) (a : Act) : Decidable (a.Enabled k) := by
  unfold Act.Enabled
  cases a <;> infer_instance

/-- The effect of an action. A switch is the exchange of `osg.running` and `osg.scheduled` that
`SVC_Handler` and `PendSV_Handler` do. -/
def Act.run (k : Kernel) : Act → Except Stop Kernel
  | .svc call => svcHandler k call
  | .taskFinished => do
    let s ← Osh.taskFinished k.toSched
    return { k with toSched := s }
  | .taskStart task priority params => osTaskStartOptions k task priority params
  | .taskSuspend task => do
    let s ← osTaskSuspend k.toSched task
    return { k with toSched := s }
  | .taskResume task => do
    let s ← osTaskResume k.toSched task
    return { k with toSched := s }
  | .systick => osiIrsSystick k
  | .schedule => osiSchedule k
  | .enqueueIsr q message => do
    let (k, _) ← osiQueueEnqueueIsr k q message
    return k
  | .contextSwitch => .ok { k with running := k.scheduled, scheduled := none, pendSv := false }
  | .clock uptime micros => .ok { k with uptime := uptime % 2 ^ 32, micros := micros % 2 ^ 32 }

/-- What a program sets up before `os_start`: its tasks, created in the order of the list, and
its objects. -/
structure Boot where
  tasks : List (TaskId × TaskOptions)
  distinct : (tasks.map Prod.fst).Nodup
  nonempty : tasks ≠ []
  mutexes : MutexId → MutexDefinition
  queues : QueueId → QueueDefinition
  semaphores : SemaphoreId → SemaphoreDefinition
  rwlocks : RwlockId → RwlockDefinition

/-- Memory once `os_initialize` and the `create` functions ran: no task exists, and a control
block counts as finished, which is the status `os_task_initialize_options` reports it had. -/
def Boot.initialized (b : Boot) : Kernel where
  running := none
  scheduled := none
  state := .initialized
  ntasks := 0
  idle := none
  tasks := []
  runqueue := none
  waitqueue := none
  status _ := .finished
  priority _ := 0
  nrp _ := none
  delay _ := 0
  started _ := 0
  runtime _ := 0
  scheduledAt _ := 0
  uptime := 0
  micros := 0
  pendSv := false
  blocked _ := none
  nblocked _ := none
  taskQueue _ := none
  taskMutex _ := none
  taskSemaphore _ := none
  taskRwlock _ := none
  flags _ := 0
  c _ := 0
  params _ := 0
  stackSize _ := 0
  regs _ := ⟨0, 0⟩
  mutex m := osiMutexCreate (b.mutexes m)
  queue q := osiQueueCreate (b.queues q)
  semaphore s := osiSemaphoreCreate (b.semaphores s)
  rwlock l := osiRwlockCreate (b.rwlocks l)

def initializeTasks (k : Kernel) : List (TaskId × TaskOptions) → Except Stop Kernel
  | [] => .ok k
  | (task, options) :: rest => do
    let k ← osTaskInitializeOptions k task options
    initializeTasks k rest

def Boot.start (b : Boot) : Except Stop Kernel := do
  let k ← initializeTasks b.initialized b.tasks
  let s ← osStart k.toSched
  return { k with toSched := s }

/-- The kernel as a transition system. A failed assertion or an endless loop is a step that has
no successor. -/
def machine : Lib.System Kernel Act where
  init k := ∃ b : Boot, b.start = .ok k
  step k a k' := a.Enabled k ∧ a.run k = .ok k'

end Osh
