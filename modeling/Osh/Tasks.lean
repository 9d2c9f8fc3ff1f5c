import Osh.Schedule

namespace Osh
open Function (update)

structure TaskOptions where
  suspended : Bool
  params : Nat
  stackSize : Nat
  priority : Nat

/-- `OS_STACK_MINIMUM_SIZE`. -/
def stackMinimumSize : Nat := 160

/-- `initialize_stack`, as far as the frame that `osi_task_return_regs` finds on the new stack. -/
def initializeStack (o : Objects) (task : TaskId) : Except Stop Objects := do
  osAssert .initializeStack (o.stackSize task % 4 = 0)
  osAssert .initializeStack (o.stackSize task ≥ stackMinimumSize)
  return { o with regs := update o.regs task ⟨o.params task, 0x1001⟩ }

/-- The first task is the idle task, whatever priority it asks for. -/
def chooseIdle (s : Sched) (task : TaskId) : Except Stop Sched :=
  if s.idle = none then do
    osAssert .taskInitialize (s.status task ≠ .suspended)
    return { s with priority := update s.priority task 0, idle := some task }
  else .ok s

def joinRunqueue (s : Sched) (task : TaskId) : Except Stop Sched :=
  if s.status task ≠ .suspended then runqueueAdd s task else .ok s

def osTaskInitializeOptions (k : Kernel) (task : TaskId) (options : TaskOptions) :
    Except Stop Kernel :=
  if k.state ≠ .initialized ∧ k.state ≠ .tasksInitialized then .ok k
  else do
    let o := { k.toObjects with
      stackSize := update k.stackSize task options.stackSize
      params := update k.params task options.params
      flags := update k.flags task 0
      taskQueue := update k.taskQueue task none
      taskMutex := update k.taskMutex task none
      nblocked := update k.nblocked task none
      taskSemaphore := update k.taskSemaphore task none
      taskRwlock := update k.taskRwlock task none
      c := update k.c task 0 }
    let o ← initializeStack o task
    let s : Sched := { k.toSched with
      status := update k.status task (if options.suspended then .suspended else .idle)
      delay := update k.delay task 0
      started := update k.started task k.uptime
      runtime := update k.runtime task 0
      scheduledAt := update k.scheduledAt task 0
      nrp := update k.nrp task none
      priority := update k.priority task options.priority
      tasks := task :: k.tasks
      ntasks := (k.ntasks + 1) % 2 ^ 8 }
    let s ← chooseIdle s task
    let s ← joinRunqueue s task
    return { toSched := { s with state := .tasksInitialized }, toObjects := o }

/-- `os_task_start_options`. It leaves `task->semaphore` and the blocked lists as they are. -/
def osTaskStartOptions (k : Kernel) (task : TaskId) (priority params : Nat) :
    Except Stop Kernel := do
  osAssert .taskStart (k.status task ≠ .idle ∧ k.status task ≠ .active)
  let o := { k.toObjects with
    flags := update k.flags task 0
    taskQueue := update k.taskQueue task none
    taskMutex := update k.taskMutex task none
    taskRwlock := update k.taskRwlock task none
    c := update k.c task 0
    nblocked := update k.nblocked task none
    params := update k.params task params }
  let o ← initializeStack o task
  let s : Sched := { k.toSched with
    delay := update k.delay task 0
    started := update k.started task k.uptime
    runtime := update k.runtime task 0
    scheduledAt := update k.scheduledAt task 0
    priority := update k.priority task (priority % 2 ^ 8)
    status := update k.status task .idle }
  let s ← waitqueueRemove s task
  let s ← runqueueRemove s task
  let s ← runqueueAdd s task
  return { toSched := s, toObjects := o }

def osTaskStart (k : Kernel) (task : TaskId) : Except Stop Kernel :=
  osTaskStartOptions k task (k.priority task) 0

def osTaskSuspend (s : Sched) (task : TaskId) : Except Stop Sched := do
  osAssert .taskSuspend (s.status task = .idle ∨ s.status task = .active)
  osiTaskStatusSet s task .suspended

def osTaskResume (s : Sched) (task : TaskId) : Except Stop Sched := do
  osAssert .taskResume (s.status task = .suspended)
  osiTaskStatusSet s task .idle

/-- `os_start`, up to the call of the idle task's handler. -/
def osStart (s : Sched) : Except Stop Sched :=
  if s.state ≠ .tasksInitialized then .ok s
  else do
    osAssert .start (s.runqueue ≠ none)
    match s.idle with
    | none => .error .fault
    | some idle =>
      return { s with
        running := some idle
        status := update s.status idle .active
        state := .started }

/-- `task_finished`, up to its infinite loop. -/
def taskFinished (s : Sched) : Except Stop Sched :=
  match s.running with
  | none => .error (.assertion .taskFinished)
  | some running => do
    osAssert .taskFinished (s.idle ≠ some running)
    osAssert .taskFinished (s.status running = .active)
    osiTaskStatusSet s running .finished

end Osh
