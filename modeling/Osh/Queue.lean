import Osh.Service

namespace Osh
open Function (update)

structure QueueDefinition where
  size : Nat
  flags : Nat

/-- `OS_QUEUE_FLAGS_QUEUE_ONLY`. -/
def queueOnly : Nat := 1

def osiQueueCreate (d : QueueDefinition) : Queue :=
  { flags := d.flags % 2 ^ 16, size := d.size % 2 ^ 16, number := 0, first := 0, last := 0,
    status := .fine, messages := fun _ => 0 }

/-- `++i == queue->size ? 0 : i`. -/
def Queue.next (q : Queue) (i : Nat) : Nat :=
  if (i + 1) % 2 ^ 16 = q.size then 0 else (i + 1) % 2 ^ 16

def osiQueueEnqueueIsr (k : Kernel) (q : QueueId) (message : Nat) :
    Except Stop (Kernel × Status) :=
  let queue := k.queue q
  if queue.flags &&& queueOnly = 0 ∧ k.blocked (.queue q) ≠ none ∧
      queue.status = .blockedReceive then do
    let (o, blockedReceiver) ← blockedDeq k.toObjects (.queue q)
    match blockedReceiver with
    | none => .error .fault
    | some blockedReceiver =>
      let o := o.setStackedTuple blockedReceiver Status.success.code message
      let k ← osiDispatchOrQueue { k with toObjects := o } blockedReceiver
      return ({ k with pendSv := true }, .success)
  else if queue.number = queue.size then .ok (k, .errorMem)
  else
    let first := (queue.first + 1) % 2 ^ 16
    let queue := { queue with
      status := .fine
      messages := update queue.messages queue.first message
      number := (queue.number + 1) % 2 ^ 16
      first := if first = queue.size then 0 else first }
    .ok ({ k with queue := update k.queue q queue }, .success)

def osiQueueEnqueue (k : Kernel) (q : QueueId) (message timeout : Nat) :
    Except Stop (Kernel × Status) :=
  match k.running with
  | none => .error (.assertion .queueEnqueue)
  | some running => do
    osAssert .queueEnqueue (k.nblocked running = none)
    let queue := k.queue q
    if queue.flags &&& queueOnly = 0 ∧ k.blocked (.queue q) ≠ none ∧
        queue.status = .blockedReceive then do
      let (o, blockedReceiver) ← blockedDeq k.toObjects (.queue q)
      match blockedReceiver with
      | none => .error .fault
      | some blockedReceiver =>
        let o := o.setStackedTuple blockedReceiver Status.success.code message
        let k ← osiDispatchOrQueue { k with toObjects := o } blockedReceiver
        return (k, .success)
    else if queue.number = queue.size then
      if timeout = 0 then return (k, .errorMem)
      else do
        let queue := { queue with status := .blockedSend }
        let k := { k with c := update k.c running message, queue := update k.queue q queue }
        let k ← block k (.queue q) running timeout
        return (k, .errorTo)
    else
      let first := (queue.first + 1) % 2 ^ 16
      let queue := { queue with
        status := .fine
        messages := update queue.messages queue.first message
        number := (queue.number + 1) % 2 ^ 16
        first := if first = queue.size then 0 else first }
      return ({ k with queue := update k.queue q queue }, .success)

/-- The refill of the ring from the task that is first on the blocked list. -/
def queueReceiveBlocked (k : Kernel) (q : QueueId) : Except Stop Kernel := do
  let (o, blockedSender) ← blockedDeq k.toObjects (.queue q)
  match blockedSender with
  | none => .error .fault
  | some blockedSender =>
    let queue := o.queue q
    let queue := { queue with
      messages := update queue.messages queue.first (o.c blockedSender)
      first := queue.next queue.first
      number := (queue.number + 1) % 2 ^ 16 }
    let o := { o with queue := update o.queue q queue, c := update o.c blockedSender 0 }
    let o := o.setStackedTuple blockedSender Status.success.code 0
    osiDispatchOrQueue { k with toObjects := o } blockedSender

/-- `osi_queue_dequeue`, with the message it stores through its out parameter. -/
def osiQueueDequeue (k : Kernel) (q : QueueId) (timeout : Nat) :
    Except Stop (Kernel × Status × Option Nat) :=
  match k.running with
  | none => .error (.assertion .queueDequeue)
  | some running => do
    osAssert .queueDequeue (k.nblocked running = none)
    let queue := k.queue q
    if queue.number > 0 then do
      let message := queue.messages queue.last
      let queue := { queue with last := queue.next queue.last, number := queue.number - 1 }
      let k := { k with queue := update k.queue q queue }
      let k ← if k.blocked (.queue q) ≠ none ∧ queue.status = .blockedSend then
          queueReceiveBlocked k q
        else .ok k
      return (k, .success, some message)
    else if timeout = 0 then return (k, .errorMem, none)
    else do
      let queue := { queue with status := .blockedReceive }
      let k := { k with queue := update k.queue q queue }
      let k ← block k (.queue q) running timeout
      return (k, .errorTo, none)

end Osh
