import Osh.BlockedSpec
import Osh.KernelSpec

namespace Osh
open Function (update)
open Lib

variable {k k' : Kernel} {o : Objects} {t : TaskId} {w : Waitable} {timeout : Nat}
  {status : Status}

theorem block_eq_ok (hr : k.running = some t) :
    block k w t timeout = .ok k' ↔ ∃ o, blockedEnq k.bound k.toObjects w t = .ok o ∧
      svcDelay { k with toObjects := { o with
        flags := update o.flags t (o.flags t ||| w.flag) } } timeout = .ok k' := by
  simp only [block, svcBlock, bind_eq_ok, Kernel.self_eq_ok]
  constructor
  · rintro ⟨o, ho, running, hr', h⟩
    obtain rfl : t = running := Option.some.inj (hr.symm.trans hr')
    exact ⟨o, ho, h⟩
  · rintro ⟨o, ho, h⟩
    exact ⟨o, ho, t, hr, h⟩

section Mutex
variable {m : MutexId}

def Objects.setMutex (o : Objects) (m : MutexId) (owner : Option TaskId) (level : Nat) : Objects :=
  { o with mutex := update o.mutex m { o.mutex m with owner := owner, level := level } }

inductive MutexAcquires (k : Kernel) (m : MutexId) (timeout : Nat) (task : TaskId) :
    Kernel → Status → Prop
  | free (hl : (k.mutex m).level = 0) :
    MutexAcquires k m timeout task { k with toObjects := k.setMutex m (some task) 1 } .success
  | again (hl : (k.mutex m).level ≠ 0) (ho : (k.mutex m).owner = some task) :
    MutexAcquires k m timeout task { k with
      toObjects := k.setMutex m (k.mutex m).owner (((k.mutex m).level + 1) % 2 ^ 16) } .success
  | full (hl : (k.mutex m).level = uint32Max) (ho : (k.mutex m).owner = some task) :
    MutexAcquires k m timeout task k .error
  | busy (hl : (k.mutex m).level ≠ 0) (ho : (k.mutex m).owner ≠ some task) (ht : timeout = 0) :
    MutexAcquires k m timeout task k .errorTo
  | blocks {k' : Kernel} (hl : (k.mutex m).level ≠ 0) (ho : (k.mutex m).owner ≠ some task)
    (hb : block k (.mutex m) task timeout = .ok k') :
    MutexAcquires k m timeout task k' .errorTo

theorem osiMutexAcquire_cases (h : osiMutexAcquire k m timeout = .ok (k', status)) :
    ∃ task, k.running = some task ∧ MutexAcquires k m timeout task k' status := by
  simp only [osiMutexAcquire, bind_eq_ok, Kernel.self_eq_ok, osAssert_eq_ok] at h
  obtain ⟨task, hr, _, -, h⟩ := h
  refine ⟨task, hr, ?_⟩
  split_ifs at h with hl ho hm ht
  · cases h
    exact .free hl
  · cases h
    exact .full hm ho
  · cases h
    exact .again hl ho
  · cases h
    exact .busy hl ho ht
  · simp only [bind_eq_ok, pure_eq_ok, Prod.mk.injEq] at h
    obtain ⟨k₁, hb, rfl, rfl⟩ := h
    exact .blocks hl ho hb

def Objects.grantMutex (o : Objects) (m : MutexId) (t : TaskId) : Objects :=
  ((o.unlink (.mutex m) none t).setMutex m (some t) 1).setStackedReturn t Status.success.code

inductive MutexReleases (k : Kernel) (m : MutexId) (task : TaskId) : Kernel → Prop
  | nested (hl : (k.mutex m).level ≠ 1) (ho : (k.mutex m).owner = some task) :
    MutexReleases k m task { k with
      toObjects := k.setMutex m (k.mutex m).owner ((k.mutex m).level - 1) }
  | free (hl : (k.mutex m).level = 1) (ho : (k.mutex m).owner = some task)
    (hb : k.blocked (.mutex m) = none) :
    MutexReleases k m task { k with toObjects := k.setMutex m none 0 }
  | grant {t : TaskId} {k' : Kernel} (hl : (k.mutex m).level = 1)
    (ho : (k.mutex m).owner = some task) (hb : k.blocked (.mutex m) = some t)
    (hw : k.taskMutex t = some m)
    (hd : osiDispatchOrQueue { k with toObjects := k.grantMutex m t } t = .ok k') :
    MutexReleases k m task k'

theorem osiMutexRelease_cases (h : osiMutexRelease k m = .ok (k', status)) :
    status = .success ∧ ∃ task, k.running = some task ∧ (k.mutex m).level > 0 ∧
      MutexReleases k m task k' := by
  simp only [osiMutexRelease, bind_eq_ok, Kernel.self_eq_ok, osAssert_eq_ok] at h
  obtain ⟨task, hr, _, hl, _, ho, h⟩ := h
  split_ifs at h with hn
  · cases h
    exact ⟨rfl, task, hr, hl, .nested (fun he => hn (by rw [he])) ho⟩
  · simp only [bind_eq_ok, osAssert_eq_ok] at h
    obtain ⟨_, -, ⟨o, r⟩, hd, h⟩ := h
    obtain ⟨hb, hr'⟩ := blockedDeq_eq_ok.1 hd
    have hl : (k.mutex m).level = 1 := by omega
    cases r with
    | none =>
      cases h
      have hf := MutexReleases.free (k := k) hl ho hb
      refine ⟨rfl, task, hr, by omega, ?_⟩
      simpa [Objects.setMutex, hl] using hf
    | some t =>
      obtain ⟨hw, rfl⟩ := hr'
      simp only [bind_eq_ok, pure_eq_ok, Prod.mk.injEq] at h
      obtain ⟨k₁, hd, rfl, rfl⟩ := h
      refine ⟨rfl, task, hr, by omega, .grant hl ho hb ?_ ?_⟩
      · simpa [Objects.waitsOn] using hw
      · simpa [Objects.grantMutex, Objects.setMutex, Objects.unlink,
          Objects.setStackedReturn] using hd

end Mutex

section Semaphore
variable {s : SemaphoreId}

def Objects.setTokens (o : Objects) (s : SemaphoreId) (tokens : Nat) : Objects :=
  { o with semaphore := update o.semaphore s { o.semaphore s with tokens := tokens } }

inductive SemaphoreAcquires (k : Kernel) (s : SemaphoreId) (timeout : Nat) (task : TaskId) :
    Kernel → Status → Prop
  | free (ht : (k.semaphore s).tokens > 0) :
    SemaphoreAcquires k s timeout task
      { k with toObjects := k.setTokens s ((k.semaphore s).tokens - 1) } .success
  | busy (ht : (k.semaphore s).tokens = 0) (hz : timeout = 0) :
    SemaphoreAcquires k s timeout task k .errorTo
  | blocks {k' : Kernel} (ht : (k.semaphore s).tokens = 0)
    (hb : block k (.semaphore s) task timeout = .ok k') :
    SemaphoreAcquires k s timeout task k' .errorTo

theorem osiSemaphoreAcquire_cases (h : osiSemaphoreAcquire k s timeout = .ok (k', status)) :
    ∃ task, k.running = some task ∧ SemaphoreAcquires k s timeout task k' status := by
  simp only [osiSemaphoreAcquire, bind_eq_ok, Kernel.self_eq_ok, osAssert_eq_ok] at h
  obtain ⟨task, hr, _, -, h⟩ := h
  refine ⟨task, hr, ?_⟩
  split_ifs at h with ht hz
  · cases h
    exact .free ht
  · cases h
    exact .busy (by omega) hz
  · simp only [bind_eq_ok, pure_eq_ok, Prod.mk.injEq] at h
    obtain ⟨k₁, hb, rfl, rfl⟩ := h
    exact .blocks (by omega) hb

def Objects.grantSemaphore (o : Objects) (s : SemaphoreId) (t : TaskId) : Objects :=
  (o.unlink (.semaphore s) none t).setStackedReturn t Status.success.code

inductive SemaphoreReleases (k : Kernel) (s : SemaphoreId) : Kernel → Prop
  | free (hb : k.blocked (.semaphore s) = none) :
    SemaphoreReleases k s
      { k with toObjects := k.setTokens s (((k.semaphore s).tokens + 1) % 2 ^ 32) }
  | grant {t : TaskId} {k' : Kernel} (hb : k.blocked (.semaphore s) = some t)
    (hw : k.taskSemaphore t = some s)
    (hd : osiDispatchOrQueue { k with toObjects := k.grantSemaphore s t } t = .ok k') :
    SemaphoreReleases k s k'

theorem osiSemaphoreRelease_cases (h : osiSemaphoreRelease k s = .ok (k', status)) :
    status = .success ∧ SemaphoreReleases k s k' := by
  simp only [osiSemaphoreRelease, bind_eq_ok] at h
  obtain ⟨⟨o, r⟩, hd, h⟩ := h
  obtain ⟨hb, hr⟩ := blockedDeq_eq_ok.1 hd
  cases r with
  | none =>
    cases h
    exact ⟨rfl, .free hb⟩
  | some t =>
    obtain ⟨hw, rfl⟩ := hr
    simp only [bind_eq_ok, pure_eq_ok, Prod.mk.injEq] at h
    obtain ⟨k₁, hd, rfl, rfl⟩ := h
    refine ⟨rfl, .grant hb ?_ hd⟩
    simpa [Objects.waitsOn] using hw

end Semaphore

section Queue
variable {q : QueueId} {message : Nat} {r : Option Nat}

def Objects.setQueue (o : Objects) (q : QueueId) (queue : Queue) : Objects :=
  { o with queue := update o.queue q queue }

/-- A message written straight to the first blocked receiver. -/
def Objects.sendQueue (o : Objects) (q : QueueId) (t : TaskId) (message : Nat) : Objects :=
  (o.unlink (.queue q) none t).setStackedTuple t Status.success.code message

theorem blockedDeq_queue_some {o o' : Objects} {t : TaskId}
    (h : blockedDeq o (.queue q) = .ok (o', some t)) :
    o.blocked (.queue q) = some t ∧ o.taskQueue t = some q ∧ o' = o.unlink (.queue q) none t := by
  obtain ⟨hb, hw, ho⟩ := blockedDeq_eq_ok.1 h
  exact ⟨hb, by simpa [Objects.waitsOn] using hw, ho⟩

/-- Messages go straight to a blocked receiver. -/
def Objects.handsOff (o : Objects) (q : QueueId) : Prop :=
  (o.queue q).flags &&& queueOnly = 0 ∧ o.blocked (.queue q) ≠ none ∧
    (o.queue q).status = .blockedReceive

instance (o : Objects) (q : QueueId) : Decidable (o.handsOff q) := by
  unfold Objects.handsOff
  infer_instance

def queueSendBlocked (k : Kernel) (q : QueueId) (message : Nat) : Except Stop Kernel := do
  let (o, blockedReceiver) ← blockedDeq k.toObjects (.queue q)
  match blockedReceiver with
  | none => .error .fault
  | some t =>
    osiDispatchOrQueue { k with
      toObjects := o.setStackedTuple t Status.success.code message } t

def QueueSends (k : Kernel) (q : QueueId) (message : Nat) (k' : Kernel) : Prop :=
  ∃ t, k.blocked (.queue q) = some t ∧ k.taskQueue t = some q ∧
    osiDispatchOrQueue { k with toObjects := k.sendQueue q t message } t = .ok k'

theorem queueSendBlocked_cases (h : queueSendBlocked k q message = .ok k') :
    QueueSends k q message k' := by
  simp only [queueSendBlocked, bind_eq_ok] at h
  obtain ⟨⟨o, r⟩, hd, h⟩ := h
  cases r with
  | none => cases h
  | some t =>
    obtain ⟨hb, hw, rfl⟩ := blockedDeq_queue_some hd
    exact ⟨t, hb, hw, h⟩

def Queue.store (queue : Queue) (message : Nat) : Queue :=
  { queue with
    messages := update queue.messages queue.first message
    number := (queue.number + 1) % 2 ^ 16
    first := queue.next queue.first }

def Objects.storeQueue (o : Objects) (q : QueueId) (message : Nat) : Objects :=
  o.setQueue q ({ o.queue q with status := .fine }.store message)

def Objects.awaitSend (o : Objects) (q : QueueId) (task : TaskId) (message : Nat) : Objects :=
  { o.setQueue q { o.queue q with status := .blockedSend } with c := update o.c task message }

theorem osiQueueEnqueueIsr_eq (k : Kernel) (q : QueueId) (message : Nat) :
    osiQueueEnqueueIsr k q message =
      if k.handsOff q then
        queueSendBlocked k q message >>= fun k => .ok ({ k with pendSv := true }, .success)
      else if (k.queue q).number = (k.queue q).size then .ok (k, .errorMem)
      else .ok ({ k with toObjects := k.storeQueue q message }, .success) := by
  unfold osiQueueEnqueueIsr
  by_cases hh : k.handsOff q
  · refine (if_pos hh).trans (.trans ?_ (if_pos hh).symm)
    rw [queueSendBlocked, bind_assoc]
    apply bind_congr
    rintro ⟨o, r⟩
    cases r <;> rfl
  · exact (if_neg hh).trans (if_neg hh).symm

theorem osiQueueEnqueue_eq {r : TaskId} (hr : k.running = some r) (q : QueueId)
    (message timeout : Nat) : osiQueueEnqueue k q message timeout =
      (osAssert .queueEnqueue (k.nblocked r = none) >>= fun _ =>
        if k.handsOff q then
          queueSendBlocked k q message >>= fun k => .ok (k, .success)
        else if (k.queue q).number = (k.queue q).size then
          if timeout = 0 then .ok (k, .errorMem)
          else
            block { k with toObjects := k.awaitSend q r message } (.queue q) r timeout >>=
              fun k => .ok (k, .errorTo)
        else .ok ({ k with toObjects := k.storeQueue q message }, .success)) := by
  unfold osiQueueEnqueue
  simp only [hr]
  refine bind_congr fun _ => ?_
  by_cases hh : k.handsOff q
  · refine (if_pos hh).trans (.trans ?_ (if_pos hh).symm)
    rw [queueSendBlocked, bind_assoc]
    apply bind_congr
    rintro ⟨o, r⟩
    cases r <;> rfl
  · exact (if_neg hh).trans (if_neg hh).symm

inductive QueueEnqueuesIsr (k : Kernel) (q : QueueId) (message : Nat) : Kernel → Status → Prop
  | send {k' : Kernel} (hh : k.handsOff q) (hs : QueueSends k q message k') :
    QueueEnqueuesIsr k q message { k' with pendSv := true } .success
  | full (hh : ¬ k.handsOff q) (hn : (k.queue q).number = (k.queue q).size) :
    QueueEnqueuesIsr k q message k .errorMem
  | store (hh : ¬ k.handsOff q) (hn : (k.queue q).number ≠ (k.queue q).size) :
    QueueEnqueuesIsr k q message { k with toObjects := k.storeQueue q message } .success

theorem osiQueueEnqueueIsr_cases (h : osiQueueEnqueueIsr k q message = .ok (k', status)) :
    QueueEnqueuesIsr k q message k' status := by
  rw [osiQueueEnqueueIsr_eq] at h
  split_ifs at h with hh hn
  · simp only [bind_eq_ok] at h
    obtain ⟨k₁, hs, h⟩ := h
    cases h
    exact .send hh (queueSendBlocked_cases hs)
  · cases h
    exact .full hh hn
  · cases h
    exact .store hh hn

inductive QueueEnqueues (k : Kernel) (q : QueueId) (message timeout : Nat) (task : TaskId) :
    Kernel → Status → Prop
  | send {k' : Kernel} (hh : k.handsOff q) (hs : QueueSends k q message k') :
    QueueEnqueues k q message timeout task k' .success
  | full (hh : ¬ k.handsOff q) (hn : (k.queue q).number = (k.queue q).size) (ht : timeout = 0) :
    QueueEnqueues k q message timeout task k .errorMem
  | blocks {k' : Kernel} (hh : ¬ k.handsOff q) (hn : (k.queue q).number = (k.queue q).size)
    (hb : block { k with toObjects := k.awaitSend q task message } (.queue q) task timeout =
      .ok k') : QueueEnqueues k q message timeout task k' .errorTo
  | store (hh : ¬ k.handsOff q) (hn : (k.queue q).number ≠ (k.queue q).size) :
    QueueEnqueues k q message timeout task { k with toObjects := k.storeQueue q message } .success

theorem osiQueueEnqueue_cases (h : osiQueueEnqueue k q message timeout = .ok (k', status)) :
    ∃ task, k.running = some task ∧ k.nblocked task = none ∧
      QueueEnqueues k q message timeout task k' status := by
  cases hr : k.running with
  | none =>
    rw [osiQueueEnqueue, hr] at h
    cases h
  | some task =>
    rw [osiQueueEnqueue_eq hr] at h
    simp only [bind_eq_ok, osAssert_eq_ok] at h
    obtain ⟨_, hnb, h⟩ := h
    refine ⟨task, rfl, hnb, ?_⟩
    split_ifs at h with hh hn ht
    · simp only [bind_eq_ok] at h
      obtain ⟨k₁, hs, h⟩ := h
      cases h
      exact .send hh (queueSendBlocked_cases hs)
    · cases h
      exact .full hh hn ht
    · simp only [bind_eq_ok] at h
      obtain ⟨k₁, hb, h⟩ := h
      cases h
      exact .blocks hh hn hb
    · cases h
      exact .store hh hn

def Queue.take (queue : Queue) : Queue :=
  { queue with last := queue.next queue.last, number := queue.number - 1 }

/-- The queue and its first blocked sender `t` when the message of `t` moves to the ring. -/
def Objects.receiveQueue (o : Objects) (q : QueueId) (t : TaskId) : Objects :=
  let o := o.unlink (.queue q) none t
  let o := o.setQueue q ((o.queue q).store (o.c t))
  { o with c := update o.c t 0 }.setStackedTuple t Status.success.code 0

def QueueReceives (k : Kernel) (q : QueueId) (k' : Kernel) : Prop :=
  ∃ t, k.blocked (.queue q) = some t ∧ k.taskQueue t = some q ∧
    osiDispatchOrQueue { k with toObjects := k.receiveQueue q t } t = .ok k'

theorem queueReceiveBlocked_cases (h : queueReceiveBlocked k q = .ok k') :
    QueueReceives k q k' := by
  simp only [queueReceiveBlocked, bind_eq_ok] at h
  obtain ⟨⟨o, r⟩, hd, h⟩ := h
  cases r with
  | none => cases h
  | some t =>
    obtain ⟨hb, hw, rfl⟩ := blockedDeq_queue_some hd
    exact ⟨t, hb, hw, h⟩

inductive QueueDequeues (k : Kernel) (q : QueueId) (timeout : Nat) (task : TaskId) :
    Kernel → Status → Option Nat → Prop
  | take (hn : (k.queue q).number > 0)
    (hb : ¬ (k.blocked (.queue q) ≠ none ∧ (k.queue q).status = .blockedSend)) :
    QueueDequeues k q timeout task { k with toObjects := k.setQueue q (k.queue q).take } .success
      (some ((k.queue q).messages (k.queue q).last))
  | refill {k' : Kernel} (hn : (k.queue q).number > 0)
    (hs : (k.queue q).status = .blockedSend)
    (hr : QueueReceives { k with toObjects := k.setQueue q (k.queue q).take } q k') :
    QueueDequeues k q timeout task k' .success (some ((k.queue q).messages (k.queue q).last))
  | empty (hn : (k.queue q).number = 0) (ht : timeout = 0) :
    QueueDequeues k q timeout task k .errorMem none
  | blocks {k' : Kernel} (hn : (k.queue q).number = 0)
    (hb : block { k with
      toObjects := k.setQueue q { k.queue q with status := .blockedReceive } } (.queue q) task
      timeout = .ok k') : QueueDequeues k q timeout task k' .errorTo none

theorem osiQueueDequeue_cases (h : osiQueueDequeue k q timeout = .ok (k', status, r)) :
    ∃ task, k.running = some task ∧ k.nblocked task = none ∧
      QueueDequeues k q timeout task k' status r := by
  unfold osiQueueDequeue at h
  split at h
  · cases h
  · rename_i task hr
    simp only [bind_eq_ok, osAssert_eq_ok] at h
    obtain ⟨_, hnb, h⟩ := h
    refine ⟨task, hr, hnb, ?_⟩
    split_ifs at h with hn hb ht
    · simp only [bind_eq_ok, pure_eq_ok, Prod.mk.injEq] at h
      obtain ⟨k₁, hs, rfl, rfl, rfl⟩ := h
      exact .refill hn hb.2 (queueReceiveBlocked_cases hs)
    · cases h
      exact .take hn hb
    · cases h
      exact .empty (by omega) ht
    · simp only [bind_eq_ok, pure_eq_ok, Prod.mk.injEq] at h
      obtain ⟨k₁, hb, rfl, rfl, rfl⟩ := h
      exact .blocks (by omega) hb

end Queue

section Rwlock
variable {l : RwlockId} {n : Nat} {head previous : Option TaskId}

def Objects.setRwlock (o : Objects) (l : RwlockId) (rwlock : Rwlock) : Objects :=
  { o with rwlock := update o.rwlock l rwlock }

def Rwlock.addReader (rwlock : Rwlock) : Rwlock :=
  { rwlock with readers := (rwlock.readers + 1) % 2 ^ 16 }

def Rwlock.addWriter (rwlock : Rwlock) (task : TaskId) : Rwlock :=
  { rwlock with writers := (rwlock.writers + 1) % 2 ^ 16, writer := some task }

inductive RwlockAcquiresRead (k : Kernel) (l : RwlockId) (timeout : Nat) (task : TaskId) :
    Kernel → Status → Prop
  | free (hw : (k.rwlock l).writers = 0) :
    RwlockAcquiresRead k l timeout task
      { k with toObjects := k.setRwlock l (k.rwlock l).addReader } .success
  | busy (hw : (k.rwlock l).writers ≠ 0) (ht : timeout = 0) :
    RwlockAcquiresRead k l timeout task k .errorTo
  | blocks {k' : Kernel} (hw : (k.rwlock l).writers ≠ 0)
    (hb : block { k with c := update k.c task desiredRead } (.rwlock l) task timeout = .ok k') :
    RwlockAcquiresRead k l timeout task k' .errorTo

theorem osiRwlockAcquireRead_cases (h : osiRwlockAcquireRead k l timeout = .ok (k', status)) :
    ∃ task, k.running = some task ∧ RwlockAcquiresRead k l timeout task k' status := by
  simp only [osiRwlockAcquireRead, bind_eq_ok, Kernel.self_eq_ok, osAssert_eq_ok] at h
  obtain ⟨task, hr, _, -, h⟩ := h
  refine ⟨task, hr, ?_⟩
  split_ifs at h with hw ht
  · cases h
    exact .free hw
  · cases h
    exact .busy hw ht
  · simp only [bind_eq_ok, pure_eq_ok, Prod.mk.injEq] at h
    obtain ⟨k₁, hb, rfl, rfl⟩ := h
    exact .blocks hw hb

inductive RwlockAcquiresWrite (k : Kernel) (l : RwlockId) (timeout : Nat) (task : TaskId) :
    Kernel → Status → Prop
  | free (hf : (k.rwlock l).readers = 0 ∧ (k.rwlock l).writers = 0) :
    RwlockAcquiresWrite k l timeout task
      { k with toObjects := k.setRwlock l ((k.rwlock l).addWriter task) } .success
  | busy (hf : ¬ ((k.rwlock l).readers = 0 ∧ (k.rwlock l).writers = 0)) (ht : timeout = 0) :
    RwlockAcquiresWrite k l timeout task k .errorTo
  | blocks {k' : Kernel} (hf : ¬ ((k.rwlock l).readers = 0 ∧ (k.rwlock l).writers = 0))
    (hb : block { k with c := update k.c task desiredWrite } (.rwlock l) task timeout = .ok k') :
    RwlockAcquiresWrite k l timeout task k' .errorTo

theorem osiRwlockAcquireWrite_cases (h : osiRwlockAcquireWrite k l timeout = .ok (k', status)) :
    ∃ task, k.running = some task ∧ RwlockAcquiresWrite k l timeout task k' status := by
  simp only [osiRwlockAcquireWrite, bind_eq_ok, Kernel.self_eq_ok, osAssert_eq_ok] at h
  obtain ⟨task, hr, _, -, h⟩ := h
  refine ⟨task, hr, ?_⟩
  split_ifs at h with hf ht
  · cases h
    exact .free hf
  · cases h
    exact .busy hf ht
  · simp only [bind_eq_ok, pure_eq_ok, Prod.mk.injEq] at h
    obtain ⟨k₁, hb, rfl, rfl⟩ := h
    exact .blocks hf hb

def Rwlock.drop (rwlock : Rwlock) : Rwlock :=
  { rwlock with
    readers := rwlock.readers - 1
    writers := rwlock.writers - 1
    writer := if rwlock.writers > 0 then none else rwlock.writer }

theorem Rwlock.drop_eq {rwlock : Rwlock} :
    (if rwlock.writers > 0 then
      { rwlock with
        readers := rwlock.readers - 1
        writer := none
        writers := rwlock.writers - 1 }
      else { rwlock with readers := rwlock.readers - 1 }) = rwlock.drop := by
  unfold Rwlock.drop
  split_ifs with h0
  · rfl
  · have hz : rwlock.writers = 0 := by omega
    simp [hz]

def Objects.grantWrite (o : Objects) (l : RwlockId) (t : TaskId) : Objects :=
  let o := (o.unlink (.rwlock l) none t).setRwlock l ((o.rwlock l).addWriter t)
  { o with c := update o.c t desiredNone }.setStackedReturn t Status.success.code

/-- The lock and the blocked task `t` behind `previous` when `t` becomes a reader. -/
def Objects.grantRead (o : Objects) (l : RwlockId) (previous : Option TaskId) (t : TaskId) :
    Objects :=
  let o := (o.unlink (.rwlock l) previous t).setRwlock l (o.rwlock l).addReader
  { o with c := update o.c t desiredNone }.setStackedReturn t Status.success.code

/-- `t` is the first reader on the way from `head`, and `pre` the tasks before it. -/
structure FirstReader (o : Objects) (head : Option TaskId) (pre : List TaskId) (t : TaskId) :
    Prop where
  path : Segment o.nblocked head pre (some t)
  skipped : ∀ x ∈ pre, o.c x ≠ desiredRead
  reads : o.c t = desiredRead

theorem FirstReader.mem {o : Objects} {head : Option TaskId} {pre m : List TaskId}
    (h : FirstReader o head pre t) (hm : Chain o.nblocked head m) : t ∈ m := by
  induction pre generalizing head m with
  | nil =>
    obtain rfl : head = some t := h.path
    obtain ⟨m', rfl, -⟩ := chain_some.1 hm
    exact List.mem_cons_self
  | cons x pre ih =>
    obtain ⟨rfl, hp⟩ := h.path
    obtain ⟨m', rfl, hm'⟩ := chain_some.1 hm
    refine List.mem_cons_of_mem _ (ih ⟨hp, fun y hy => ?_, h.reads⟩ hm')
    exact h.skipped y (List.mem_cons_of_mem _ hy)

theorem FirstReader.unique {o : Objects} {head : Option TaskId} {pre pre' : List TaskId}
    {t' : TaskId} (h : FirstReader o head pre t) (h' : FirstReader o head pre' t') : t = t' := by
  induction pre generalizing head pre' with
  | nil =>
    obtain rfl : head = some t := h.path
    cases pre' with
    | nil => exact Option.some.inj h'.path
    | cons x pre' =>
      cases h'.path.1
      exact absurd h.reads (h'.skipped t List.mem_cons_self)
  | cons x pre ih =>
    obtain ⟨rfl, hp⟩ := h.path
    cases pre' with
    | nil =>
      cases h'.path
      exact absurd h'.reads (h.skipped t' List.mem_cons_self)
    | cons y pre' =>
      obtain ⟨hxy, hp'⟩ := h'.path
      cases hxy
      exact ih ⟨hp, fun z hz => h.skipped z (List.mem_cons_of_mem _ hz), h.reads⟩
        ⟨hp', fun z hz => h'.skipped z (List.mem_cons_of_mem _ hz), h'.reads⟩

/-- Clearing the link of the reader that was let in ends the walk. -/
theorem grantReadersLoop_cases {p : List TaskId}
    (h : grantReadersLoop l n k p.getLast? head = .ok k') :
    (∃ pre, Chain k.nblocked head pre ∧ (∀ x ∈ pre, k.c x ≠ desiredRead) ∧ k' = k) ∨
    ∃ pre t s, FirstReader k.toObjects head pre t ∧
      osiTaskStatusSet k.toSched t .idle = .ok s ∧
      k' = { toSched := s, toObjects := k.grantRead l (p ++ pre).getLast? t } := by
  induction n generalizing head p with
  | zero =>
    cases head with
    | none => cases h; exact .inl ⟨[], rfl, by simp, rfl⟩
    | some t => cases h
  | succ n ih =>
    cases head with
    | none => cases h; exact .inl ⟨[], rfl, by simp, rfl⟩
    | some t =>
      unfold grantReadersLoop at h
      split_ifs at h with hc
      · simp only [bind_eq_ok] at h
        obtain ⟨s, hs, h⟩ := h
        refine .inr ⟨[], t, s, ⟨rfl, by simp, hc⟩, hs, ?_⟩
        rw [List.append_nil]
        generalize p.getLast? = previous at h
        have hend (k₁ : Kernel) (h : grantReadersLoop l n k₁ previous none = .ok k') : k' = k₁ := by
          cases n <;> exact (Except.ok.inj h).symm
        cases previous with
        | none =>
          simp only [Objects.setStackedReturn, Function.update_self] at h
          rw [hend _ h]
          rfl
        | some p =>
          simp only [Objects.setStackedReturn, Function.update_self] at h
          rw [hend _ h]
          simp [Objects.grantRead, Objects.unlink, setLink, Objects.setRwlock,
            Objects.setStackedReturn, Rwlock.addReader]
      · have h' : grantReadersLoop l n k (p ++ [t]).getLast? (k.nblocked t) = .ok k' := by
          simpa using h
        rcases ih h' with ⟨pre, hp, hx, rfl⟩ | ⟨pre, t', s, hf, hs, rfl⟩
        · exact .inl ⟨t :: pre, ⟨rfl, hp⟩, by simpa [hc] using hx, rfl⟩
        · refine .inr ⟨t :: pre, t', s, ⟨⟨rfl, hf.path⟩, by simpa [hc] using hf.skipped, hf.reads⟩,
            hs, ?_⟩
          simp

/-- The writer that a release hands the lock over to: the first blocked task, if it wants to write
and the caller is the last reader. -/
def Objects.nextWriter (o : Objects) (l : RwlockId) : Option TaskId :=
  (o.blocked (.rwlock l)).filter fun t => (o.rwlock l).readers - 1 = 0 ∧ o.c t = desiredWrite

theorem Objects.nextWriter_eq_some :
    o.nextWriter l = some t ↔ o.blocked (.rwlock l) = some t ∧
      (o.rwlock l).readers - 1 = 0 ∧ o.c t = desiredWrite := by
  simp [Objects.nextWriter, Option.filter_eq_some_iff]

def Objects.dropRwlock (o : Objects) (l : RwlockId) : Objects :=
  o.setRwlock l (o.rwlock l).drop

inductive RwlockReleases (k : Kernel) (l : RwlockId) : Kernel → Prop
  | free (hb : k.blocked (.rwlock l) = none) :
    RwlockReleases k l { k with toObjects := k.dropRwlock l }
  | write {t : TaskId} {k' : Kernel} (hw : k.nextWriter l = some t)
    (hd : osiDispatchOrQueue { k with toObjects := (k.dropRwlock l).grantWrite l t } t =
      .ok k') : RwlockReleases k l k'
  | read {pre : List TaskId} {t : TaskId} {s : Sched} (hw : k.nextWriter l = none)
    (hf : FirstReader k.toObjects (k.blocked (.rwlock l)) pre t)
    (hs : osiTaskStatusSet k.toSched t .idle = .ok s) :
    RwlockReleases k l
      { toSched := s, toObjects := (k.dropRwlock l).grantRead l pre.getLast? t }
  | skip {pre : List TaskId} (hw : k.nextWriter l = none) (hb : k.blocked (.rwlock l) ≠ none)
    (hp : Chain k.nblocked (k.blocked (.rwlock l)) pre) (hx : ∀ x ∈ pre, k.c x ≠ desiredRead) :
    RwlockReleases k l { k with toObjects := k.dropRwlock l }

theorem osiRwlockRelease_cases (h : osiRwlockRelease k l = .ok (k', status)) :
    status = .success ∧ ∃ task, k.running = some task ∧
      ((k.rwlock l).readers > 0 ∨ (k.rwlock l).writers = 1) ∧
      ((k.rwlock l).writers > 0 → (k.rwlock l).writer = some task) ∧ RwlockReleases k l k' := by
  simp only [osiRwlockRelease, bind_eq_ok, Kernel.self_eq_ok, osAssert_eq_ok] at h
  obtain ⟨task, hr, _, hl, _, hw, h⟩ := h
  have hk : ({ k with rwlock := update k.rwlock l (k.rwlock l).drop } : Kernel) =
      { k with toObjects := k.dropRwlock l } := rfl
  simp only [Rwlock.drop_eq, hk] at h
  cases hb : k.blocked (.rwlock l) with
  | none =>
    simp only [hb] at h
    cases h
    exact ⟨rfl, task, hr, hl, hw, .free hb⟩
  | some t =>
    simp only [hb] at h
    split_ifs at h with hg <;> simp only [bind_eq_ok, pure_eq_ok, Prod.mk.injEq] at h
    · obtain ⟨k₁, hd, rfl, rfl⟩ := h
      exact ⟨rfl, task, hr, hl, hw, .write (Objects.nextWriter_eq_some.2 ⟨hb, hg⟩) hd⟩
    · obtain ⟨k₁, hd, rfl, rfl⟩ := h
      have hn : k.nextWriter l = none := by
        refine Option.eq_none_iff_forall_ne_some.2 fun t' ht' => hg ?_
        obtain ⟨hb', hg'⟩ := Objects.nextWriter_eq_some.1 ht'
        rw [Option.some.inj (hb.symm.trans hb')]
        exact hg'
      refine ⟨rfl, task, hr, hl, hw, ?_⟩
      rcases grantReadersLoop_cases (p := []) hd with ⟨pre, hp, hx, rfl⟩ |
        ⟨pre, t', s, hf, hs, rfl⟩
      · exact .skip hn (by simp [hb]) (hb ▸ hp) hx
      · exact .read hn ⟨hb ▸ hf.path, hf.skipped, hf.reads⟩ hs

end Rwlock

end Osh
