import Osh.CallSpec

namespace Osh
open Function (update)
open Lib

variable {k k' : Kernel} {t : TaskId} {o : Objects} {l : RwlockId} {a : Act} {call : Svc}

def Svc.target : Svc → Option Waitable
  | .delay _ | .abort => none
  | .mutexAcquire m _ | .mutexRelease m => some (.mutex m)
  | .semaphoreAcquire s _ | .semaphoreRelease s => some (.semaphore s)
  | .queueEnqueue q _ _ | .queueDequeue q _ => some (.queue q)
  | .rwlockAcquireRead l _ | .rwlockAcquireWrite l _ | .rwlockRelease l => some (.rwlock l)

def Act.target : Act → Option Waitable
  | .svc call => call.target
  | .enqueueIsr q _ => some (.queue q)
  | _ => none

def Act.isCall : Act → Bool
  | .svc _ => true
  | _ => false

theorem Act.Enabled.of_call {a : Act} (he : a.Enabled k) (hc : a.isCall) : k.scheduled = none := by
  cases a with
  | svc call => exact he
  | _ => cases hc

def Act.usesRwlock : Act → Bool
  | .svc (.rwlockAcquireRead _ _) | .svc (.rwlockAcquireWrite _ _) | .svc (.rwlockRelease _) =>
    true
  | _ => false

def Act.suspends : Act → Bool
  | .taskSuspend _ | .taskResume _ => true
  | _ => false

def Act.restarts : Act → Bool
  | .taskStart _ _ _ => true
  | _ => false

/-- The task that a call passes to `osi_dispatch_or_queue`. -/
def Svc.grantee (o : Objects) : Svc → Option TaskId
  | .mutexRelease m => if (o.mutex m).level = 1 then o.blocked (.mutex m) else none
  | .semaphoreRelease s => o.blocked (.semaphore s)
  | .queueEnqueue q _ _ => if o.handsOff q then o.blocked (.queue q) else none
  | .queueDequeue q _ =>
    if (o.queue q).number > 0 ∧ (o.queue q).status = .blockedSend then o.blocked (.queue q)
    else none
  | .rwlockRelease l => o.nextWriter l
  | _ => none

def Act.grantee (o : Objects) : Act → Option TaskId
  | .svc call => call.grantee o
  | .enqueueIsr q _ => if o.handsOff q then o.blocked (.queue q) else none
  | _ => none

/-- `t` is the reader that an action makes runnable without looking at its status. -/
def Act.GrantsReader (o : Objects) (t : TaskId) : Act → Prop
  | .svc (.rwlockRelease l) =>
    o.nextWriter l = none ∧ ∃ pre, FirstReader o (o.blocked (.rwlock l)) pre t
  | _ => False

/-- What an action does to the fields that the scheduler works on. -/
inductive SchedEffect (k k' : Kernel) : Act → Prop
  | keep {a : Act} (h : k'.toSched = { k.toSched with pendSv := k'.pendSv }) : SchedEffect k k' a
  | sleep {call : Svc} {ms : Nat} {o : Objects} {k₁ : Kernel}
    (h : svcDelay { k with toObjects := o } ms = .ok k₁) (hs : k'.toSched = k₁.toSched) :
    SchedEffect k k' (.svc call)
  | abort {k₁ : Kernel} (h : svcAbort k = .ok k₁) (hs : k'.toSched = k₁.toSched) :
    SchedEffect k k' (.svc .abort)
  | grant {a : Act} {t : TaskId} {o : Objects} {k₁ : Kernel}
    (ht : a.grantee k.toObjects = some t)
    (h : osiDispatchOrQueue { k with toObjects := o } t = .ok k₁)
    (hs : k'.toSched = { k₁.toSched with pendSv := k'.pendSv }) : SchedEffect k k' a
  | read {a : Act} {t : TaskId} (ht : a.GrantsReader k.toObjects t)
    (h : osiTaskStatusSet k.toSched t .idle = .ok k'.toSched) : SchedEffect k k' a
  | finish (h : taskFinished k.toSched = .ok k'.toSched) : SchedEffect k k' .taskFinished
  | start {t : TaskId} {priority params : Nat}
    (h : osTaskStartOptions k t priority params = .ok k') :
    SchedEffect k k' (.taskStart t priority params)
  | suspend {t : TaskId} (h : osTaskSuspend k.toSched t = .ok k'.toSched) :
    SchedEffect k k' (.taskSuspend t)
  | resume {t : TaskId} (h : osTaskResume k.toSched t = .ok k'.toSched) :
    SchedEffect k k' (.taskResume t)
  | schedule {a : Act} (h : osiSchedule k = .ok k') : SchedEffect k k' a
  | contextSwitch
    (h : k'.toSched =
      { k.toSched with running := k.scheduled, scheduled := none, pendSv := false }) :
    SchedEffect k k' .contextSwitch
  | clock {uptime micros : Nat}
    (h : k'.toSched = { k.toSched with uptime := uptime % 2 ^ 32, micros := micros % 2 ^ 32 }) :
    SchedEffect k k' (.clock uptime micros)

theorem SchedEffect.block {w : Waitable} {task : TaskId} {timeout : Nat} {o : Objects}
    {k₁ : Kernel} (hr : k.running = some task)
    (h : block { k with toObjects := o } w task timeout = .ok k₁)
    (hs : k'.toSched = k₁.toSched) : SchedEffect k k' (.svc call) := by
  obtain ⟨o', -, hd⟩ := (block_eq_ok (k := { k with toObjects := o }) hr).1 h
  exact .sleep hd hs

theorem SchedEffect.send {q : QueueId} {message : Nat} {k₁ : Kernel} (hh : k.handsOff q)
    (h : QueueSends k q message k₁)
    (ha : a.grantee k.toObjects = if k.handsOff q then k.blocked (.queue q) else none)
    (hs : k'.toSched = { k₁.toSched with pendSv := k'.pendSv }) : SchedEffect k k' a := by
  obtain ⟨t, hb, -, hd⟩ := h
  exact .grant (by rw [ha, if_pos hh, hb]) hd hs

/-- The call takes the caller `t` off the processor: it ends the task or puts it to sleep. -/
def Svc.Leaves (o : Objects) (t : TaskId) : Svc → Prop
  | .delay _ | .abort => True
  | .mutexAcquire m timeout =>
    (o.mutex m).level ≠ 0 ∧ (o.mutex m).owner ≠ some t ∧ timeout ≠ 0
  | .semaphoreAcquire s timeout => (o.semaphore s).tokens = 0 ∧ timeout ≠ 0
  | .queueEnqueue q _ timeout =>
    ¬ o.handsOff q ∧ (o.queue q).number = (o.queue q).size ∧ timeout ≠ 0
  | .queueDequeue q timeout => (o.queue q).number = 0 ∧ timeout ≠ 0
  | .rwlockAcquireRead l timeout => (o.rwlock l).writers ≠ 0 ∧ timeout ≠ 0
  | .rwlockAcquireWrite l timeout =>
    ¬ ((o.rwlock l).readers = 0 ∧ (o.rwlock l).writers = 0) ∧ timeout ≠ 0
  | _ => False

section Tries
variable {status : Status}

theorem osiMutexAcquire_try {m : MutexId} (h : osiMutexAcquire k m 0 = .ok (k', status)) :
    k'.toSched = k.toSched := by
  simp only [osiMutexAcquire, bind_eq_ok, if_true] at h
  obtain ⟨task, -, _, -, h⟩ := h
  split_ifs at h <;> cases h <;> rfl

theorem osiSemaphoreAcquire_try {s : SemaphoreId}
    (h : osiSemaphoreAcquire k s 0 = .ok (k', status)) : k'.toSched = k.toSched := by
  simp only [osiSemaphoreAcquire, bind_eq_ok, if_true] at h
  obtain ⟨task, -, _, -, h⟩ := h
  split_ifs at h <;> cases h <;> rfl

theorem osiRwlockAcquireRead_try {l : RwlockId}
    (h : osiRwlockAcquireRead k l 0 = .ok (k', status)) : k'.toSched = k.toSched := by
  simp only [osiRwlockAcquireRead, bind_eq_ok, if_true] at h
  obtain ⟨task, -, _, -, h⟩ := h
  split_ifs at h <;> cases h <;> rfl

theorem osiRwlockAcquireWrite_try {l : RwlockId}
    (h : osiRwlockAcquireWrite k l 0 = .ok (k', status)) : k'.toSched = k.toSched := by
  simp only [osiRwlockAcquireWrite, bind_eq_ok, if_true] at h
  obtain ⟨task, -, _, -, h⟩ := h
  split_ifs at h <;> cases h <;> rfl

theorem osiQueueEnqueue_try {q : QueueId} {message : Nat} (hh : ¬ k.handsOff q)
    (h : osiQueueEnqueue k q message 0 = .ok (k', status)) : k'.toSched = k.toSched := by
  cases hr : k.running with
  | none =>
    rw [osiQueueEnqueue, hr] at h
    cases h
  | some r =>
    rw [osiQueueEnqueue_eq hr] at h
    simp only [bind_eq_ok, if_neg hh, if_true] at h
    obtain ⟨_, -, h⟩ := h
    split_ifs at h <;> cases h <;> rfl

theorem osiQueueDequeue_try {q : QueueId} {r : Option Nat} (hn : (k.queue q).number = 0)
    (h : osiQueueDequeue k q 0 = .ok (k', status, r)) : k'.toSched = k.toSched := by
  unfold osiQueueDequeue at h
  split at h
  · cases h
  · simp only [bind_eq_ok, hn, gt_iff_lt, Nat.lt_irrefl, if_false, if_true] at h
    obtain ⟨_, -, h⟩ := h
    cases h
    rfl

end Tries

inductive CallEffect (k k₁ : Kernel) (t : TaskId) (call : Svc) : Prop
  | leaves {o : Objects} {w : Waitable} {timeout : Nat} (hl : call.Leaves k.toObjects t)
    (h : block { k with toObjects := o } w t timeout = .ok k₁) : CallEffect k k₁ t call
  | delay {ms : Nat} (hc : call = .delay ms) (h : svcDelay k ms = .ok k₁) : CallEffect k k₁ t call
  | abort (hc : call = .abort) (h : svcAbort k = .ok k₁) : CallEffect k k₁ t call
  | keep (hl : ¬ call.Leaves k.toObjects t) (h : k₁.toSched = k.toSched) : CallEffect k k₁ t call
  | grant {x : TaskId} {o : Objects} (hl : ¬ call.Leaves k.toObjects t)
    (hx : call.grantee k.toObjects = some x)
    (h : osiDispatchOrQueue { k with toObjects := o } x = .ok k₁)
    (hp : SamePointers k.toObjects o) : CallEffect k k₁ t call
  | read {x : TaskId} (hl : ¬ call.Leaves k.toObjects t)
    (hx : (Act.svc call).GrantsReader k.toObjects x)
    (h : osiTaskStatusSet k.toSched x .idle = .ok k₁.toSched) : CallEffect k k₁ t call

theorem Svc.call_cases {k₁ : Kernel} {status : Status} {value : Option Nat}
    (h : call.call k = .ok (k₁, status, value)) (hr : k.running = some t) :
    CallEffect k k₁ t call := by
  have htask {task : TaskId} (hr' : k.running = some task) : task = t :=
    Option.some.inj (hr'.symm.trans hr)
  cases call <;> simp only [Svc.call, bind_eq_ok, pure_eq_ok, Prod.mk.injEq, Prod.exists] at h
  case delay ms =>
    obtain ⟨k₂, h, rfl, -⟩ := h
    exact .delay rfl h
  case abort =>
    obtain ⟨k₂, h, rfl, -⟩ := h
    exact .abort rfl h
  case mutexAcquire m timeout =>
    obtain ⟨k₂, st, h, rfl, -⟩ := h
    obtain ⟨task, hr', hc⟩ := osiMutexAcquire_cases h
    obtain rfl := htask hr'
    cases hc with
    | free hl => exact .keep (fun hw => hw.1 hl) rfl
    | again _ ho | full _ ho => exact .keep (fun hw => hw.2.1 ho) rfl
    | busy _ _ ht => exact .keep (fun hw => hw.2.2 ht) rfl
    | blocks hl ho hb =>
      by_cases ht : timeout = 0
      · subst ht
        exact .keep (fun hw => hw.2.2 rfl) (osiMutexAcquire_try h)
      · exact .leaves ⟨hl, ho, ht⟩ hb
  case mutexRelease m =>
    obtain ⟨k₂, st, h, rfl, -⟩ := h
    obtain ⟨-, task, -, -, hc⟩ := osiMutexRelease_cases h
    cases hc with
    | grant hl _ hb _ hd =>
      exact .grant id (by simp only [Svc.grantee, if_pos hl, hb]) hd ⟨rfl, rfl, rfl, rfl, rfl⟩
    | _ => exact .keep id rfl
  case semaphoreAcquire s timeout =>
    obtain ⟨k₂, st, h, rfl, -⟩ := h
    obtain ⟨task, hr', hc⟩ := osiSemaphoreAcquire_cases h
    obtain rfl := htask hr'
    cases hc with
    | free hz => exact .keep (fun hw => by have := hw.1; omega) rfl
    | busy _ ht => exact .keep (fun hw => hw.2 ht) rfl
    | blocks hz hb =>
      by_cases ht : timeout = 0
      · subst ht
        exact .keep (fun hw => hw.2 rfl) (osiSemaphoreAcquire_try h)
      · exact .leaves ⟨hz, ht⟩ hb
  case semaphoreRelease s =>
    obtain ⟨k₂, st, h, rfl, -⟩ := h
    obtain ⟨-, hc⟩ := osiSemaphoreRelease_cases h
    cases hc with
    | grant hb _ hd => exact .grant id hb hd ⟨rfl, rfl, rfl, rfl, rfl⟩
    | _ => exact .keep id rfl
  case queueEnqueue q message timeout =>
    obtain ⟨k₂, st, h, rfl, -⟩ := h
    obtain ⟨task, hr', -, hc⟩ := osiQueueEnqueue_cases h
    obtain rfl := htask hr'
    cases hc with
    | send hh hs =>
      obtain ⟨x, hb, -, hd⟩ := hs
      exact .grant (fun hw => hw.1 hh) (by simp only [Svc.grantee, if_pos hh, hb]) hd
        ⟨rfl, rfl, rfl, rfl, rfl⟩
    | full _ _ ht => exact .keep (fun hw => hw.2.2 ht) rfl
    | store _ hn => exact .keep (fun hw => hn hw.2.1) rfl
    | blocks hh hn hb =>
      by_cases ht : timeout = 0
      · subst ht
        exact .keep (fun hw => hw.2.2 rfl) (osiQueueEnqueue_try hh h)
      · exact .leaves ⟨hh, hn, ht⟩ hb
  case queueDequeue q timeout =>
    obtain ⟨k₂, st, r, h, rfl, -⟩ := h
    obtain ⟨task, hr', -, hc⟩ := osiQueueDequeue_cases h
    obtain rfl := htask hr'
    cases hc with
    | take hn => exact .keep (fun hw => by have := hw.1; omega) rfl
    | refill hn hst hrec =>
      obtain ⟨x, hb, -, hd⟩ := hrec
      refine .grant (fun hw => ?_) ?_ hd ⟨rfl, rfl, rfl, rfl, rfl⟩
      · have := hw.1
        omega
      · simp only [Svc.grantee, if_pos (And.intro hn hst)]
        exact hb
    | empty _ ht => exact .keep (fun hw => hw.2 ht) rfl
    | blocks hn hb =>
      by_cases ht : timeout = 0
      · subst ht
        exact .keep (fun hw => hw.2 rfl) (osiQueueDequeue_try hn h)
      · exact .leaves ⟨hn, ht⟩ hb
  case rwlockAcquireRead l timeout =>
    obtain ⟨k₂, st, h, rfl, -⟩ := h
    obtain ⟨task, hr', hc⟩ := osiRwlockAcquireRead_cases h
    obtain rfl := htask hr'
    cases hc with
    | free hz => exact .keep (fun hw => hw.1 hz) rfl
    | busy _ ht => exact .keep (fun hw => hw.2 ht) rfl
    | blocks hz hb =>
      by_cases ht : timeout = 0
      · subst ht
        exact .keep (fun hw => hw.2 rfl) (osiRwlockAcquireRead_try h)
      · exact .leaves ⟨hz, ht⟩ hb
  case rwlockAcquireWrite l timeout =>
    obtain ⟨k₂, st, h, rfl, -⟩ := h
    obtain ⟨task, hr', hc⟩ := osiRwlockAcquireWrite_cases h
    obtain rfl := htask hr'
    cases hc with
    | free hz => exact .keep (fun hw => hw.1 hz) rfl
    | busy _ ht => exact .keep (fun hw => hw.2 ht) rfl
    | blocks hz hb =>
      by_cases ht : timeout = 0
      · subst ht
        exact .keep (fun hw => hw.2 rfl) (osiRwlockAcquireWrite_try h)
      · exact .leaves ⟨hz, ht⟩ hb
  case rwlockRelease l =>
    obtain ⟨k₂, st, h, rfl, -⟩ := h
    obtain ⟨-, task, -, -, -, hc⟩ := osiRwlockRelease_cases h
    cases hc with
    | write hw hd => exact .grant id hw hd ⟨rfl, rfl, rfl, rfl, rfl⟩
    | read hw hf hset => exact .read id ⟨hw, _, hf⟩ hset
    | _ => exact .keep id rfl

theorem Svc.call_effect {k₁ : Kernel} {status : Status} {value : Option Nat}
    (h : call.call k = .ok (k₁, status, value)) (hr : k.running = some t)
    (hs : k'.toSched = k₁.toSched) :
    SchedEffect k k' (.svc call) := by
  have hs' : k'.toSched = { k₁.toSched with pendSv := k'.pendSv } := by rw [hs]
  cases Svc.call_cases h hr with
  | leaves _ hb => exact .block hr hb hs
  | delay hc hd => exact .sleep hd hs
  | abort hc ha =>
    subst hc
    exact .abort ha hs
  | keep _ hk => exact .keep (by rw [hs', hk])
  | grant _ hx hd => exact .grant hx hd hs'
  | read _ hx hset => exact .read hx (hset.trans (congrArg _ hs.symm))

/-- Every step of the machine has one of these effects. -/
theorem Act.run_effect (h : a.run k = .ok k') : SchedEffect k k' a := by
  cases a <;> simp only [Act.run, bind_eq_ok, pure_eq_ok] at h
  case svc call =>
    simp only [svcHandler, bind_eq_ok, pure_eq_ok, Prod.exists] at h
    obtain ⟨caller, hr, k₁, status, value, h, rfl⟩ := h
    exact Svc.call_effect h (Kernel.self_eq_ok.1 hr) rfl
  case taskFinished =>
    obtain ⟨s, h, rfl⟩ := h
    exact .finish h
  case taskStart t priority params => exact .start h
  case taskSuspend t =>
    obtain ⟨s, h, rfl⟩ := h
    exact .suspend h
  case taskResume t =>
    obtain ⟨s, h, rfl⟩ := h
    exact .resume h
  case systick =>
    unfold osiIrsSystick at h
    split_ifs at h
    · exact .schedule h
    · cases h
      exact .keep rfl
  case schedule => exact .schedule h
  case enqueueIsr q message =>
    simp only [Prod.exists] at h
    obtain ⟨k₁, status, h, rfl⟩ := h
    cases osiQueueEnqueueIsr_cases h with
    | send hh hs => exact .send hh hs rfl rfl
    | _ => exact .keep rfl
  case contextSwitch =>
    cases h
    exact .contextSwitch rfl
  case clock uptime micros =>
    cases h
    exact .clock rfl

/-- A call that hands something over to a task passes it to `osi_dispatch_or_queue`. Only `rwlock.c`
does not look whether the task still points to the object. -/
theorem Svc.call_grant {k₁ : Kernel} {status : Status} {value : Option Nat}
    (h : call.call k = .ok (k₁, status, value)) (ht : call.grantee k.toObjects = some t) :
    (∃ o, osiDispatchOrQueue { k with toObjects := o } t = .ok k₁) ∧
    (¬ (Act.svc call).usesRwlock → ∃ w, call.target = some w ∧ k.waitsOn w t = some w) := by
  cases call <;> simp only [Svc.call, bind_eq_ok, pure_eq_ok, Prod.mk.injEq, Prod.exists] at h <;>
    simp only [Svc.grantee, reduceCtorEq] at ht
  case mutexRelease m =>
    obtain ⟨k₂, st, h, rfl, -⟩ := h
    obtain ⟨-, task, -, -, hc⟩ := osiMutexRelease_cases h
    split_ifs at ht with hl
    cases hc with
    | nested hl' => exact absurd hl hl'
    | free _ _ hb => rw [hb] at ht; cases ht
    | grant _ _ hb hw hd =>
      cases hb.symm.trans ht
      exact ⟨⟨_, hd⟩, fun _ => ⟨.mutex m, rfl, by simp [hw]⟩⟩
  case semaphoreRelease s =>
    obtain ⟨k₂, st, h, rfl, -⟩ := h
    obtain ⟨-, hc⟩ := osiSemaphoreRelease_cases h
    cases hc with
    | free hb => rw [hb] at ht; cases ht
    | grant hb hw hd =>
      cases hb.symm.trans ht
      exact ⟨⟨_, hd⟩, fun _ => ⟨.semaphore s, rfl, by simp [hw]⟩⟩
  case queueEnqueue q message timeout =>
    obtain ⟨k₂, st, h, rfl, -⟩ := h
    obtain ⟨task, -, -, hc⟩ := osiQueueEnqueue_cases h
    split_ifs at ht with hh
    cases hc with
    | send _ hs =>
      obtain ⟨t', hb, hw, hd⟩ := hs
      cases hb.symm.trans ht
      exact ⟨⟨_, hd⟩, fun _ => ⟨.queue q, rfl, by simp [hw]⟩⟩
    | full hh' | blocks hh' | store hh' => exact absurd hh hh'
  case queueDequeue q timeout =>
    obtain ⟨k₂, st, r, h, rfl, -⟩ := h
    obtain ⟨task, -, -, hc⟩ := osiQueueDequeue_cases h
    split_ifs at ht with hn
    cases hc with
    | take _ hb => exact absurd ⟨by rw [ht]; simp, hn.2⟩ hb
    | refill _ _ hr =>
      obtain ⟨t', hb, hw, hd⟩ := hr
      cases hb.symm.trans ht
      have hw' : k.taskQueue t = some q := hw
      exact ⟨⟨_, hd⟩, fun _ => ⟨.queue q, rfl, by simp [hw']⟩⟩
    | empty hz | blocks hz => omega
  case rwlockRelease l =>
    obtain ⟨k₂, st, h, rfl, -⟩ := h
    obtain ⟨-, task, -, -, -, hc⟩ := osiRwlockRelease_cases h
    cases hc with
    | free hb => rw [(Objects.nextWriter_eq_some.1 ht).1] at hb; cases hb
    | write hw hd =>
      cases hw.symm.trans ht
      exact ⟨⟨_, hd⟩, fun h => absurd rfl h⟩
    | read hw | skip hw => rw [hw] at ht; cases ht

theorem Act.run_grant (h : a.run k = .ok k') (ht : a.grantee k.toObjects = some t) :
    (∃ o k₁, osiDispatchOrQueue { k with toObjects := o } t = .ok k₁ ∧
      k'.toSched = { k₁.toSched with pendSv := k'.pendSv }) ∧
    (¬ a.usesRwlock → ∃ w, a.target = some w ∧ k.waitsOn w t = some w) := by
  cases a with
  | svc call =>
    simp only [Act.run, svcHandler, bind_eq_ok, pure_eq_ok, Prod.exists] at h
    obtain ⟨caller, -, k₁, status, value, h, rfl⟩ := h
    obtain ⟨⟨o, hd⟩, hw⟩ := Svc.call_grant h ht
    exact ⟨⟨o, k₁, hd, rfl⟩, hw⟩
  | enqueueIsr q message =>
    simp only [Act.run, bind_eq_ok, pure_eq_ok, Prod.exists] at h
    obtain ⟨k₁, status, h, rfl⟩ := h
    simp only [Act.grantee] at ht
    split_ifs at ht with hh
    cases osiQueueEnqueueIsr_cases h with
    | send _ hs =>
      obtain ⟨t', hb, hw, hd⟩ := hs
      cases hb.symm.trans ht
      exact ⟨⟨_, _, hd, rfl⟩, fun _ => ⟨.queue q, rfl, by simp [hw]⟩⟩
    | full hh' | store hh' => exact absurd hh hh'
  | _ => cases ht

theorem Svc.grantee_of_leaves (h : call.Leaves o t) : call.grantee o = none := by
  cases call <;> first | rfl | exact h.elim | skip
  case queueEnqueue q message timeout => exact if_neg h.1
  case queueDequeue q timeout =>
    apply if_neg
    intro hn
    have := h.1
    omega

theorem Act.not_grantsReader_of_grantee {x : TaskId} (hx : a.grantee o = some x) :
    ¬ a.GrantsReader o t := by
  intro h
  cases a with
  | svc call =>
    cases call with
    | rwlockRelease l => cases h.1.symm.trans hx
    | _ => exact h.elim
  | _ => exact h.elim

theorem Act.grantsReader_unique {x : TaskId} (hx : a.GrantsReader o x)
    (ht : a.GrantsReader o t) : x = t := by
  cases a with
  | svc call =>
    cases call with
    | rwlockRelease l =>
      obtain ⟨-, _, hx⟩ := hx
      obtain ⟨-, _, ht⟩ := ht
      exact hx.unique ht
    | _ => exact hx.elim
  | _ => exact hx.elim

theorem Act.run_read (h : a.run k = .ok k') (ht : a.GrantsReader k.toObjects t) :
    osiTaskStatusSet k.toSched t .idle = .ok k'.toSched := by
  cases a with
  | svc call =>
    cases call with
    | rwlockRelease l =>
      simp only [Act.run, svcHandler, Svc.call, bind_eq_ok, pure_eq_ok, Prod.exists,
        Prod.mk.injEq] at h
      obtain ⟨caller, -, k₁, status, value, ⟨k₂, st, h, rfl, -⟩, rfl⟩ := h
      obtain ⟨hw, pre, hf⟩ := ht
      obtain ⟨-, task, -, -, -, hc⟩ := osiRwlockRelease_cases h
      cases hc with
      | free hb =>
        exact absurd (hf.mem (m := []) (by rw [hb]; rfl)) (by simp)
      | write hw' => cases hw.symm.trans hw'
      | read _ hf' hset =>
        cases hf.unique hf'
        exact hset
      | skip _ _ hp hx => exact absurd hf.reads (hx t (hf.mem hp))
    | _ => exact ht.elim
  | _ => exact ht.elim

end Osh
