import Osh.DispatchSpec
import Osh.FixedRun

namespace Osh
open Function (update)
open Lib

variable {k k' k₀ k₁ : Kernel} {s s' : Sched} {o : Objects} {t x r : TaskId} {w : Waitable}
  {a : Act} {L : Waitable → List TaskId} {ms : Nat}

/-- A step calls `osi_dispatch_or_queue` for `t` with the objects `o`. -/
inductive HandsOver (k : Kernel) : Act → TaskId → Objects → Prop
  | mutex {m : MutexId} {r t : TaskId} (hr : k.running = some r) (ho : (k.mutex m).owner = some r)
    (hl : (k.mutex m).level = 1) (hb : k.blocked (.mutex m) = some t)
    (hp : k.taskMutex r = none) (hw : k.taskMutex t = some m) :
    HandsOver k (.svc (.mutexRelease m)) t (k.grantMutex m t)
  | semaphore {s : SemaphoreId} {r t : TaskId} (hr : k.running = some r)
    (hb : k.blocked (.semaphore s) = some t) (hw : k.taskSemaphore t = some s) :
    HandsOver k (.svc (.semaphoreRelease s)) t (k.grantSemaphore s t)
  | send {q : QueueId} {message timeout : Nat} {r t : TaskId} (hr : k.running = some r)
    (hn : k.nblocked r = none) (hh : k.handsOff q) (hb : k.blocked (.queue q) = some t)
    (hw : k.taskQueue t = some q) :
    HandsOver k (.svc (.queueEnqueue q message timeout)) t (k.sendQueue q t message)
  | sendIsr {q : QueueId} {message : Nat} {t : TaskId} (hh : k.handsOff q)
    (hb : k.blocked (.queue q) = some t) (hw : k.taskQueue t = some q) :
    HandsOver k (.enqueueIsr q message) t (k.sendQueue q t message)
  | receive {q : QueueId} {timeout : Nat} {r t : TaskId} (hr : k.running = some r)
    (hn : k.nblocked r = none) (hq : (k.queue q).number > 0)
    (hs : (k.queue q).status = .blockedSend) (hb : k.blocked (.queue q) = some t)
    (hw : k.taskQueue t = some q) :
    HandsOver k (.svc (.queueDequeue q timeout)) t
      ((k.setQueue q (k.queue q).take).receiveQueue q t)
  | write {l : RwlockId} {r t : TaskId} (hr : k.running = some r)
    (hh : (k.rwlock l).readers > 0 ∨ (k.rwlock l).writers = 1)
    (hw : (k.rwlock l).writers > 0 → (k.rwlock l).writer = some r) (hn : k.nextWriter l = some t) :
    HandsOver k (.svc (.rwlockRelease l)) t ((k.dropRwlock l).grantWrite l t)

/-- The call of `r` blocks it on `w` with the objects `o`. -/
inductive Parks (k : Kernel) (r : TaskId) : Act → Waitable → Nat → Objects → Prop
  | mutex {m : MutexId} {timeout : Nat} (hp : k.taskMutex r = none ∨ k.taskMutex r = some m)
    (hl : (k.mutex m).level ≠ 0) (ho : (k.mutex m).owner ≠ some r) (ht : timeout ≠ 0) :
    Parks k r (.svc (.mutexAcquire m timeout)) (.mutex m) timeout k.toObjects
  | semaphore {s : SemaphoreId} {timeout : Nat}
    (hp : k.taskSemaphore r = none ∨ k.taskSemaphore r = some s)
    (hl : (k.semaphore s).tokens = 0) (ht : timeout ≠ 0) :
    Parks k r (.svc (.semaphoreAcquire s timeout)) (.semaphore s) timeout k.toObjects
  | send {q : QueueId} {message timeout : Nat} (hn : k.nblocked r = none) (hh : ¬ k.handsOff q)
    (hl : (k.queue q).number = (k.queue q).size) (ht : timeout ≠ 0) :
    Parks k r (.svc (.queueEnqueue q message timeout)) (.queue q) timeout (k.awaitSend q r message)
  | receive {q : QueueId} {timeout : Nat} (hn : k.nblocked r = none)
    (hl : (k.queue q).number = 0) (ht : timeout ≠ 0) :
    Parks k r (.svc (.queueDequeue q timeout)) (.queue q) timeout
      (k.setQueue q { k.queue q with status := .blockedReceive })
  | read {l : RwlockId} {timeout : Nat} (hp : k.taskRwlock r = none ∨ k.taskRwlock r = some l)
    (hl : (k.rwlock l).writers ≠ 0) (ht : timeout ≠ 0) :
    Parks k r (.svc (.rwlockAcquireRead l timeout)) (.rwlock l) timeout
      { k.toObjects with c := update k.c r desiredRead }
  | write {l : RwlockId} {timeout : Nat} (hp : k.taskRwlock r = none ∨ k.taskRwlock r = some l)
    (hl : ¬ ((k.rwlock l).readers = 0 ∧ (k.rwlock l).writers = 0)) (ht : timeout ≠ 0) :
    Parks k r (.svc (.rwlockAcquireWrite l timeout)) (.rwlock l) timeout
      { k.toObjects with c := update k.c r desiredWrite }

theorem svcHandler_bind {α : Type} {call : Svc} {m : Except Stop α}
    {f : α → Except Stop (Kernel × Status × Option Nat)} (hr : k.running = some r)
    (h : call.call k = m >>= f) : ∃ post, (Act.svc call).run k = m >>= post := by
  refine ⟨fun x => do
    let p ← f x
    return { p.1 with
      regs := update p.1.regs r ⟨p.2.1.code, p.2.2.getD (p.1.regs r).r1⟩ }, ?_⟩
  simp only [Act.run, svcHandler, Kernel.self_eq_ok.2 hr, h, bind_assoc]
  rfl

theorem HandsOver.run (h : HandsOver k a t o) :
    ∃ post, a.run k = osiDispatchOrQueue { k with toObjects := o } t >>= post := by
  cases h with
  | @mutex m r t hr ho hl hb hp hw =>
    refine svcHandler_bind (f := fun k => .ok (k, .success, none)) hr ?_
    simp [Svc.call, osiMutexRelease, Kernel.self_eq_ok.2 hr, ok_bind, osAssert_true, ho, hl, hp,
      blockedDeq, hb, hw, Objects.waitsOn, Objects.grantMutex, Objects.unlink, Objects.setMutex,
      Objects.setStackedReturn, setLink]
    rfl
  | @semaphore s r t hr hb hw =>
    refine svcHandler_bind (f := fun k => .ok (k, .success, none)) hr ?_
    simp [Svc.call, osiSemaphoreRelease, ok_bind, osAssert_true, blockedDeq, hb, hw,
      Objects.waitsOn, Objects.grantSemaphore, Objects.unlink, Objects.setStackedReturn, setLink]
    rfl
  | @send q message timeout r t hr hn hh hb hw =>
    refine svcHandler_bind (f := fun k => .ok (k, .success, some 0)) hr ?_
    simp [Svc.call, osiQueueEnqueue_eq hr, queueSendBlocked, hn, hh, ok_bind, osAssert_true,
      blockedDeq, hb, hw, Objects.waitsOn, Objects.sendQueue, Objects.unlink,
      Objects.setStackedTuple, setLink]
  | @sendIsr q message t hh hb hw =>
    refine ⟨fun k => .ok { k with pendSv := true }, ?_⟩
    simp [Act.run, osiQueueEnqueueIsr_eq, queueSendBlocked, hh, ok_bind, osAssert_true,
      blockedDeq, hb, hw, Objects.waitsOn, Objects.sendQueue, Objects.unlink,
      Objects.setStackedTuple, setLink]
  | @receive q timeout r t hr hn hq hs hb hw =>
    refine svcHandler_bind
      (f := fun k' => .ok (k', .success, some ((k.queue q).messages (k.queue q).last))) hr ?_
    simp [Svc.call, osiQueueDequeue, queueReceiveBlocked, hr, hn, hq, hs, ok_bind, osAssert_true,
      blockedDeq, hb, hw, Objects.waitsOn, Objects.receiveQueue, Objects.unlink,
      Objects.setStackedTuple, setLink, Objects.setQueue, Queue.take]
    rfl
  | @write l r t hr hh hw hn =>
    obtain ⟨hb, hrd, hc⟩ := Objects.nextWriter_eq_some.1 hn
    refine svcHandler_bind (f := fun k => .ok (k, .success, none)) hr ?_
    have hk : ({ k with rwlock := update k.rwlock l (k.rwlock l).drop } : Kernel) =
      { k with toObjects := k.dropRwlock l } := rfl
    simp only [Svc.call, osiRwlockRelease, Kernel.self_eq_ok.2 hr, ok_bind, osAssert_true hh,
      osAssert_true hw, Rwlock.drop_eq, hk]
    have hg : (k.rwlock l).drop.readers = 0 ∧ k.c t = desiredWrite := ⟨hrd, hc⟩
    simp only [hb, if_pos hg, bind_assoc]
    rfl

theorem Parks.run (h : Parks k r a w ms o) (hr : k.running = some r) :
    ∃ post, a.run k = block { k with toObjects := o } w r ms >>= post := by
  cases h with
  | mutex hp hl ho ht =>
    refine svcHandler_bind (f := fun k => .ok (k, .errorTo, none)) hr ?_
    simp [Svc.call, osiMutexAcquire, Kernel.self_eq_ok.2 hr, ok_bind, osAssert_true hp, hl, ho, ht]
    rfl
  | semaphore hp hl ht =>
    refine svcHandler_bind (f := fun k => .ok (k, .errorTo, none)) hr ?_
    simp [Svc.call, osiSemaphoreAcquire, Kernel.self_eq_ok.2 hr, ok_bind, osAssert_true hp, hl, ht]
    rfl
  | send hn hh hl ht =>
    refine svcHandler_bind (f := fun k => .ok (k, .errorTo, some 0)) hr ?_
    simp only [Svc.call, osiQueueEnqueue_eq hr, ok_bind, osAssert_true hn, if_neg hh, if_pos hl,
      if_neg ht, bind_assoc]
    rfl
  | receive hn hl ht =>
    refine svcHandler_bind (f := fun k => .ok (k, .errorTo, some 0)) hr ?_
    simp [Svc.call, osiQueueDequeue, hr, ok_bind, osAssert_true hn, hl, ht]
    rfl
  | read hp hl ht =>
    refine svcHandler_bind (f := fun k => .ok (k, .errorTo, none)) hr ?_
    simp [Svc.call, osiRwlockAcquireRead, Kernel.self_eq_ok.2 hr, ok_bind, osAssert_true hp, hl, ht]
    rfl
  | write hp hl ht =>
    refine svcHandler_bind (f := fun k => .ok (k, .errorTo, none)) hr ?_
    simp only [Svc.call, osiRwlockAcquireWrite, Kernel.self_eq_ok.2 hr, ok_bind, osAssert_true hp,
      if_neg hl, if_neg ht, bind_assoc]
    rfl

/-- The running task goes to sleep, and `osi_schedule` is entered in `k₁`. -/
structure SleepsInto (k : Kernel) (ms : Nat) (r : TaskId) (k₁ : Kernel) : Prop where
  running : k.running = some r
  scheduled : k.scheduled = none
  timeout : ms ≠ uint32Max → (k.uptime + ms) % 2 ^ 32 ≠ uint32Max
  status : ∃ s, osiTaskStatusSet { k.toSched with
      delay := update k.delay r (if ms = uint32Max then uint32Max else (k.uptime + ms) % 2 ^ 32) }
    r .wait = .ok s ∧ k₁ = { k with toSched := s }

theorem SleepsInto.run (h : SleepsInto k ms r k₁) :
    ∃ post, svcDelay k ms = osiSchedule k₁ >>= post := by
  obtain ⟨hr, hn, ht, s, hs, rfl⟩ := h
  have hsched : s.scheduled = none := (osiTaskStatusSet_rethreaded hs).scheduled.trans hn
  refine ⟨fun k => do
    osAssert .svcDelay (k.scheduled ≠ none)
    osAssert .svcDelay (k.scheduled ≠ k.running)
    return k, ?_⟩
  have hne : k.scheduled ≠ some r := by simp [hn]
  have hdelay : ms ≠ uint32Max →
      (if ms = uint32Max then uint32Max else (k.uptime + ms) % 2 ^ 32) ≠ uint32Max := fun h => by
    rw [if_neg h]
    exact ht h
  rw [svcDelay_eq]
  split
  · rename_i hr'
    cases hr.symm.trans hr'
  · rename_i running hr'
    obtain rfl : r = running := Option.some.inj (hr.symm.trans hr')
    simp only [osAssert_true hne, osAssert_true hdelay, ok_bind, hs, if_pos hsched]

inductive EntersSchedule (k : Kernel) : Act → Kernel → Prop
  | schedule : EntersSchedule k .schedule k
  | systick (h : k.state = .started ∧ k.scheduled = none) : EntersSchedule k .systick k
  | delay {ms : Nat} {r : TaskId} {k₁ : Kernel} (h : SleepsInto k ms r k₁) :
    EntersSchedule k (.svc (.delay ms)) k₁
  | abort {r : TaskId} {s : Sched} (hr : k.running = some r) (hn : k.scheduled = none)
    (h : osiTaskStatusSet k.toSched r .aborted = .ok s) :
    EntersSchedule k (.svc .abort) { k with toSched := s }
  | block {a : Act} {r : TaskId} {w : Waitable} {ms : Nat} {o₀ o : Objects} {k₁ : Kernel}
    (hp : Parks k r a w ms o₀) (hb : blockedEnq k.bound o₀ w r = .ok o)
    (h : SleepsInto { k with toObjects := { o with
      flags := update o.flags r (o.flags r ||| w.flag) } } ms r k₁) : EntersSchedule k a k₁
  | queued {a : Act} {t : TaskId} {o : Objects} {s : Sched} (h : HandsOver k a t o)
    (hh : runqueueHasHigherPriority k.toSched t = .ok true) (hs : MakesRunnable k.toSched t s)
    (hn : k.scheduled = none) : EntersSchedule k a { toSched := s, toObjects := o }

theorem EntersSchedule.run (h : EntersSchedule k a k₁) :
    ∃ post, a.run k = osiSchedule k₁ >>= post := by
  have hid (x : Except Stop Kernel) : x = x >>= fun k => .ok k := (bind_pure x).symm
  cases h with
  | schedule => exact ⟨_, hid _⟩
  | systick h =>
    refine ⟨_, Eq.trans ?_ (hid _)⟩
    simp only [Act.run, osiIrsSystick, if_pos h]
  | @delay ms r _ h =>
    obtain ⟨post, hpost⟩ := h.run
    obtain ⟨post', h'⟩ : ∃ post, (Act.svc (.delay ms)).run k = svcDelay k ms >>= post :=
      svcHandler_bind (f := fun k => .ok (k, .errorTo, none)) h.running rfl
    exact ⟨_, by rw [h', hpost, bind_assoc]⟩
  | @abort r s hr hn h =>
    have hsched : s.scheduled = none := (osiTaskStatusSet_rethreaded h).scheduled.trans hn
    obtain ⟨post, hpost⟩ : ∃ post, svcAbort k =
        osiSchedule { k with toSched := s } >>= post := by
      refine ⟨fun k => do
        osAssert .svcAbort (k.scheduled ≠ none)
        osAssert .svcAbort (k.scheduled ≠ k.running)
        return k, ?_⟩
      simp only [svcAbort, Kernel.self_eq_ok.2 hr, ok_bind, h, if_pos hsched]
    obtain ⟨post', h'⟩ : ∃ post, (Act.svc .abort).run k = svcAbort k >>= post :=
      svcHandler_bind (f := fun k => .ok (k, .success, none)) hr rfl
    exact ⟨_, by rw [h', hpost, bind_assoc]⟩
  | @block _ r w ms o₀ o _ hp hb h =>
    have hr : k.running = some r := h.running
    obtain ⟨post, hpost⟩ := hp.run hr
    obtain ⟨post', h'⟩ := h.run
    have hblock : Osh.block { k with toObjects := o₀ } w r ms = osiSchedule k₁ >>= post' := by
      have hself : ({ k with toObjects := o } : Kernel).self = .ok r := Kernel.self_eq_ok.2 hr
      rw [← h']
      simp only [Osh.block, svcBlock, hself, hb, ok_bind]
    exact ⟨_, by rw [hpost, hblock, bind_assoc]⟩
  | @queued _ t o s h hh hs hn =>
    obtain ⟨post, hpost⟩ := h.run
    have hsched : s.scheduled = none := hs.rethreaded.scheduled.trans hn
    refine ⟨_, hpost.trans (congrArg (· >>= post) ?_)⟩
    unfold MakesRunnable at hs
    split_ifs at hs with hrun
    · subst hs
      simp only [osiDispatchOrQueue, hh, ok_bind, if_true, if_neg (not_not.2 hrun), if_pos hn]
    · simp only [osiDispatchOrQueue, hh, ok_bind, if_true, if_pos hrun, hs, if_pos hsched]

inductive Act.Dispatching (k : Kernel) (a : Act) : Kernel → TaskId → Prop
  | direct {t : TaskId} {o : Objects} (h : HandsOver k a t o)
    (hh : runqueueHasHigherPriority k.toSched t = .ok false) :
    a.Dispatching k { k with toObjects := o } t
  | found {r t : TaskId} {k₁ : Kernel} {s : Sched} (h : EntersSchedule k a k₁)
    (hr : k₁.running = some r) (hi : k₁.status r ≠ .idle) (hn : k₁.scheduled = none)
    (hw : wakeExpired k₁.toSched = .ok s) (hf : findNewTask s r = .ok (some t)) (hne : r ≠ t) :
    a.Dispatching k { k₁ with toSched := s } t

theorem Act.Dispatching.run (h : a.Dispatching k k₁ t) :
    ∃ post, a.run k = osiDispatch k₁ t >>= post := by
  cases h with
  | direct h hh =>
    obtain ⟨post, hpost⟩ := h.run
    refine ⟨post, hpost.trans (congrArg (· >>= post) ?_)⟩
    simp only [osiDispatchOrQueue, hh, ok_bind]
    rfl
  | @found r t k₁ s h hr hi hn hw hf hne =>
    obtain ⟨post, hpost⟩ := h.run
    have hsched : osiSchedule k₁ = osiDispatch { k₁ with toSched := s } t >>= fun k =>
        .ok (if k.scheduled ≠ none then { k with pendSv := true } else k) := by
      unfold osiSchedule
      split
      · rename_i hr'
        cases hr.symm.trans hr'
      · rename_i running hr'
        obtain rfl : r = running := Option.some.inj (hr.symm.trans hr')
        simp only [if_neg hi, if_neg (not_not.2 hn), hw, hf, ok_bind, if_pos hne]
        rfl
    exact ⟨_, by rw [hpost, hsched, bind_assoc]⟩

theorem Callable.setSched (hc : Callable k L) (hq : Queued False s) (hr : s.running = k.running)
    (ht : s.tasks = k.tasks) (hu : ∀ x, s.Used x → x ∈ k.tasks) :
    Callable { k with toSched := s } L where
  running := by rw [hr]; exact hc.running
  queued := hq
  flagged := hc.flagged
  lists := hc.lists
  created := ⟨by rw [ht]; exact hc.created.nodup, fun x hx => by rw [ht]; exact hu x hx,
    fun x hx => by rw [ht]; exact hc.created.blocked x hx⟩

theorem HandsOver.quiet (h : HandsOver k a t o) : ∃ w, k.blocked w = some t ∧
    Quiet (some w) (fun x => x = t) (k.unlink w none t) o := by
  cases h with
  | @mutex m _ t _ _ _ hb => exact ⟨.mutex m, hb, .grantMutex rfl⟩
  | @semaphore s _ t _ hb => exact ⟨.semaphore s, hb, .grantSemaphore rfl⟩
  | @send q message _ _ t _ _ _ hb | @sendIsr q message t _ hb =>
    exact ⟨.queue q, hb, .sendQueue (by rfl) message⟩
  | @receive q _ _ t _ _ _ _ hb =>
    exact ⟨.queue q, hb, (Quiet.setQueue _).unlink.trans (.receiveQueue rfl)⟩
  | @write l _ t _ _ _ hn =>
    exact ⟨.rwlock l, (Objects.nextWriter_eq_some.1 hn).1,
      (Quiet.setRwlock _).unlink.trans (.grantWrite rfl)⟩

theorem Callable.handsOver (hc : Callable k L) (h : HandsOver k a t o) :
    t ∈ k.tasks ∧ ∃ L, Callable { k with toObjects := o } L := by
  obtain ⟨w, hb, hq⟩ := h.quiet
  obtain ⟨rest, hL⟩ := hc.lists.lists.head hb
  have hL' : L w = [] ++ t :: rest := hL
  refine ⟨hc.created.mem_of_onList hc.lists (Objects.onList_of_blocked hb), _, hc.running,
    hc.queued, hc.flagged.unlink hq.toSameWaits, hc.lists.unlink hL' hq.toSameWaits,
    hc.created.nodup, hc.created.used, fun x hx => hc.created.blocked x ?_⟩
  have hflags : o.flags = k.flags := hq.flags
  exact hflags ▸ hx

theorem Callable.sleeps (hc : Callable k L) (hn : NextInv (· ≠ .wait) k.toSched)
    (h : SleepsInto k ms r k₁) : Callable k₁ L := by
  obtain ⟨hr, hs, -, s, hset, rfl⟩ := h
  have hs' := osiTaskStatusSet_rethreaded hset
  apply hc.setSched (hc.queued.sleeps hn hs hr hset) hs'.running hs'.tasks
  intro x hx
  rcases Sched.Used.of_set hset hx with hx | rfl
  · exact hc.created.used x hx
  · exact hc.created.used x (.inl hr)

theorem Parks.sameWaits (h : Parks k r a w ms o) : SameWaits k.toObjects o := by
  cases h <;> exact ⟨rfl, rfl, rfl, rfl, rfl, rfl, rfl⟩

theorem Callable.enters (hc : Callable k L) (hn : NextInv (· ≠ .wait) k.toSched)
    (hfree : NextFree k) (h : EntersSchedule k a k₁) : ∃ L, Callable k₁ L := by
  cases h with
  | schedule | systick => exact ⟨L, hc⟩
  | delay h => exact ⟨L, hc.sleeps hn h⟩
  | @abort r s hr hs h =>
    have hs' := osiTaskStatusSet_rethreaded h
    refine ⟨L, hc.setSched (hc.queued.aborts hn hs hr h) hs'.running hs'.tasks fun x hx => ?_⟩
    rcases Sched.Used.of_set h hx with hx | rfl
    · exact hc.created.used x hx
    · exact hc.created.used x (.inl hr)
  | @block _ r w ms o₀ o _ hp hb h =>
    have hr : k.running = some r := h.running
    have hw := hp.sameWaits
    have hflags : o₀.flags = k.flags := hw.flags
    have hz : o₀.flags r = 0 := by
      rw [hflags]
      exact hfree r ((next_of_none h.scheduled).trans hr)
    have hbl : Blocks o₀ w r { o with flags := update o.flags r (o.flags r ||| w.flag) } :=
      ⟨_, o, hb, rfl⟩
    obtain ⟨o₁, -, -, he⟩ := hbl.fields hz
    have hc' : Callable { k with
        toObjects := { o with flags := update o.flags r (o.flags r ||| w.flag) } }
        (update L w (L w ++ [r])) := by
      refine ⟨hc.running, hc.queued, hbl.flagged (hc.flagged.of_same hw) hz,
        hbl.blockedInv (hc.lists.of_same hw) hz, hc.created.nodup, hc.created.used, fun x hx => ?_⟩
      by_cases hxr : x = r
      · exact hxr ▸ hc.created.used r (.inl hr)
      · apply hc.created.blocked x
        have hfl : update o.flags r (o.flags r ||| w.flag) = update o₀.flags r w.flag :=
          congrArg Objects.flags he
        have hx' : update o.flags r (o.flags r ||| w.flag) x ≠ 0 := hx
        rwa [hfl, Function.update_of_ne hxr, hflags] at hx'
    exact ⟨_, hc'.sleeps hn h⟩
  | @queued _ t o s h hh hs hsched =>
    obtain ⟨ht, L', hc'⟩ := hc.handsOver h
    refine ⟨L', hc'.setSched (hc.queued.makesRunnable hs) hs.rethreaded.running
      hs.rethreaded.tasks fun x hx => ?_⟩
    rcases Sched.Used.of_makesRunnable hs hx with hx | rfl
    · exact hc.created.used x hx
    · exact ht

theorem reach_running {ok : Kernel → Act → Prop} (h : machine.Reach ok k) : k.running ≠ none := by
  refine h.invariant (I := fun k => k.running ≠ none) ?_ ?_
  · rintro k ⟨b, hb⟩
    obtain ⟨k₀, i, -, -, rfl⟩ := b.start_invariant (I := fun _ => True) hb trivial
      fun _ _ _ _ _ _ _ _ _ => trivial
    exact Option.some_ne_none i
  · intro k a k' hr _ ⟨he, h⟩
    by_cases ha : a = .contextSwitch
    · subst ha
      cases h
      exact he
    · rw [((Act.run_waits he h).scheduled ha).1]
      exact hr

/-- Every state of a run that restarts no blocked task lets a step call `osi_dispatch`. -/
theorem reach_callable {ok : Kernel → Act → Prop} (h : machine.Reach ok k)
    (hok : ∀ k a, ok k a → a.RestartsFree k) :
    (∃ L, Callable k L) ∧ NextInv (· ≠ .wait) k.toSched ∧ NextFree k := by
  obtain ⟨hq, hn⟩ := reach_queued (c := False) h fun hc => hc.elim
  obtain ⟨hf, hfree⟩ := reach_flagged h
  obtain ⟨L, hi⟩ := reach_blocked h hok
  exact ⟨⟨L, reach_running h, hq, hf, hi, reach_created h⟩, hn, hfree⟩

theorem Act.Dispatching.callable (hd : a.Dispatching k k₁ t) (hc : Callable k L)
    (hn : NextInv (· ≠ .wait) k.toSched) (hfree : NextFree k) :
    t ∈ k₁.tasks ∧ ∃ L, Callable k₁ L := by
  cases hd with
  | direct hh => exact hc.handsOver hh
  | found he hr _ _ hw hf =>
    obtain ⟨L', hc'⟩ := hc.enters hn hfree he
    have hs := wakeLoop_rethreaded hw
    have hc₁ := hc'.setSched (hc'.queued.wakes hw) hs.running hs.tasks fun x hx =>
      hc'.created.used x (.of_wakes hc'.queued hw hx)
    refine ⟨hc₁.created.used t (.inr (.inr fun he => ?_)), L', hc₁⟩
    have hrun := findNewTask_running hf
    rw [he] at hrun
    cases hrun

/-- Wherever a step of a run that restarts no blocked task calls `osi_dispatch` for a blocked task,
the task is detached from its object exactly if it is safe to dispatch. -/
theorem dispatch_detaches_iff (h : machine.Reach (fun k a => a.RestartsFree k) k)
    (hd : a.Dispatching k k₁ t) (ht : k₁.flags t ≠ 0) :
    (∃ k', osiDispatch k₁ t = .ok k' ∧ DetachedFrom k₁ t k') ↔ DispatchSafe k₁ t := by
  obtain ⟨⟨L, hc⟩, hn, hfree⟩ := reach_callable h fun _ _ h => h
  obtain ⟨-, L', hc'⟩ := hd.callable hc hn hfree
  exact hc'.dispatch_iff ht

set_option maxRecDepth 10000 in
theorem dispatch_detaches_grant : ∃ k₁ k' : Kernel, k₁.flags 2 = flagMutex ∧
    osiDispatch k₁ 2 = .ok k' ∧ DetachedFrom k₁ 2 k' := by
  obtain ⟨k, hk, ⟨hr, ho, hl, hb, hp⟩, hw, hh, hf, hs, hi⟩ :=
    (Boot.simple [0, 16, 16] (by simp)).exists_after (fun _ a => ¬ a.restarts)
      (fun k => (k.running = some 1 ∧ (k.mutex 0).owner = some 1 ∧ (k.mutex 0).level = 1 ∧
        k.blocked (.mutex 0) = some 2 ∧ k.taskMutex 1 = none) ∧ k.taskMutex 2 = some 0 ∧
        (runqueueHasHigherPriority k.toSched 2).toOption = some false ∧ k.flags 2 = flagMutex ∧
        k.taskSemaphore 2 = none ∧ k.idle = some 0)
      [.schedule, .contextSwitch, .svc (.mutexAcquire 0 0), .systick, .contextSwitch,
        .svc (.mutexAcquire 0 uint32Max), .contextSwitch] (by decide)
  have hh' : runqueueHasHigherPriority k.toSched 2 = .ok false := by
    cases h : runqueueHasHigherPriority k.toSched 2 with
    | error e => rw [h] at hh; cases hh
    | ok b => rw [h] at hh; cases hh; rfl
  have hd := Act.Dispatching.direct (.mutex hr ho hl hb hp hw) hh'
  have hf' : (k.grantMutex 0 2).flags 2 = flagMutex := hf
  have hsafe : DispatchSafe { k with toObjects := k.grantMutex 0 2 } 2 := by
    constructor
    · exact hs
    · intro h
      cases hr.symm.trans h
    · intro h
      cases hi.symm.trans h
  obtain ⟨k', h⟩ := (dispatch_detaches_iff (hk.mono fun _ _ ha => .of_not_restarts ha) hd
    (by rw [hf']; decide)).2 hsafe
  exact ⟨{ k with toObjects := k.grantMutex 0 2 }, k', hf', h⟩

set_option maxRecDepth 10000 in
/-- The flag of semaphores passes the test for mutexes, whose assertion fails on every task that is
blocked on a semaphore. -/
theorem dispatch_fails_semaphore : ∃ k k₁ : Kernel,
    machine.Reach (fun k a => a.RestartsFree k) k ∧
    (Act.svc (.semaphoreRelease 0)).Enabled k ∧
    (Act.svc (.semaphoreRelease 0)).Dispatching k k₁ 1 ∧ k₁.flags 1 = flagSemaphore ∧
    osiDispatch k₁ 1 = .error (.assertion .dispatchDetach) ∧
    (Act.svc (.semaphoreRelease 0)).run k = .error (.assertion .dispatchDetach) := by
  obtain ⟨k, hk, he, hr, hb, hw, hh, hf, hm⟩ :=
    (Boot.simple [0, 16, 16] (by simp)).exists_after (fun _ a => ¬ a.restarts)
      (fun k => (Act.svc (.semaphoreRelease 0)).Enabled k ∧ k.running = some 2 ∧
        k.blocked (.semaphore 0) = some 1 ∧ k.taskSemaphore 1 = some 0 ∧
        (runqueueHasHigherPriority k.toSched 1).toOption = some false ∧
        k.flags 1 = flagSemaphore ∧ k.taskMutex 1 = none)
      [.schedule, .contextSwitch, .svc (.semaphoreAcquire 0 uint32Max), .contextSwitch] (by decide)
  have hh' : runqueueHasHigherPriority k.toSched 1 = .ok false := by
    cases h : runqueueHasHigherPriority k.toSched 1 with
    | error e => rw [h] at hh; cases hh
    | ok b => rw [h] at hh; cases hh; rfl
  have hd := Act.Dispatching.direct (.semaphore hr hb hw) hh'
  have hfail : osiDispatch { k with toObjects := k.grantSemaphore 0 1 } 1 =
      .error (.assertion .dispatchDetach) := by
    have hf' : (k.grantSemaphore 0 1).flags 1 = flagSemaphore := hf
    have hm' : (k.grantSemaphore 0 1).taskMutex 1 = none := hm
    have hmask : flagSemaphore &&& flagMutex = flagMutex := by decide
    simp [osiDispatch, hr, dispatchDetach, detachMutex, hf', hm', hmask]
    rfl
  obtain ⟨post, hrun⟩ := hd.run
  refine ⟨k, _, hk.mono fun _ _ ha => .of_not_restarts ha, he, hd, hf, hfail, ?_⟩
  rw [hrun, hfail]
  rfl

end Osh
