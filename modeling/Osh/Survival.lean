import Osh.FindTotal
import Osh.IdleAlone

namespace Osh
open Function (update)
open Lib

variable {k k' k₁ : Kernel} {s s' : Sched} {o o' : Objects} {t x running : TaskId} {w : Waitable}
  {a : Act} {l m r q : List TaskId} {n : Nat} {L : Waitable → List TaskId} {bad : Stop → Prop}

theorem osAssert_holds_of {site : Site} {p : Prop} [Decidable p]
    (h : bad (.assertion site) → p) : Avoids bad (osAssert site p) := by
  intro e he hbad
  unfold osAssert at he
  split_ifs at he with hp
  cases he
  exact hp (h hbad)

section Queues

theorem hasHigherPriorityLoop_total {first : Option TaskId} (hc : Chain s.nrp first m)
    (hn : m.length ≤ n) : ∃ higher, hasHigherPriorityLoop s t n first = .ok higher := by
  induction m generalizing first n with
  | nil =>
    obtain rfl : first = none := hc
    exact ⟨_, by cases n <;> rfl⟩
  | cons b m ih =>
    obtain ⟨rfl, hb⟩ := chain_cons.1 hc
    cases n with
    | zero => simp at hn
    | succ n =>
      rw [hasHigherPriorityLoop]
      split_ifs
      · exact ⟨_, rfl⟩
      · exact ih hb (by simpa using hn)

theorem osiTaskStatusSet_stopped_total {new : TaskStatus} (hl : Lists s r q)
    (hn : r.length ≤ s.bound) (hnew : new = .finished ∨ new = .panic ∨ new = .aborted) :
    ∃ s', osiTaskStatusSet s t new = .ok s' := by
  have hl' := hl.setStatus (t := t) new
  have hrem := runqueueRemove_total (t := t) hl' hn
  rcases hnew with rfl | rfl | rfl <;> exact hrem

theorem osiTaskStatusSet_suspended_total (hl : Lists s r q) (hr : r.length ≤ s.bound)
    (hq : q.length ≤ s.bound) : ∃ s', osiTaskStatusSet s t .suspended = .ok s' := by
  have hl' := hl.setStatus (t := t) .suspended
  obtain ⟨s₁, h₁⟩ := waitqueueRemove_total (t := t) hl' hq
  obtain ⟨hl₁, hs₁, -⟩ := waitqueueRemove_lists h₁ hl'
  have hb : s₁.bound = s.bound := congrArg (fun l => List.length l + 1) hs₁.rest.tasks
  obtain ⟨s₂, h₂⟩ := runqueueRemove_total (t := t) hl₁ (hb ▸ hr)
  exact ⟨s₂, bind_eq_ok.2 ⟨s₁, h₁, h₂⟩⟩

/-- A task that is in the run queue already cuts the walk short. -/
theorem runqueueAdd_total_anywhere (hl : Lists s r q) (hn : r.length ≤ s.bound)
    (hst : s.status t ≠ .wait ∧ s.status t ≠ .finished) : ∃ s', runqueueAdd s t = .ok s' := by
  by_cases ht : t ∈ r
  · obtain ⟨pre, post, rfl⟩ := List.append_of_mem ht
    apply runqueueAdd_total_of_chain hl.run.truncate _ hst
    simp only [List.length_append, List.length_cons, List.length_nil] at hn ⊢
    omega
  · exact runqueueAdd_total hl hn ht hst

theorem osiTaskStatusSet_idle_total_anywhere (hq : Queues s r q) (hr : r.length ≤ s.bound)
    (hw : q.length ≤ s.bound) : ∃ s', osiTaskStatusSet s t .idle = .ok s' := by
  by_cases ht : s.status t = .wait
  · exact osiTaskStatusSet_idle_total hq hr hw ht
  · have hl := hq.toLists.setStatus (t := t) .idle
    simp only [osiTaskStatusSet, if_neg ht]
    apply runqueueAdd_total_anywhere hl hr
    simp

end Queues

/-- The list of each object is not longer than the loops go. -/
def ListsEnd (o : Objects) (n : Nat) : Prop :=
  ∀ w, ∃ l, Chain o.nblocked (o.blocked w) l ∧ l.length ≤ n

theorem Callable.listsEnd (hc : Callable k L) : ListsEnd k.toObjects k.bound := by
  intro w
  refine ⟨L w, hc.lists.lists.chain w, Sched.length_le_bound (hc.lists.lists.nodup w) ?_⟩
  exact fun x hx => hc.created.mem_of_onList hc.lists (hc.lists.mem_iff.1 hx)

theorem Callable.length_le (hc : Callable k L) (hq : Queues k.toSched r q) :
    r.length ≤ k.bound ∧ q.length ≤ k.bound := by
  have h := hq.length_le_bound hc.created.used
  rw [List.length_append] at h
  exact ⟨by omega, by omega⟩

structure Steady (k : Kernel) (L : Waitable → List TaskId) : Prop where
  callable : Callable k L
  queued : Queued True k.toSched
  next : NextInv (· ≠ .wait) k.toSched
  free : NextFree k

theorem reach_steady {ok : Kernel → Act → Prop} (h : machine.Reach ok k)
    (hok : ∀ k a, ok k a → a.RestartsFree k ∧ a.QueueSafe k) : ∃ L, Steady k L := by
  obtain ⟨⟨L, hc⟩, hn, hfree⟩ := reach_callable h fun k a ha => (hok k a ha).1
  exact ⟨L, hc, (reach_queued h fun _ k a ha => (hok k a ha).2).1, hn, hfree⟩

/-- What an action asserts itself, of its arguments and of the running task `r`. -/
def Act.Asserts (k : Kernel) (r : TaskId) : Act → Prop
  | .svc (.mutexAcquire m _) => k.taskMutex r = none ∨ k.taskMutex r = some m
  | .svc (.mutexRelease m) =>
    ((k.mutex m).level > 0 ∧ (k.mutex m).owner = some r) ∧ k.taskMutex r = none
  | .svc (.semaphoreAcquire s _) => k.taskSemaphore r = none ∨ k.taskSemaphore r = some s
  | .svc (.queueEnqueue _ _ _) | .svc (.queueDequeue _ _) => k.nblocked r = none
  | .svc (.rwlockAcquireRead l _) | .svc (.rwlockAcquireWrite l _) =>
    k.taskRwlock r = none ∨ k.taskRwlock r = some l
  | .svc (.rwlockRelease l) => ((k.rwlock l).readers > 0 ∨ (k.rwlock l).writers = 1) ∧
    ((k.rwlock l).writers > 0 → (k.rwlock l).writer = some r)
  | .taskFinished => k.idle ≠ some r ∧ k.status r = .active
  | .taskStart t _ _ => (k.status t ≠ .idle ∧ k.status t ≠ .active) ∧
    k.stackSize t % 4 = 0 ∧ k.stackSize t ≥ stackMinimumSize
  | .taskSuspend t => k.status t = .idle ∨ k.status t = .active
  | .taskResume t => k.status t = .suspended
  | _ => True

/-- The call of `r` puts it to sleep for `ms`, with the objects `o`. -/
inductive Act.FallsAsleep (k : Kernel) (r : TaskId) (ms : Nat) : Act → Objects → Prop
  | delay : FallsAsleep k r ms (.svc (.delay ms)) k.toObjects
  | block {a : Act} {w : Waitable} {o₀ o : Objects} (hp : Parks k r a w ms o₀)
    (hb : blockedEnq k.bound o₀ w r = .ok o) :
    FallsAsleep k r ms a { o with flags := update o.flags r (o.flags r ||| w.flag) }

theorem Act.FallsAsleep.enters {ms : Nat} (h : Act.FallsAsleep k running ms a o)
    (hs : SleepsInto { k with toObjects := o } ms running k₁) : EntersSchedule k a k₁ := by
  cases h with
  | delay => exact .delay hs
  | block hp hb => exact .block hp hb hs

/-- What a step of `k` has to get right not to fail in one of the ways `bad`. -/
structure Survives (bad : Stop → Prop) (k : Kernel) (a : Act) : Prop where
  asserts : ∀ site, bad (.assertion site) → ∀ r, k.running = some r → a.Asserts k r
  enq : ∀ o w r, SameWaits k.toObjects o → k.running = some r → k.scheduled = none →
    Avoids bad (blockedEnq k.bound o w r)
  deq : ∀ o w, SameWaits k.toObjects o → Avoids bad (blockedDeq o w)
  search : ∀ k₁ s r, EntersSchedule k a k₁ → k₁.running = some r → k₁.status r ≠ .idle →
    k₁.scheduled = none → wakeExpired k₁.toSched = .ok s → Avoids bad (findNewTask s r)
  dispatch : ∀ k₁ t, a.Dispatching k k₁ t → Avoids bad (osiDispatch k₁ t)
  deadline : bad (.assertion .svcDelay) → ∀ r ms o, a.FallsAsleep k r ms o → k.Representable ms
  wakes : bad (.assertion .svcDelay) → ∀ r ms o k₁ k', a.FallsAsleep k r ms o →
    SleepsInto { k with toObjects := o } ms r k₁ → osiSchedule k₁ = .ok k' →
    k'.scheduled ≠ none ∧ k'.scheduled ≠ k'.running
  aborts : bad (.assertion .svcAbort) → a = .svc .abort → ∀ k₁ k', EntersSchedule k a k₁ →
    osiSchedule k₁ = .ok k' → k'.scheduled ≠ none ∧ k'.scheduled ≠ k'.running

theorem Steady.lengths (hs : Steady k L) :
    ∃ r q, Queues k.toSched r q ∧ r.length ≤ k.bound ∧ q.length ≤ k.bound := by
  obtain ⟨r, q, hq, -⟩ := hs.callable.queued
  exact ⟨r, q, hq, hs.callable.length_le hq⟩

namespace Survives
variable {timeout ms : Nat} (hb : Survives bad k a) (hs : Steady k L)
include hb hs

theorem schedule (h : EntersSchedule k a k₁) : Avoids bad (osiSchedule k₁) := by
  obtain ⟨L', hc⟩ := hs.callable.enters hs.next hs.free h
  unfold osiSchedule
  cases hr : k₁.running with
  | none => exact absurd hr hc.running
  | some t =>
    dsimp only
    split_ifs with hi hn
    · exact .ok
    · exact .ok
    apply Avoids.bind
    · obtain ⟨r, w, hq, -⟩ := h.keepsQueued hs.queued hs.next
      obtain ⟨hlr, hlw⟩ := hc.length_le hq
      rw [wakeExpired_eq hq hlw]
      split
      · exact .of_returns (osiTaskStatusSet_idle_total_anywhere hq hlr hlw)
      · exact .ok
    intro s hw
    apply (hb.search k₁ s t h hr hi (not_not.1 hn) hw).bind
    intro new hf
    cases new with
    | none => exact .pure
    | some y =>
      dsimp only
      split_ifs with hne
      · have hd : a.Dispatching k { k₁ with toSched := s } y :=
          .found h hr hi (not_not.1 hn) hw hf hne
        exact (hb.dispatch _ y hd).bind fun _ _ => .pure
      · exact .pure

theorem dispatchOrQueue (h : HandsOver k a t o) :
    Avoids bad (osiDispatchOrQueue { k with toObjects := o } t) := by
  obtain ⟨r, q, hq, hr, hw⟩ := hs.lengths
  apply (Avoids.of_returns (hasHigherPriorityLoop_total hq.run hr)).bind
  intro higher hh
  have hjoin {s : Sched} (hset : MakesRunnable k.toSched t s) (hhigh : higher = true) :
      Avoids bad
        (if s.scheduled = none then osiSchedule { toSched := s, toObjects := o }
          else pure { toSched := s, toObjects := o }) := by
    split_ifs with hnone
    · apply hb.schedule hs
      exact .queued h (hhigh ▸ hh) hset (hset.rethreaded.scheduled.symm.trans hnone)
    · exact .pure
  split_ifs with hhigh hrun
  · have hset : MakesRunnable k.toSched t k.toSched := by
      unfold MakesRunnable
      exact if_pos hrun ▸ rfl
    exact hjoin hset hhigh
  · apply (Avoids.of_returns (osiTaskStatusSet_idle_total_anywhere hq hr hw)).bind
    intro s hset
    exact hjoin (by rwa [MakesRunnable, if_neg hrun]) hhigh
  · rw [Bool.eq_false_of_not_eq_true hhigh] at hh
    exact hb.dispatch _ t (.direct h hh)

theorem sleep (he : k.scheduled = none) (hr : k.running = some running)
    (h : a.FallsAsleep k running ms o) : Avoids bad (svcDelay { k with toObjects := o } ms) := by
  rw [svcDelay_eq]
  cases hr' : ({ k with toObjects := o } : Kernel).running with
  | none => cases hr.symm.trans hr'
  | some running' =>
    obtain rfl : running = running' := Option.some.inj (hr.symm.trans hr')
    dsimp only
    apply (osAssert_holds (by simp [he])).bind
    intro _ _
    apply Avoids.bind
    · apply osAssert_holds_of
      intro hbad hms
      rw [if_neg hms]
      exact hb.deadline hbad running ms o h hms
    intro _ ht
    have hwait : k.status running ≠ .wait :=
      hs.next.status running ((next_of_none he).trans hr)
    obtain ⟨r, q, hq, hlr, hlw⟩ := hs.lengths
    have hq' {d : Nat} : Queued False { k.toSched with delay := update k.delay running d } := by
      refine Queued.of_eq ⟨r, q, hq, False.elim⟩ rfl rfl rfl rfl rfl fun x hx => ?_
      refine Function.update_of_ne ?_ _ _
      rintro rfl
      exact hwait hx
    apply Avoids.bind
    · obtain ⟨r', q', hq', -⟩ := hq'
      have hr' : r' = r := hq'.run.unique hq.run
      have hw' : q' = q := hq'.wait.unique hq.wait
      subst hr' hw'
      exact .of_returns (osiTaskStatusSet_wait_total hq' hlr hlw hwait)
    intro s hset
    have hnone : s.scheduled = none := (osiTaskStatusSet_rethreaded hset).scheduled.trans he
    have hsleep : SleepsInto { k with toObjects := o } ms running
        { toSched := s, toObjects := o } := by
      refine ⟨hr, he, fun hms => ?_, s, hset, rfl⟩
      have hdelay := osAssert_eq_ok.1 ht hms
      rwa [if_neg hms] at hdelay
    rw [if_pos hnone]
    apply (hb.schedule hs (h.enters hsleep)).bind
    intro k' hk'
    have hend (hbad : bad (.assertion .svcDelay)) := hb.wakes hbad running ms o _ k' h hsleep hk'
    apply (osAssert_holds_of fun hbad => (hend hbad).1).bind
    intro _ _
    exact (osAssert_holds_of fun hbad => (hend hbad).2).bind fun _ _ => .pure

theorem block (he : k.scheduled = none) (hr : k.running = some running)
    (h : Parks k running a w ms o) :
    Avoids bad (Osh.block { k with toObjects := o } w running ms) := by
  apply (hb.enq o w running h.sameWaits hr he).bind
  intro o' ho
  have hself : ({ k with toObjects := o' } : Kernel).self = .ok running := Kernel.self_eq_ok.2 hr
  unfold svcBlock
  rw [hself, ok_bind]
  exact hb.sleep hs he hr (.block h ho)

theorem abort (he : k.scheduled = none) (hr : k.running = some running)
    (ha : a = .svc .abort) : Avoids bad (svcAbort k) := by
  subst ha
  unfold svcAbort
  rw [Kernel.self_eq_ok.2 hr, ok_bind]
  obtain ⟨r, q, hq, hlr, -⟩ := hs.lengths
  have hset := osiTaskStatusSet_stopped_total (t := running) hq.toLists hlr (.inr (.inr rfl))
  apply (Avoids.of_returns hset).bind
  intro s hset
  have hnone : s.scheduled = none := (osiTaskStatusSet_rethreaded hset).scheduled.trans he
  have henter : EntersSchedule k (.svc .abort) { k with toSched := s } := .abort hr he hset
  rw [if_pos hnone]
  apply (hb.schedule hs henter).bind
  intro k' hk'
  have hend (hbad : bad (.assertion .svcAbort)) := hb.aborts hbad rfl _ k' henter hk'
  apply (osAssert_holds_of fun hbad => (hend hbad).1).bind
  intro _ _
  exact (osAssert_holds_of fun hbad => (hend hbad).2).bind fun _ _ => .pure

theorem mutexAcquire {m : MutexId} (he : k.scheduled = none) (hr : k.running = some running)
    (ha : a = .svc (.mutexAcquire m timeout)) : Avoids bad (osiMutexAcquire k m timeout) := by
  subst ha
  unfold osiMutexAcquire
  rw [Kernel.self_eq_ok.2 hr, ok_bind]
  apply Avoids.bind
  · exact osAssert_holds_of fun hbad => hb.asserts _ hbad running hr
  intro _ hp
  dsimp only
  split_ifs with hl ho
  any_goals exact .pure
  rename_i ht
  exact (hb.block hs he hr (.mutex (osAssert_eq_ok.1 hp) hl ho ht)).bind fun _ _ => .pure

theorem mutexRelease {m : MutexId} (hr : k.running = some running)
    (ha : a = .svc (.mutexRelease m)) : Avoids bad (osiMutexRelease k m) := by
  subst ha
  unfold osiMutexRelease
  rw [Kernel.self_eq_ok.2 hr, ok_bind]
  apply (osAssert_holds_of fun hbad => (hb.asserts _ hbad running hr).1.1).bind
  intro _ hpos
  apply (osAssert_holds_of fun hbad => (hb.asserts _ hbad running hr).1.2).bind
  intro _ ho
  dsimp only
  split_ifs with hl
  · exact .pure
  · apply (osAssert_holds_of fun hbad => (hb.asserts _ hbad running hr).2).bind
    intro _ hp
    apply Avoids.bind
    · apply hb.deq
      exact ⟨rfl, rfl, rfl, rfl, rfl, rfl, rfl⟩
    · rintro ⟨o, first⟩ hd
      obtain ⟨hfirst, hw⟩ := blockedDeq_eq_ok.1 hd
      cases first with
      | none => exact .pure
      | some x =>
        obtain ⟨hw, rfl⟩ := hw
        have hlevel : (k.mutex m).level = 1 := by
          have hpos' := osAssert_eq_ok.1 hpos
          omega
        have hh : HandsOver k (.svc (.mutexRelease m)) x (k.grantMutex m x) :=
          .mutex hr (osAssert_eq_ok.1 ho) hlevel hfirst (osAssert_eq_ok.1 hp)
            (by simpa [Objects.waitsOn] using hw)
        apply Avoids.bind
        · simpa [Objects.grantMutex, Objects.setMutex, Objects.unlink,
            Objects.setStackedReturn] using hb.dispatchOrQueue hs hh
        · exact fun _ _ => .pure

theorem semaphoreAcquire {x : SemaphoreId} (he : k.scheduled = none)
    (hr : k.running = some running) (ha : a = .svc (.semaphoreAcquire x timeout)) :
    Avoids bad (osiSemaphoreAcquire k x timeout) := by
  subst ha
  unfold osiSemaphoreAcquire
  rw [Kernel.self_eq_ok.2 hr, ok_bind]
  apply Avoids.bind
  · exact osAssert_holds_of fun hbad => hb.asserts _ hbad running hr
  intro _ hp
  dsimp only
  split_ifs with htok ht
  · exact .pure
  · exact .pure
  · have hpark : Parks k running (.svc (.semaphoreAcquire x timeout)) (.semaphore x) timeout
        k.toObjects := .semaphore (osAssert_eq_ok.1 hp) (by omega) ht
    exact (hb.block hs he hr hpark).bind fun _ _ => .pure

theorem semaphoreRelease {x : SemaphoreId} (hr : k.running = some running)
    (ha : a = .svc (.semaphoreRelease x)) : Avoids bad (osiSemaphoreRelease k x) := by
  subst ha
  apply (hb.deq _ _ .refl).bind
  rintro ⟨o, first⟩ hd
  obtain ⟨hfirst, hw⟩ := blockedDeq_eq_ok.1 hd
  cases first with
  | none => exact .pure
  | some y =>
    obtain ⟨hw, rfl⟩ := hw
    have hh : HandsOver k (.svc (.semaphoreRelease x)) y (k.grantSemaphore x y) :=
      .semaphore hr hfirst (by simpa [Objects.waitsOn] using hw)
    exact (hb.dispatchOrQueue hs hh).bind fun _ _ => .pure

theorem queueSend {x : QueueId} {message : Nat} (hn : k.blocked (.queue x) ≠ none)
    (h : ∀ y, k.blocked (.queue x) = some y → k.taskQueue y = some x →
      HandsOver k a y (k.sendQueue x y message)) : Avoids bad (queueSendBlocked k x message) := by
  apply (hb.deq _ _ .refl).bind
  rintro ⟨o, first⟩ hd
  obtain ⟨hfirst, hw⟩ := blockedDeq_eq_ok.1 hd
  cases first with
  | none => exact absurd hfirst hn
  | some y =>
    obtain ⟨hw, rfl⟩ := hw
    exact hb.dispatchOrQueue hs (h y hfirst (by simpa [Objects.waitsOn] using hw))

theorem queueEnqueueIsr {x : QueueId} {message : Nat} (ha : a = .enqueueIsr x message) :
    Avoids bad (osiQueueEnqueueIsr k x message) := by
  subst ha
  rw [osiQueueEnqueueIsr_eq]
  split_ifs with hh
  · exact (hb.queueSend hs hh.2.1 fun y hy hw => .sendIsr hh hy hw).bind fun _ _ => .ok
  · exact .ok
  · exact .ok

theorem queueEnqueue {x : QueueId} {message : Nat} (he : k.scheduled = none)
    (hr : k.running = some running) (ha : a = .svc (.queueEnqueue x message timeout)) :
    Avoids bad (osiQueueEnqueue k x message timeout) := by
  subst ha
  rw [osiQueueEnqueue_eq hr]
  apply Avoids.bind
  · exact osAssert_holds_of fun hbad => hb.asserts _ hbad running hr
  intro _ hnone
  have hnone := osAssert_eq_ok.1 hnone
  split_ifs with hh hfull ht
  · refine (hb.queueSend hs hh.2.1 fun y hy hw => ?_).bind fun _ _ => .ok
    exact .send hr hnone hh hy hw
  · exact .ok
  · exact (hb.block hs he hr (.send hnone hh hfull ht)).bind fun _ _ => .ok
  · exact .ok

theorem queueReceive {x : QueueId} (hr : k.running = some running)
    (hnone : k.nblocked running = none) (hpos : (k.queue x).number > 0)
    (hst : (k.queue x).status = .blockedSend) (hn : k.blocked (.queue x) ≠ none)
    (ha : a = .svc (.queueDequeue x timeout)) : Avoids bad
      (queueReceiveBlocked { k with toObjects := k.setQueue x (k.queue x).take } x) := by
  subst ha
  apply Avoids.bind
  · apply hb.deq
    exact ⟨rfl, rfl, rfl, rfl, rfl, rfl, rfl⟩
  rintro ⟨o, first⟩ hd
  obtain ⟨hfirst, hw⟩ := blockedDeq_eq_ok.1 hd
  cases first with
  | none => exact absurd hfirst hn
  | some y =>
    obtain ⟨hw, rfl⟩ := hw
    exact hb.dispatchOrQueue hs
      (.receive hr hnone hpos hst hfirst (by simpa [Objects.waitsOn, Objects.setQueue] using hw))

theorem queueDequeue {x : QueueId} (he : k.scheduled = none) (hr : k.running = some running)
    (ha : a = .svc (.queueDequeue x timeout)) : Avoids bad (osiQueueDequeue k x timeout) := by
  subst ha
  simp only [osiQueueDequeue, hr]
  apply Avoids.bind
  · exact osAssert_holds_of fun hbad => hb.asserts _ hbad running hr
  intro _ hnone
  have hnone := osAssert_eq_ok.1 hnone
  split_ifs with hpos hst ht
  · apply Avoids.bind
    · exact hb.queueReceive hs hr hnone hpos hst.2 hst.1 rfl
    · exact fun _ _ => .pure
  · exact .pure
  · exact .pure
  · exact (hb.block hs he hr (.receive hnone (by omega) ht)).bind fun _ _ => .pure

theorem rwlockAcquireRead {x : RwlockId} (he : k.scheduled = none) (hr : k.running = some running)
    (ha : a = .svc (.rwlockAcquireRead x timeout)) :
    Avoids bad (osiRwlockAcquireRead k x timeout) := by
  subst ha
  unfold osiRwlockAcquireRead
  rw [Kernel.self_eq_ok.2 hr, ok_bind]
  apply Avoids.bind
  · exact osAssert_holds_of fun hbad => hb.asserts _ hbad running hr
  intro _ hp
  dsimp only
  split_ifs with hl ht
  · exact .pure
  · exact .pure
  · exact (hb.block hs he hr (.read (osAssert_eq_ok.1 hp) hl ht)).bind fun _ _ => .pure

theorem rwlockAcquireWrite {x : RwlockId} (he : k.scheduled = none)
    (hr : k.running = some running) (ha : a = .svc (.rwlockAcquireWrite x timeout)) :
    Avoids bad (osiRwlockAcquireWrite k x timeout) := by
  subst ha
  unfold osiRwlockAcquireWrite
  rw [Kernel.self_eq_ok.2 hr, ok_bind]
  apply Avoids.bind
  · exact osAssert_holds_of fun hbad => hb.asserts _ hbad running hr
  intro _ hp
  dsimp only
  split_ifs with hl ht
  · exact .pure
  · exact .pure
  · exact (hb.block hs he hr (.write (osAssert_eq_ok.1 hp) hl ht)).bind fun _ _ => .pure

omit hb in
theorem grantReaders {x : RwlockId} {o : Objects} {first previous : Option TaskId}
    (hc : Chain o.nblocked first l) (hlen : l.length ≤ n) : Avoids bad
      (grantReadersLoop x n { toSched := k.toSched, toObjects := o } previous first) := by
  induction l generalizing first previous n with
  | nil =>
    obtain rfl : first = none := hc
    cases n <;> exact .ok
  | cons b l ih =>
    obtain ⟨rfl, hl⟩ := chain_cons.1 hc
    cases n with
    | zero => simp at hlen
    | succ n =>
      unfold grantReadersLoop
      dsimp only
      split_ifs
      · obtain ⟨r, q, hq, hlr, hlw⟩ := hs.lengths
        apply (Avoids.of_returns (osiTaskStatusSet_idle_total_anywhere hq hlr hlw)).bind
        intro s _
        have hnone (f : TaskId → Option TaskId) : update f b none b = none :=
          Function.update_self ..
        simp only [Objects.setStackedReturn, hnone]
        cases n <;> exact .ok
      · exact ih hl (by simpa using hlen)

theorem rwlockRelease {x : RwlockId} (hr : k.running = some running)
    (ha : a = .svc (.rwlockRelease x)) : Avoids bad (osiRwlockRelease k x) := by
  subst ha
  unfold osiRwlockRelease
  rw [Kernel.self_eq_ok.2 hr, ok_bind]
  apply (osAssert_holds_of fun hbad => (hb.asserts _ hbad running hr).1).bind
  intro _ hh
  apply (osAssert_holds_of fun hbad => (hb.asserts _ hbad running hr).2).bind
  intro _ hw
  have hk : ({ k with rwlock := update k.rwlock x (k.rwlock x).drop } : Kernel) =
    { k with toObjects := k.dropRwlock x } := rfl
  simp only [Rwlock.drop_eq, hk]
  cases hfirst : k.blocked (.rwlock x) with
  | none => exact .pure
  | some y =>
    dsimp only
    split_ifs with hg
    · have hh : HandsOver k (.svc (.rwlockRelease x)) y ((k.dropRwlock x).grantWrite x y) :=
        .write hr (osAssert_eq_ok.1 hh) (osAssert_eq_ok.1 hw)
          (Objects.nextWriter_eq_some.2 ⟨hfirst, hg⟩)
      exact (hb.dispatchOrQueue hs hh).bind fun _ _ => .pure
    · obtain ⟨l, hl, hlen⟩ := hs.callable.listsEnd (.rwlock x)
      rw [hfirst] at hl
      have hloop : Avoids bad (grantReadersLoop x k.bound
          { toSched := k.toSched, toObjects := k.dropRwlock x } none (some y)) :=
        grantReaders hs hl hlen
      exact hloop.bind fun _ _ => .pure

theorem call {call : Svc} (he : k.scheduled = none) (hr : k.running = some running)
    (ha : a = .svc call) : Avoids bad (call.call k) := by
  cases call with
  | delay ms =>
    subst ha
    exact (hb.sleep (o := k.toObjects) hs he hr .delay).bind fun _ _ => .pure
  | abort => exact (hb.abort hs he hr ha).bind fun _ _ => .pure
  | mutexAcquire m timeout => exact (hb.mutexAcquire hs he hr ha).bind fun _ _ => .pure
  | mutexRelease m => exact (hb.mutexRelease hs hr ha).bind fun _ _ => .pure
  | semaphoreAcquire x timeout => exact (hb.semaphoreAcquire hs he hr ha).bind fun _ _ => .pure
  | semaphoreRelease x => exact (hb.semaphoreRelease hs hr ha).bind fun _ _ => .pure
  | queueEnqueue x message timeout => exact (hb.queueEnqueue hs he hr ha).bind fun _ _ => .pure
  | queueDequeue x timeout => exact (hb.queueDequeue hs he hr ha).bind fun _ _ => .pure
  | rwlockAcquireRead x timeout => exact (hb.rwlockAcquireRead hs he hr ha).bind fun _ _ => .pure
  | rwlockAcquireWrite x timeout =>
    exact (hb.rwlockAcquireWrite hs he hr ha).bind fun _ _ => .pure
  | rwlockRelease x => exact (hb.rwlockRelease hs hr ha).bind fun _ _ => .pure

theorem taskStart {priority params : Nat} (hr : k.running = some running)
    (ha : a = .taskStart t priority params) :
    Avoids bad (osTaskStartOptions k t priority params) := by
  subst ha
  apply (osAssert_holds_of fun hbad => (hb.asserts _ hbad running hr).1).bind
  intro _ _
  apply Avoids.bind
  · apply (osAssert_holds_of fun hbad => (hb.asserts _ hbad running hr).2.1).bind
    intro _ _
    exact (osAssert_holds_of fun hbad => (hb.asserts _ hbad running hr).2.2).bind fun _ _ => .pure
  intro o _
  obtain ⟨r, q, hq, hlr, hlw⟩ := hs.lengths
  have hl : Lists { k.toSched with
      delay := update k.delay t 0
      started := update k.started t k.uptime
      runtime := update k.runtime t 0
      scheduledAt := update k.scheduledAt t 0
      priority := update k.priority t (priority % 2 ^ 8)
      status := update k.status t .idle } r q := ⟨hq.run, hq.wait, hq.disjoint⟩
  apply (Avoids.of_returns (waitqueueRemove_total hl hlw)).bind
  intro s₁ h₁
  obtain ⟨hl₁, hs₁, -⟩ := waitqueueRemove_lists h₁ hl
  have hb₁ : s₁.bound = k.bound := congrArg (fun l => List.length l + 1) hs₁.rest.tasks
  apply (Avoids.of_returns (runqueueRemove_total hl₁ (hb₁ ▸ hlr))).bind
  intro s₂ h₂
  obtain ⟨hl₂, hs₂, -⟩ := runqueueRemove_lists h₂ hl₁
  have hb₂ : s₂.bound = k.bound :=
    (congrArg (fun l => List.length l + 1) hs₂.rest.tasks).trans hb₁
  have hst : s₂.status t = .idle := by
    rw [hs₂.status, hs₁.status]
    exact Function.update_self ..
  have hlen : (r.erase t).length ≤ s₂.bound := by
    rw [hb₂]
    exact (List.length_erase_le).trans hlr
  refine (Avoids.of_returns (runqueueAdd_total_anywhere hl₂ hlen ?_)).bind fun _ _ => .pure
  rw [hst]
  decide

/-- A step fails in none of the ways that it survives. -/
theorem run (he : a.Enabled k) : Avoids bad (a.run k) := by
  obtain ⟨running, hr⟩ := Option.ne_none_iff_exists'.1 hs.callable.running
  obtain ⟨r, q, hq, hlr, hlw⟩ := hs.lengths
  cases a with
  | svc call =>
    change Avoids bad (svcHandler k call)
    unfold svcHandler
    rw [Kernel.self_eq_ok.2 hr, ok_bind]
    exact (hb.call hs he hr rfl).bind fun _ _ => .pure
  | taskFinished =>
    apply Avoids.bind
    · unfold Osh.taskFinished
      rw [hr]
      apply (osAssert_holds_of fun hbad => (hb.asserts _ hbad running hr).1).bind
      intro _ _
      apply (osAssert_holds_of fun hbad => (hb.asserts _ hbad running hr).2).bind
      intro _ _
      exact .of_returns (osiTaskStatusSet_stopped_total hq.toLists hlr (.inl rfl))
    · exact fun _ _ => .pure
  | taskStart => exact hb.taskStart hs hr rfl
  | taskSuspend t =>
    apply Avoids.bind
    · apply Avoids.bind
      · exact osAssert_holds_of fun hbad => hb.asserts _ hbad running hr
      intro _ _
      exact .of_returns (osiTaskStatusSet_suspended_total hq.toLists hlr hlw)
    · exact fun _ _ => .pure
  | taskResume t =>
    apply Avoids.bind
    · apply Avoids.bind
      · exact osAssert_holds_of fun hbad => hb.asserts _ hbad running hr
      intro _ _
      exact .of_returns (osiTaskStatusSet_idle_total_anywhere hq hlr hlw)
    · exact fun _ _ => .pure
  | systick =>
    unfold Act.run osiIrsSystick
    dsimp only
    split_ifs with h
    · exact hb.schedule hs (.systick h)
    · exact .ok
  | schedule => exact hb.schedule hs .schedule
  | enqueueIsr x message => exact (hb.queueEnqueueIsr hs rfl).bind fun _ _ => .pure
  | contextSwitch => exact .ok
  | clock uptime micros => exact .ok

end Survives

end Osh
