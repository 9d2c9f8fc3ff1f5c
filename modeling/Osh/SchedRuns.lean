import Osh.Effects

namespace Osh
open Function (update)
open Lib

variable {k k' : Kernel} {s s' : Sched} {t : TaskId} {o : Objects} {a : Act} {c : Prop}
  {G : TaskStatus → Prop}

/-- The two queues are in order; if `c` holds, no runnable task is missing. -/
def Queued (c : Prop) (s : Sched) : Prop :=
  ∃ r w, Queues s r w ∧ (c → Complete s r w)

/-- The task that runs next: `osg.scheduled` if it is not null, and `osg.running` otherwise. -/
def Sched.next (s : Sched) : Option TaskId := s.scheduled.or s.running

theorem next_of_scheduled (h : s.scheduled = some t) : s.next = some t := by
  simp [Sched.next, h]

theorem next_of_none (h : s.scheduled = none) : s.next = s.running := by
  simp [Sched.next, h]

theorem Queued.of_eq (hq : Queued c s) (hr : s'.runqueue = s.runqueue)
    (hw : s'.waitqueue = s.waitqueue) (hn : s'.nrp = s.nrp) (hst : s'.status = s.status)
    (hp : s'.priority = s.priority)
    (hd : ∀ x, s.status x = .wait → s'.delay x = s.delay x) : Queued c s' := by
  obtain ⟨r, w, hq, hc⟩ := hq
  refine ⟨r, w, hq.congr ⟨?_, ?_, hq.disjoint⟩ hp (fun x hx => hd x ((hq.waiting x).1 hx))
    (fun x => by rw [hst]) (fun x => by rw [hst]), fun h => (hc h).congr (fun x _ _ => by rw [hn])
    fun x => by rw [hst]⟩
  · rw [hr, hn]; exact hq.run
  · rw [hw, hn]; exact hq.wait

theorem Queued.wait (hq : Queued c s) (h : osiTaskStatusSet s t .wait = .ok s')
    (ht : s.status t ≠ .wait) : Queued c s' := by
  obtain ⟨r, w, hq, hc⟩ := hq
  obtain ⟨hq', -, hc'⟩ := osiTaskStatusSet_wait h hq ht
  exact ⟨_, _, hq', fun h => hc' (hc h)⟩

theorem Queued.stopped {new : TaskStatus} (hq : Queued c s)
    (h : osiTaskStatusSet s t new = .ok s')
    (hnew : new = .finished ∨ new = .panic ∨ new = .aborted) (ht : s.status t ≠ .wait) :
    Queued c s' := by
  obtain ⟨r, w, hq, hc⟩ := hq
  obtain ⟨hq', -, hc'⟩ := osiTaskStatusSet_stopped h hnew hq ht
  exact ⟨_, _, hq', fun h => hc' (hc h)⟩

theorem Queued.suspended (hq : Queued c s) (h : osiTaskStatusSet s t .suspended = .ok s') :
    Queued c s' := by
  obtain ⟨r, w, hq, hc⟩ := hq
  obtain ⟨hq', -, hc'⟩ := osiTaskStatusSet_suspended h hq
  exact ⟨_, _, hq', fun h => hc' (hc h)⟩

theorem Queued.idle (hq : Queued c s) (h : osiTaskStatusSet s t .idle = .ok s')
    (ht : ¬ (s.status t).isRunning) : Queued c s' := by
  obtain ⟨r, w, hq, hc⟩ := hq
  obtain ⟨hq', -, hc'⟩ := osiTaskStatusSet_idle h hq (hq.notMem_run ht)
  exact ⟨_, _, hq', fun h => hc' (hc h)⟩

/-- A task that is made idle without a look at its status: it must not have another task behind
it in the run queue. -/
theorem Queued.read (hq : Queued c s) (h : osiTaskStatusSet s t .idle = .ok s')
    (ht : c → (s.status t).isRunning → s.nrp t = none) : Queued c s' := by
  obtain ⟨r, w, hq, hc⟩ := hq
  by_cases hr : t ∈ r
  · obtain ⟨x, y, rfl⟩ := List.append_of_mem hr
    obtain ⟨hq', hs'⟩ := osiTaskStatusSet_idle_mem h hq
    refine ⟨_, _, hq', fun h => ?_⟩
    have hn := ht h (hq.runnable t hr)
    obtain ⟨_, -, -, hy⟩ := hq.run.split
    obtain rfl := chain_none.1 (hn ▸ hy)
    refine (hc h).congr (fun z _ _ => ?_) fun z => ?_
    · rw [hs', ← hn, Function.update_eq_self]
    · rw [hs']
      exact isRunning_update (by rw [hq.runnable t hr]; rfl) z
  · obtain ⟨hq', -, hc'⟩ := osiTaskStatusSet_idle h hq hr
    exact ⟨_, _, hq', fun h => hc' (hc h)⟩

theorem Queued.makesRunnable (hq : Queued c s) (h : MakesRunnable s t s') : Queued c s' := by
  unfold MakesRunnable at h
  split_ifs at h with ht
  · exact h ▸ hq
  · exact hq.idle h ht

theorem Queued.dispatches (hq : Queued c k.toSched) (h : Dispatches k t k')
    (ht : c → (k.status t).isAlive) : Queued c k'.toSched := by
  obtain ⟨r, w, hq, hc⟩ := hq
  obtain ⟨running, o, s, -, hne, -, hs, rfl⟩ := h
  obtain ⟨hq', hc'⟩ := dispatchSwitch_queues hs hq hne
  exact ⟨_, _, hq', fun h => hc' (ht h) (hc h)⟩

theorem wakeExpired_cases (hq : Queued c s) (h : wakeExpired s = .ok s') :
    s' = s ∨ ∃ t, s.status t = .wait ∧ s.delay t ≤ s.uptime ∧
      osiTaskStatusSet s t .idle = .ok s' := by
  obtain ⟨r, w, hq, -⟩ := hq
  rcases wakeLoop_spec h hq.wait with he | ⟨t, ht, -, hd, hs⟩
  · exact .inl he
  · exact .inr ⟨t, (hq.waiting t).1 ht, hd, hs⟩

theorem Queued.wakes (hq : Queued c s) (h : wakeExpired s = .ok s') : Queued c s' := by
  rcases wakeExpired_cases hq h with rfl | ⟨t, ht, -, hs⟩
  · exact hq
  · exact hq.idle hs (by rw [ht]; decide)

theorem findNewTask_isRunning {running : TaskId} (h : findNewTask s running = .ok (some t)) :
    (s.status t).isAlive :=
  TaskStatus.isAlive_iff.2 (.inl (findNewTask_running h))

theorem Queued.schedule (hq : Queued c k.toSched) (h : osiSchedule k = .ok k') :
    Queued c k'.toSched := by
  rcases osiSchedule_cases h with rfl | ⟨running, s, new, -, -, -, hw, hn, ⟨-, rfl⟩ | ⟨t, rfl, hd⟩⟩
  · exact hq
  · exact hq.wakes hw
  · exact Queued.dispatches (hq.wakes hw) hd fun _ => findNewTask_isRunning hn

theorem Queued.reschedules (hq : Queued c s) (h : Reschedules k s k') : Queued c k'.toSched := by
  rcases h with ⟨-, h⟩ | ⟨-, rfl⟩
  · exact Queued.schedule hq h
  · exact hq

/-- A task may be handed something: it is alive, or it is the running task, or it has to wait for
a task of higher priority and so joins the run queue. -/
def Sched.GrantSafe (s : Sched) (t : TaskId) : Prop :=
  (s.status t).isAlive ∨ s.running = some t ∨
    ∃ x, (s.status x).isRunning ∧ s.priority x > s.priority t

theorem Queued.dispatchOrQueue (hq : Queued c k.toSched) (h : osiDispatchOrQueue k t = .ok k')
    (ht : c → k.GrantSafe t) : Queued c k'.toSched := by
  rcases osiDispatchOrQueue_cases h with ⟨-, s, hs, hr⟩ | ⟨hh, hd⟩
  · exact (hq.makesRunnable hs).reschedules hr
  · rcases osiDispatch_eq_ok.1 hd with ⟨-, rfl⟩ | hd
    · exact hq
    · apply hq.dispatches hd
      intro hc
      rcases ht hc with ha | hr | ⟨x, hx, hp⟩
      · exact ha
      · exact absurd hr hd.running_ne
      · -- a task of higher priority would have kept `t` from being dispatched
        obtain ⟨r, w, hq, hcomp⟩ := hq
        have hx' := (runqueueHasHigherPriority_spec hh hq).2 ⟨x, (hcomp hc).mem_run x hx, hp⟩
        cases hx'

/-- The fields of `t` as `os_task_start_options` sets them, before it moves `t` between queues. -/
def Sched.restarted (s : Sched) (t : TaskId) (priority : Nat) : Sched :=
  { s with
    delay := update s.delay t 0
    started := update s.started t s.uptime
    runtime := update s.runtime t 0
    scheduledAt := update s.scheduledAt t 0
    priority := update s.priority t (priority % 2 ^ 8)
    status := update s.status t .idle }

theorem osTaskStartOptions_sched {priority params : Nat}
    (h : osTaskStartOptions k t priority params = .ok k') :
    ¬ (k.status t).isRunning ∧ ∃ s₁ s₂, waitqueueRemove (k.restarted t priority) t = .ok s₁ ∧
      runqueueRemove s₁ t = .ok s₂ ∧ runqueueAdd s₂ t = .ok k'.toSched := by
  simp only [osTaskStartOptions, bind_eq_ok, osAssert_eq_ok, pure_eq_ok] at h
  obtain ⟨_, ⟨hi, ha⟩, o, -, s₁, h₁, s₂, h₂, s₃, h₃, rfl⟩ := h
  refine ⟨?_, s₁, s₂, h₁, h₂, h₃⟩
  cases hst : k.status t <;> simp_all [TaskStatus.isRunning]

theorem osTaskStartOptions_rethreaded {priority params : Nat}
    (h : osTaskStartOptions k t priority params = .ok k') :
    Rethreaded (k.restarted t priority) k'.toSched := by
  obtain ⟨-, s₁, s₂, h₁, h₂, h₃⟩ := osTaskStartOptions_sched h
  exact ((waitqueueRemove_rethreaded h₁).trans (runqueueRemove_rethreaded h₂)).trans
    (runqueueAdd_rethreaded h₃)

theorem Queued.start {priority params : Nat} (hq : Queued c k.toSched)
    (h : osTaskStartOptions k t priority params = .ok k') : Queued c k'.toSched := by
  obtain ⟨r, w, hq, hc⟩ := hq
  obtain ⟨hst, s₁, s₂, h₁, h₂, h₃⟩ := osTaskStartOptions_sched h
  have htr : t ∉ r := hq.notMem_run hst
  have hl : Lists (k.restarted t priority) r w := ⟨hq.run, hq.wait, hq.disjoint⟩
  obtain ⟨hl₁, hs₁, -⟩ := waitqueueRemove_lists h₁ hl
  obtain ⟨hl₂, hs₂, -⟩ := runqueueRemove_lists h₂ hl₁
  rw [List.erase_of_not_mem htr] at hl₂
  obtain ⟨hl₃, hs₃⟩ := runqueueAdd_lists h₃ hl₂ htr hq.nodup_wait.not_mem_erase
  have hr := (hs₁.trans hs₂).trans hs₃
  have hp : s₂.priority = update k.priority t (priority % 2 ^ 8) := (hs₁.trans hs₂).priority
  have hstatus : k'.status = update k.status t .idle := hr.status
  refine ⟨_, _, ⟨hl₃, ?_, ?_, fun x hx => ?_, fun x => ?_⟩, fun h => ⟨fun x hx => ?_, ?_⟩⟩
  · rw [hr.priority, hp]
    refine insertByPriority_sorted (hq.sorted.imp_of_mem fun ha hb hab => ?_)
    simp only [Sched.restarted]
    rw [Function.update_of_ne (ne_of_mem_of_not_mem ha htr),
      Function.update_of_ne (ne_of_mem_of_not_mem hb htr)]
    exact hab
  · have hd : k'.delay = update k.delay t 0 := hr.delay
    rw [hd]
    refine (hq.ordered.sublist List.erase_sublist).imp_of_mem fun ha hb hab => ?_
    have htw : t ∉ w.erase t := hq.nodup_wait.not_mem_erase
    rw [Function.update_of_ne (ne_of_mem_of_not_mem ha htw),
      Function.update_of_ne (ne_of_mem_of_not_mem hb htw)]
    exact hab
  · rw [hstatus, Function.update_apply]
    split_ifs with hxt
    · rfl
    · exact hq.runnable x ((mem_insertByPriority.1 hx).resolve_left hxt)
  · rw [hq.nodup_wait.mem_erase_iff, hstatus, hq.waiting, Function.update_apply]
    split_ifs with hxt <;> simp [hxt]
  · rw [hstatus, Function.update_apply] at hx
    rw [mem_insertByPriority]
    split_ifs at hx with hxt
    · exact .inl hxt
    · exact .inr ((hc h).mem_run x hx)
  · intro x hx hx'
    rw [mem_insertByPriority, not_or] at hx
    rw [List.mem_erase_of_ne hx.1] at hx'
    rw [hr.frame x (by simp [hx, hx'])]
    exact (hc h).unlinked x hx.2 hx'

/-- A step is safe for the queues when it hands nothing to a task that it would leave outside the
run queue, and lets no reader in that another task stands behind in the run queue. -/
structure Act.QueueSafe (k : Kernel) (a : Act) : Prop where
  grant : ∀ t, a.grantee k.toObjects = some t → k.GrantSafe t
  read : ∀ t, a.GrantsReader k.toObjects t → (k.status t).isRunning → k.nrp t = none

/-- The status `G` of the next task, which is not both running and scheduled. -/
structure NextInv (G : TaskStatus → Prop) (s : Sched) : Prop where
  status : ∀ t, s.next = some t → G (s.status t)
  apart : ∀ t, s.scheduled = some t → s.running ≠ some t

theorem taskFinished_cases (h : taskFinished s = .ok s') :
    ∃ running, s.running = some running ∧ s.status running = .active ∧
      osiTaskStatusSet s running .finished = .ok s' := by
  unfold taskFinished at h
  split at h
  · cases h
  · rename_i running hr
    simp only [bind_eq_ok, osAssert_eq_ok] at h
    obtain ⟨_, -, _, ha, h⟩ := h
    exact ⟨running, hr, ha, h⟩

theorem Queued.sleeps {delay : Nat} (hq : Queued c s) (hn : NextInv (· ≠ .wait) s)
    (hs : s.scheduled = none) (hr : s.running = some t)
    (h : osiTaskStatusSet { s with delay := update s.delay t delay } t .wait = .ok s') :
    Queued c s' := by
  have hw : s.status t ≠ .wait := hn.status t (by rw [next_of_none hs]; exact hr)
  refine Queued.wait ?_ h hw
  refine hq.of_eq rfl rfl rfl rfl rfl fun x hx => Function.update_of_ne ?_ _ _
  rintro rfl
  exact hw hx

theorem Queued.aborts (hq : Queued c s) (hn : NextInv (· ≠ .wait) s) (hs : s.scheduled = none)
    (hr : s.running = some t) (h : osiTaskStatusSet s t .aborted = .ok s') : Queued c s' :=
  hq.stopped h (.inr (.inr rfl)) (hn.status t (by rw [next_of_none hs]; exact hr))

/-- Every step keeps the two queues in order. -/
theorem Queued.step (hq : Queued c k.toSched) (hn : NextInv (· ≠ .wait) k.toSched)
    (h : SchedEffect k k' a) (he : a.Enabled k) (hs : c → a.QueueSafe k) :
    Queued c k'.toSched := by
  cases h with
  | keep h => rw [h]; exact hq.of_eq rfl rfl rfl rfl rfl fun _ _ => rfl
  | sleep h hs' =>
    rw [hs']
    obtain ⟨running, delay, s, hr, -, hset, hsched, -⟩ := svcDelay_cases h
    exact (hq.sleeps hn he hr hset).reschedules hsched
  | abort h hs' =>
    rw [hs']
    obtain ⟨running, s, hr, hset, hsched, -⟩ := svcAbort_cases h
    exact (hq.aborts hn he hr hset).reschedules hsched
  | @grant _ _ o _ ht h hs' =>
    rw [hs']
    have hq' := Queued.dispatchOrQueue (k := { k with toObjects := o }) hq h fun hc =>
      (hs hc).grant _ ht
    exact hq'.of_eq rfl rfl rfl rfl rfl fun _ _ => rfl
  | read ht h => exact hq.read h fun hc => (hs hc).read _ ht
  | finish h =>
    obtain ⟨running, hr, ha, h⟩ := taskFinished_cases h
    exact hq.stopped h (.inl rfl) (by rw [ha]; decide)
  | start h => exact hq.start h
  | suspend h =>
    simp only [osTaskSuspend, bind_eq_ok, osAssert_eq_ok] at h
    obtain ⟨_, -, h⟩ := h
    exact hq.suspended h
  | resume h =>
    simp only [osTaskResume, bind_eq_ok, osAssert_eq_ok] at h
    obtain ⟨_, ht, h⟩ := h
    exact hq.idle h (by rw [ht]; decide)
  | schedule h => exact hq.schedule h
  | contextSwitch h => rw [h]; exact hq.of_eq rfl rfl rfl rfl rfl fun _ _ => rfl
  | clock h => rw [h]; exact hq.of_eq rfl rfl rfl rfl rfl fun _ _ => rfl

section Next
variable (ha : G .active) (hw : ¬ G .wait)
include ha

theorem Dispatches.nextInv (h : Dispatches k t k') : NextInv G k'.toSched where
  status x hx := by
    rw [next_of_scheduled h.scheduled] at hx
    cases hx
    rw [h.status_self]
    exact ha
  apart x hx := by
    rw [h.scheduled] at hx
    cases hx
    rw [h.running]
    exact h.running_ne

omit ha in
theorem NextInv.setStatus {new : TaskStatus} (hn : NextInv G s)
    (h : osiTaskStatusSet s t new = .ok s') (ht : s.next = some t → G new) : NextInv G s' := by
  have hs := osiTaskStatusSet_rethreaded h
  have hnext : s'.next = s.next := by simp only [Sched.next, hs.scheduled, hs.running]
  have hstatus : s'.status = update s.status t new := hs.status
  constructor
  · intro x hx
    rw [hnext] at hx
    rw [hstatus, Function.update_apply]
    split_ifs with hxt
    · exact ht (hxt ▸ hx)
    · exact hn.status x hx
  · intro x hx
    rw [hs.scheduled] at hx
    rw [hs.running]
    exact hn.apart x hx

omit ha in
theorem NextInv.of_eq (hn : NextInv G s) (hr : s'.running = s.running)
    (hs : s'.scheduled = s.scheduled) (hst : s'.status = s.status) : NextInv G s' where
  status x hx := by
    rw [hst]
    exact hn.status x (by simpa only [Sched.next, hr, hs] using hx)
  apart x hx := by
    rw [hr]
    exact hn.apart x (hs ▸ hx)

omit ha in
include hw in
theorem NextInv.wakes (hn : NextInv G s) (hq : Queued c s) (h : wakeExpired s = .ok s') :
    NextInv G s' := by
  rcases wakeExpired_cases hq h with rfl | ⟨t, ht, -, hs⟩
  · exact hn
  · refine hn.setStatus hs fun he => absurd (hn.status t he) ?_
    rwa [ht]

include hw in
theorem NextInv.schedule (hn : NextInv G k.toSched) (hq : Queued c k.toSched)
    (h : osiSchedule k = .ok k') : NextInv G k'.toSched := by
  rcases osiSchedule_cases h with rfl | ⟨running, s, new, -, -, -, hwk, -, ⟨-, rfl⟩ | ⟨t, -, hd⟩⟩
  · exact hn
  · exact hn.wakes hw hq hwk
  · exact hd.nextInv ha

include hw in
theorem NextInv.reschedules (hn : NextInv G s) (hq : Queued c s) (h : Reschedules k s k') :
    NextInv G k'.toSched := by
  rcases h with ⟨-, h⟩ | ⟨-, rfl⟩
  · exact NextInv.schedule (k := { k with toSched := s }) ha hw hn hq h
  · exact hn

theorem Reschedules.nextInv (h : Reschedules k s k') (hs : s.scheduled = none)
    (hk : k.scheduled = none) (hk' : k'.scheduled ≠ none) : NextInv G k'.toSched := by
  rcases h with ⟨-, h⟩ | ⟨hn, -⟩
  · rcases osiSchedule_cases h with rfl | ⟨running, s₁, new, -, -, -, hw, -, ⟨-, rfl⟩ | ⟨t, -, hd⟩⟩
    · exact absurd hs hk'
    · exact absurd ((wakeLoop_rethreaded hw).scheduled.trans hs) hk'
    · exact hd.nextInv ha
  · exact absurd hk hn

include hw in
theorem NextInv.dispatchOrQueue (hn : NextInv G k.toSched) (hq : Queued c k.toSched)
    (h : osiDispatchOrQueue k t = .ok k') (ht : k.next = some t → G .idle) :
    NextInv G k'.toSched := by
  rcases osiDispatchOrQueue_cases h with ⟨-, s, hs, hr⟩ | ⟨-, hd⟩
  · refine NextInv.reschedules ha hw ?_ (hq.makesRunnable hs) hr
    unfold MakesRunnable at hs
    split_ifs at hs
    · exact hs ▸ hn
    · exact hn.setStatus hs ht
  · rcases osiDispatch_eq_ok.1 hd with ⟨-, rfl⟩ | hd
    · exact hn
    · exact hd.nextInv ha

end Next

def Act.Sets (k : Kernel) (t : TaskId) (new : TaskStatus) : Act → Prop
  | .taskFinished => k.running = some t ∧ new = .finished
  | .taskStart task _ _ | .taskResume task => t = task ∧ new = .idle
  | .taskSuspend task => t = task ∧ new = .suspended
  | a => (a.grantee k.toObjects = some t ∨ a.GrantsReader k.toObjects t) ∧ new = .idle

theorem Act.sets_of_grantee (h : a.grantee k.toObjects = some t) : a.Sets k t .idle := by
  cases a <;> first | exact ⟨.inl h, rfl⟩ | cases h

theorem Act.sets_of_grantsReader (h : a.GrantsReader k.toObjects t) : a.Sets k t .idle := by
  cases a <;> first | exact ⟨.inr h, rfl⟩ | cases h

/-- Every step keeps the status of the next task in `G`, if no action writes another one to it. -/
theorem NextInv.step (hn : NextInv G k.toSched) (hq : Queued c k.toSched)
    (h : SchedEffect k k' a) (he : a.Enabled k) (ha : G .active) (hw : ¬ G .wait)
    (hset : ∀ t new, a.Sets k t new → k.next = some t → G new) : NextInv G k'.toSched := by
  cases h with
  | keep h => rw [h]; exact hn.of_eq rfl rfl rfl
  | sleep h hs' =>
    rw [hs']
    obtain ⟨running, delay, s, -, -, hsl, hsched, hne⟩ := svcDelay_cases h
    exact hsched.nextInv ha ((osiTaskStatusSet_rethreaded hsl).scheduled.trans he) he hne
  | abort h hs' =>
    rw [hs']
    obtain ⟨running, s, -, hsl, hsched, hne⟩ := svcAbort_cases h
    exact hsched.nextInv ha ((osiTaskStatusSet_rethreaded hsl).scheduled.trans he) he hne
  | @grant _ t o _ ht h hs' =>
    rw [hs']
    have hn' := NextInv.dispatchOrQueue (k := { k with toObjects := o }) ha hw hn hq h
      (hset t .idle (Act.sets_of_grantee ht))
    exact hn'.of_eq rfl rfl rfl
  | read ht h => exact hn.setStatus h (hset _ _ (Act.sets_of_grantsReader ht))
  | finish h =>
    obtain ⟨running, hr, -, h⟩ := taskFinished_cases h
    exact hn.setStatus h (hset _ _ ⟨hr, rfl⟩)
  | @start t priority params h =>
    have hs := osTaskStartOptions_rethreaded h
    have hst : k'.status = update k.status t .idle := hs.status
    have hnext : k'.next = k.next := by
      simp only [Sched.next, hs.scheduled, hs.running]
      rfl
    constructor
    · intro x hx
      rw [hnext] at hx
      rw [hst, Function.update_apply]
      split_ifs with hxt
      · exact hset x _ ⟨hxt, rfl⟩ hx
      · exact hn.status x hx
    · intro x hx
      rw [hs.scheduled] at hx
      rw [hs.running]
      exact hn.apart x hx
  | suspend h =>
    simp only [osTaskSuspend, bind_eq_ok, osAssert_eq_ok] at h
    obtain ⟨_, -, h⟩ := h
    exact hn.setStatus h (hset _ _ ⟨rfl, rfl⟩)
  | resume h =>
    simp only [osTaskResume, bind_eq_ok, osAssert_eq_ok] at h
    obtain ⟨_, -, h⟩ := h
    exact hn.setStatus h (hset _ _ ⟨rfl, rfl⟩)
  | schedule h => exact hn.schedule ha hw hq h
  | contextSwitch h =>
    obtain ⟨t, ht⟩ := Option.ne_none_iff_exists'.1 he
    rw [h]
    refine ⟨fun x hx => hn.status x ?_, fun x hx => ?_⟩
    · rw [next_of_scheduled ht, ← ht]
      exact hx
    · cases hx
  | clock h => rw [h]; exact hn.of_eq rfl rfl rfl

end Osh
