import Osh.SchedRuns

namespace Osh
open Function (update)
open Lib

variable {k k' : Kernel} {s s' m : Sched} {t r : TaskId} {a : Act}
  {c : Prop}

abbrev Requeued (s s' : Sched) : Prop :=
  s' = { s with
    nrp := s'.nrp
    runqueue := s'.runqueue
    waitqueue := s'.waitqueue
    status := s'.status
    delay := s'.delay
    pendSv := s'.pendSv }

theorem Rethreaded.requeued (h : Rethreaded s s') : Requeued s s' := by
  rw [Requeued, h]

namespace Requeued

theorem trans (h : Requeued s m) (h' : Requeued m s') : Requeued s s' := by
  rw [Requeued, h', h]

theorem running (h : Requeued s s') : s'.running = s.running := by
  rw [h]

theorem scheduled (h : Requeued s s') : s'.scheduled = s.scheduled := by
  rw [h]

theorem priority (h : Requeued s s') : s'.priority = s.priority := by
  rw [h]

theorem idle (h : Requeued s s') : s'.idle = s.idle := by
  rw [h]

theorem tasks (h : Requeued s s') : s'.tasks = s.tasks := by
  rw [h]

theorem runtime (h : Requeued s s') : s'.runtime = s.runtime := by
  rw [h]

theorem scheduledAt (h : Requeued s s') : s'.scheduledAt = s.scheduledAt := by
  rw [h]

theorem set {new : TaskStatus} (h : osiTaskStatusSet s t new = .ok s') : Requeued s s' :=
  Requeued.trans (m := { s with status := update s.status t new }) rfl
    (osiTaskStatusSet_rethreaded h).requeued

theorem account (h : Requeued s s') :
    Requeued { dispatchAccount s r t with scheduled := some t }
      { dispatchAccount s' r t with scheduled := some t } := by
  rw [Requeued, h]
  simp only [dispatchAccount]
  split_ifs <;> rfl

end Requeued

/-- The scheduler dispatched at most one task `t`, instead of the running task `r`; it did so while
another task was scheduled only if `c`. -/
inductive Accounted (c : Prop) (s s' : Sched) : Prop
  | same (h : Requeued s s')
  | dispatched {r t : TaskId} (hs : s.scheduled = none ∨ c) (hr : s.running = some r) (hne : r ≠ t)
    (h : Requeued { dispatchAccount s r t with scheduled := some t } s')

theorem Requeued.accounted (h : Requeued s m) (h' : Accounted c m s') : Accounted c s s' := by
  cases h' with
  | same h' => exact .same (h.trans h')
  | dispatched hs hr hne h' =>
    rw [h.scheduled] at hs
    exact .dispatched hs (h.running.symm.trans hr) hne (h.account.trans h')

namespace Accounted

theorem requeued (h : Accounted c s m) (h' : Requeued m s') : Accounted c s s' := by
  cases h with
  | same h => exact .same (h.trans h')
  | dispatched hs hr hne h => exact .dispatched hs hr hne (h.trans h')

theorem mono {d : Prop} (h : Accounted c s s') (hc : c → d) : Accounted d s s' := by
  cases h with
  | same h => exact .same h
  | dispatched hs hr hne h => exact .dispatched (hs.imp_right hc) hr hne h

theorem priority (h : Accounted c s s') : s'.priority = s.priority := by
  cases h with
  | same h => exact h.priority
  | dispatched _ _ _ h => rw [h, dispatchAccount_eq]

theorem idle (h : Accounted c s s') : s'.idle = s.idle := by
  cases h with
  | same h => exact h.idle
  | dispatched _ _ _ h => rw [h, dispatchAccount_eq]

theorem tasks (h : Accounted c s s') : s'.tasks = s.tasks := by
  cases h with
  | same h => exact h.tasks
  | dispatched _ _ _ h => rw [h, dispatchAccount_eq]

end Accounted

theorem Dispatches.accounted (h : Dispatches k t k') (hs : k.scheduled = none ∨ c) :
    Accounted c k.toSched k'.toSched := by
  obtain ⟨r, o, s, hr, hne, -, hs', rfl⟩ := h
  refine .dispatched hs hr hne (Requeued.trans ?_ (dispatchSwitch_fields hs').requeued)
  simp only [Requeued, Sched.dispatched, dispatchAccount]
  split_ifs <;> rfl

theorem osiSchedule_accounted (h : osiSchedule k = .ok k') :
    Accounted c k.toSched k'.toSched := by
  rcases osiSchedule_cases h with rfl | ⟨r, s, new, -, -, hn, hw, -, hd⟩
  · exact .same rfl
  · have hs : Requeued k.toSched s := by
      rw [Requeued, wakeLoop_rethreaded hw]
    rcases hd with ⟨-, rfl⟩ | ⟨t, -, hd⟩
    · exact .same hs
    · exact hs.accounted (hd.accounted (.inl (hs.scheduled.trans hn)))

theorem Reschedules.accounted (h : Reschedules k s k') : Accounted c s k'.toSched := by
  rcases h with ⟨-, h⟩ | ⟨-, rfl⟩
  · exact osiSchedule_accounted h
  · exact .same rfl

theorem osiDispatchOrQueue_accounted (h : osiDispatchOrQueue k t = .ok k') :
    Accounted (k.running ≠ some t ∧ runqueueHasHigherPriority k.toSched t = .ok false)
      k.toSched k'.toSched := by
  rcases osiDispatchOrQueue_cases h with ⟨-, s, hs, hr⟩ | ⟨hh, hd⟩
  · refine Requeued.accounted ?_ hr.accounted
    rw [Requeued, hs.rethreaded]
  · rcases osiDispatch_eq_ok.1 hd with ⟨-, rfl⟩ | hd
    · exact .same rfl
    · exact hd.accounted (.inr ⟨hd.running_ne, hh⟩)

/-- The action hands something to a task other than the running one that no runnable task is
above. -/
def Act.Preempts (k : Kernel) (a : Act) : Prop :=
  ∃ t, a.grantee k.toObjects = some t ∧ k.running ≠ some t ∧
    runqueueHasHigherPriority k.toSched t = .ok false

/-- What a step does to the accounts: it dispatches at most one task, makes the switch, sets the
clock or restarts a task. -/
inductive Turn (k k' : Kernel) : Act → Prop
  | step {a : Act} (h : Accounted (a.Preempts k) k.toSched k'.toSched) : Turn k k' a
  | contextSwitch
    (h : k'.toSched =
      { k.toSched with running := k.scheduled, scheduled := none, pendSv := false }) :
    Turn k k' .contextSwitch
  | clock {uptime micros : Nat}
    (h : k'.toSched = { k.toSched with uptime := uptime % 2 ^ 32, micros := micros % 2 ^ 32 }) :
    Turn k k' (.clock uptime micros)
  | restart {t : TaskId} {priority params : Nat}
    (h : osTaskStartOptions k t priority params = .ok k') :
    Turn k k' (.taskStart t priority params)

theorem SchedEffect.turn (h : SchedEffect k k' a) : Turn k k' a := by
  cases h with
  | keep h => exact .step (.same (by rw [Requeued, h]))
  | sleep h hs =>
    obtain ⟨r, delay, s, -, -, hset, hr, -⟩ := svcDelay_cases h
    have hset' : Requeued k.toSched s := Requeued.trans rfl (.set hset)
    exact .step (hs ▸ hset'.accounted hr.accounted)
  | abort h hs =>
    obtain ⟨r, s, -, hset, hr, -⟩ := svcAbort_cases h
    exact .step (hs ▸ (Requeued.set hset).accounted hr.accounted)
  | @grant _ t o k₁ ht h hs =>
    have hk := osiDispatchOrQueue_accounted (k := { k with toObjects := o }) h
    exact .step ((hk.mono fun hh => ⟨t, ht, hh⟩).requeued (by rw [Requeued, hs]))
  | read _ h => exact .step (.same (.set h))
  | finish h =>
    obtain ⟨r, -, -, hset⟩ := taskFinished_cases h
    exact .step (.same (.set hset))
  | start h => exact .restart h
  | suspend h =>
    simp only [osTaskSuspend, bind_eq_ok] at h
    obtain ⟨_, -, hset⟩ := h
    exact .step (.same (.set hset))
  | resume h =>
    simp only [osTaskResume, bind_eq_ok] at h
    obtain ⟨_, -, hset⟩ := h
    exact .step (.same (.set hset))
  | schedule h => exact .step (osiSchedule_accounted h)
  | contextSwitch h => exact .contextSwitch h
  | clock h => exact .clock h

/-- Only a restart changes a priority, and no step makes another task the idle task. -/
theorem Turn.priority (h : Turn k k' a) (hr : ¬ a.restarts) :
    k'.priority = k.priority ∧ k'.idle = k.idle := by
  cases h with
  | step h => exact ⟨h.priority, h.idle⟩
  | contextSwitch h | clock h => exact ⟨by rw [h], by rw [h]⟩
  | restart => exact absurd rfl hr

theorem Turn.tasks (h : Turn k k' a) : k'.tasks = k.tasks := by
  cases h with
  | step h => exact h.tasks
  | contextSwitch h | clock h => rw [h]
  | restart h => exact (osTaskStartOptions_rethreaded h).tasks

end Osh
