import Osh.SchedRuns

namespace Osh
open Function (update)
open Lib

variable {k k' : Kernel} {s s' m : Sched} {t x : TaskId} {a : Act} {c : Prop}

/-- What a run of the scheduler does to the task `x`: nothing, or it takes the processor from `x`,
wakes `x` or dispatches it. -/
inductive Shifted (s s' : Sched) (x : TaskId) : Prop
  | stays (hst : s'.status x = s.status x) (hd : s'.delay x = s.delay x)
    (hr : s'.running = s.running) (hs : s'.scheduled = some x → s.scheduled = some x)
  | preempted (hr : s.running = some x) (hst : s'.status x = (s.status x).preempted)
    (hd : s'.delay x = s.delay x) (hs : s'.scheduled ≠ some x)
  | woken (ht : s.status x = .wait) (hst : s'.status x = .idle)
    (hs : s'.scheduled = some x → s.scheduled = some x)
  | dispatched (ht : (s.status x).isAlive) (hst : s'.status x = .active)
    (hs : s'.scheduled = some x)

theorem wakeExpired_status (hq : Queued c s) (h : wakeExpired s = .ok s') (x : TaskId) :
    s'.status x = s.status x ∨ s.status x = .wait ∧ s'.status x = .idle := by
  rcases wakeExpired_cases hq h with rfl | ⟨t, ht, -, hset⟩
  · exact .inl rfl
  · have hst : s'.status = update s.status t .idle := (osiTaskStatusSet_rethreaded hset).status
    rw [hst]
    by_cases hx : x = t
    · exact .inr ⟨hx ▸ ht, by rw [hx, Function.update_self]⟩
    · exact .inl (Function.update_of_ne hx ..)

namespace Shifted

theorem of_same (h : Shifted m s' x) (hst : m.status x = s.status x)
    (hd : m.delay x = s.delay x) (hr : m.running = s.running) (hs : m.scheduled = s.scheduled) :
    Shifted s s' x := by
  cases h with
  | stays hst' hd' hr' hs' =>
    exact .stays (hst'.trans hst) (hd'.trans hd) (hr'.trans hr) fun h => hs ▸ hs' h
  | preempted hr' hst' hd' hs' =>
    exact .preempted (hr ▸ hr') (hst ▸ hst') (hd'.trans hd) hs'
  | woken ht hst' hs' => exact .woken (hst ▸ ht) hst' fun h => hs ▸ hs' h
  | dispatched ht hst' hs' => exact .dispatched (hst ▸ ht) hst' hs'

theorem pendSv (h : Shifted s m x) (pending : Bool) : Shifted s { m with pendSv := pending } x := by
  cases h with
  | stays hst hd hr hs => exact .stays hst hd hr hs
  | preempted hr hst hd hs => exact .preempted hr hst hd hs
  | woken ht hst hs => exact .woken ht hst hs
  | dispatched ht hst hs => exact .dispatched ht hst hs

theorem set {new : TaskStatus} (h : osiTaskStatusSet s t new = .ok s') (hx : x ≠ t) :
    Shifted s s' x := by
  have hs := osiTaskStatusSet_rethreaded h
  have hst : s'.status = update s.status t new := hs.status
  refine .stays ?_ (congrFun hs.delay x) hs.running fun h => hs.scheduled ▸ h
  rw [hst, Function.update_of_ne hx]

theorem dispatches (h : Dispatches k t k') (hx : x ≠ t) : Shifted k.toSched k'.toSched x := by
  have hd : k'.delay x = k.delay x := by rw [h.delay, Function.update_of_ne hx]
  have hs : k'.scheduled ≠ some x := by
    rw [h.scheduled]
    exact fun he => hx (Option.some.inj he).symm
  have hst := h.status_of_ne hx
  split_ifs at hst with hr
  · exact .preempted hr hst hd hs
  · exact .stays hst hd h.running fun he => absurd he hs

theorem schedule (hq : Queued c k.toSched) (h : osiSchedule k = .ok k') :
    Shifted k.toSched k'.toSched x := by
  rcases osiSchedule_cases h with rfl | ⟨r, s, new, -, -, -, hw, hn, hd⟩
  · exact .stays rfl rfl rfl id
  · have hs := wakeLoop_rethreaded hw
    have hdelay : s.delay = k.delay := hs.delay
    rcases hd with ⟨-, rfl⟩ | ⟨t, rfl, hd⟩
    · rcases wakeExpired_status hq hw x with hst | ⟨ht, hst⟩
      · exact .stays hst (congrFun hdelay x) hs.running fun h => hs.scheduled ▸ h
      · exact .woken ht hst fun h => hs.scheduled ▸ h
    · by_cases hx : x = t
      · subst hx
        refine .dispatched ?_ hd.status_self hd.scheduled
        rcases wakeExpired_status hq hw x with hst | ⟨ht, -⟩
        · exact hst ▸ findNewTask_isRunning hn
        · rw [ht]
          rfl
      · have hdisp := Shifted.dispatches hd hx
        rcases wakeExpired_status hq hw x with hst | ⟨ht, hst⟩
        · exact hdisp.of_same hst (congrFun hdelay x) hs.running hs.scheduled
        · -- a task that was woken is idle, also after it was preempted
          refine .woken ht ?_ fun h => absurd (Option.some.inj (hd.scheduled.symm.trans h)).symm hx
          have hst' := hd.status_of_ne hx
          dsimp only at hst'
          rw [hst', hst]
          split_ifs <;> rfl

theorem reschedules (hq : Queued c s) (h : Reschedules k s k') : Shifted s k'.toSched x := by
  rcases h with ⟨-, h⟩ | ⟨-, rfl⟩
  · exact Shifted.schedule (k := { k with toSched := s }) hq h
  · exact .stays rfl rfl rfl id

theorem dispatchOrQueue (hq : Queued c k.toSched) (h : osiDispatchOrQueue k t = .ok k')
    (hx : x ≠ t) : Shifted k.toSched k'.toSched x := by
  rcases osiDispatchOrQueue_cases h with ⟨-, s, hm, hr⟩ | ⟨-, hd⟩
  · have hs := hm.rethreaded
    refine (Shifted.reschedules (hq.makesRunnable hm) hr).of_same ?_ (congrFun hs.delay x)
      hs.running hs.scheduled
    unfold MakesRunnable at hm
    split_ifs at hm
    · rw [hm]
    · have hst : s.status = update k.status t .idle := (osiTaskStatusSet_rethreaded hm).status
      rw [hst, Function.update_of_ne hx]
  · rcases osiDispatch_eq_ok.1 hd with ⟨-, rfl⟩ | hd
    · exact .stays rfl rfl rfl id
    · exact .dispatches hd hx

theorem of_wait (h : Shifted s s' x) (hx : s'.status x = .wait) :
    s.status x = .wait ∧ s'.delay x = s.delay x := by
  cases h with
  | stays hst hd => exact ⟨hst ▸ hx, hd⟩
  | preempted _ hst hd => exact ⟨TaskStatus.preempted_eq_wait.1 (hst ▸ hx), hd⟩
  | woken _ hst | dispatched _ hst => cases hst.symm.trans hx

end Shifted

/-- What a step does to the task `x`: the scheduler runs, maybe after a status was written to `x`,
or `x` ends, is suspended or takes part in a switch. -/
inductive TaskEffect (k k' : Kernel) (x : TaskId) : Act → Prop
  | shifted {a : Act} (h : Shifted k.toSched k'.toSched x) : TaskEffect k k' x a
  | leaves {call : Svc} {s : Sched} (hr : k.running = some x)
    (hst : s.status x = .wait ∨ s.status x = .aborted) (hs : s.scheduled = k.scheduled)
    (h : Shifted s k'.toSched x) : TaskEffect k k' x (.svc call)
  | readied {a : Act} {s : Sched} (hset : a.Sets k x .idle) (hst : s.status x = .idle)
    (hs : s.scheduled = k.scheduled) (h : Shifted s k'.toSched x) : TaskEffect k k' x a
  | granted {a : Act} (ht : a.grantee k.toObjects = some x) (hst : k'.status x = .active)
    (hs : k'.scheduled = some x) : TaskEffect k k' x a
  | finished (hr : k.running = some x) (ha : k.status x = .active)
    (hst : k'.status x = .finished) (hs : k'.scheduled = k.scheduled) :
    TaskEffect k k' x .taskFinished
  | suspended (hst : k'.status x = .suspended) (hs : k'.scheduled = k.scheduled) :
    TaskEffect k k' x (.taskSuspend x)
  | switched (hst : k'.status x = k.status x) (hd : k'.delay x = k.delay x)
    (hr : k'.running = k.scheduled) (hs : k'.scheduled = none) :
    TaskEffect k k' x .contextSwitch

namespace TaskEffect

theorem of_leaves {k₁ k₂ : Kernel} {call : Svc} {new : TaskStatus} {delay : TaskId → Nat}
    (hq : Queued c s) (hr : k.running = some t)
    (hset : osiTaskStatusSet { k.toSched with delay := delay } t new = .ok s)
    (hnew : new = .wait ∨ new = .aborted) (hd : ∀ x, x ≠ t → delay x = k.delay x)
    (hres : Reschedules k₁ s k₂) (hk : k'.toSched = k₂.toSched) :
    TaskEffect k k' x (.svc call) := by
  have hs := osiTaskStatusSet_rethreaded hset
  have hst : s.status = update k.status t new := hs.status
  have hm : Shifted s k'.toSched x := by
    rw [hk]
    exact .reschedules hq hres
  by_cases hx : x = t
  · refine .leaves (hx ▸ hr) ?_ hs.scheduled hm
    rwa [hst, hx, Function.update_self]
  · refine .shifted (hm.of_same ?_ ((congrFun hs.delay x).trans (hd x hx)) hs.running hs.scheduled)
    rw [hst, Function.update_of_ne hx]

theorem of_idle (hset : osiTaskStatusSet k.toSched t .idle = .ok k'.toSched)
    (ha : a.Sets k t .idle) : TaskEffect k k' x a := by
  by_cases hx : x = t
  · have hs := osiTaskStatusSet_rethreaded hset
    have hst : k'.status = update k.status t .idle := hs.status
    refine .readied (s := k'.toSched) (hx ▸ ha) ?_ hs.scheduled (.stays rfl rfl rfl id)
    rw [hst, hx, Function.update_self]
  · exact .shifted (.set hset hx)

theorem of_grant {k₁ : Kernel} {o : Objects} (hq : Queued c k.toSched)
    (ht : a.grantee k.toObjects = some t)
    (h : osiDispatchOrQueue { k with toObjects := o } t = .ok k₁)
    (hk : k'.toSched = { k₁.toSched with pendSv := k'.pendSv }) : TaskEffect k k' x a := by
  have hshift {s : Sched} (hm : Shifted s k₁.toSched x) : Shifted s k'.toSched x := by
    rw [hk]
    exact hm.pendSv _
  by_cases hx : x = t
  · subst hx
    rcases osiDispatchOrQueue_cases h with ⟨-, s, hm, hr⟩ | ⟨-, hd⟩
    · have hm' := hshift (.reschedules (hq.makesRunnable hm) hr)
      unfold MakesRunnable at hm
      split_ifs at hm
      · exact .shifted (hm ▸ hm')
      · have hs := osiTaskStatusSet_rethreaded hm
        have hst : s.status = update k.status x .idle := hs.status
        refine .readied (Act.sets_of_grantee ht) ?_ hs.scheduled hm'
        rw [hst, Function.update_self]
    · rcases osiDispatch_eq_ok.1 hd with ⟨-, rfl⟩ | hd
      · exact .shifted (hshift (.stays rfl rfl rfl id))
      · refine .granted ht ?_ ?_
        · rw [hk]
          exact hd.status_self
        · rw [hk]
          exact hd.scheduled
  · exact .shifted (hshift (Shifted.dispatchOrQueue (k := { k with toObjects := o }) hq h hx))

end TaskEffect

/-- Every step has one of these effects on every task. -/
theorem SchedEffect.task (h : SchedEffect k k' a) (hq : Queued c k.toSched)
    (hn : NextInv (· ≠ .wait) k.toSched) (he : a.Enabled k) (x : TaskId) :
    TaskEffect k k' x a := by
  cases h with
  | keep h | clock h => exact .shifted (.stays (by rw [h]) (by rw [h]) (by rw [h]) fun hx => by
      rwa [h] at hx)
  | sleep h hs =>
    obtain ⟨r, delay, s, hr, -, hset, hsched, -⟩ := svcDelay_cases h
    exact .of_leaves (hq.sleeps hn he hr hset) hr hset (.inl rfl)
      (fun y hy => Function.update_of_ne hy ..) hsched hs
  | abort h hs =>
    obtain ⟨r, s, hr, hset, hsched, -⟩ := svcAbort_cases h
    exact .of_leaves (hq.aborts hn he hr hset) hr hset (.inr rfl) (fun _ _ => rfl) hsched hs
  | grant ht h hs => exact .of_grant hq ht h hs
  | read ht h => exact .of_idle h (Act.sets_of_grantsReader ht)
  | finish h =>
    obtain ⟨r, hr, ha, hset⟩ := taskFinished_cases h
    have hs := osiTaskStatusSet_rethreaded hset
    have hst : k'.status = update k.status r .finished := hs.status
    by_cases hx : x = r
    · exact .finished (hx ▸ hr) (hx ▸ ha) (by rw [hst, hx, Function.update_self]) hs.scheduled
    · exact .shifted (.set hset hx)
  | @start t _ _ h =>
    have hs := osTaskStartOptions_rethreaded h
    have hst : k'.status = update k.status t .idle := hs.status
    have hd : k'.delay = update k.delay t 0 := hs.delay
    by_cases hx : x = t
    · refine .readied (s := k'.toSched) ⟨hx, rfl⟩ ?_ hs.scheduled (.stays rfl rfl rfl id)
      rw [hst, hx, Function.update_self]
    · refine .shifted (.stays ?_ ?_ hs.running fun h => hs.scheduled ▸ h)
      · rw [hst, Function.update_of_ne hx]
      · rw [hd, Function.update_of_ne hx]
  | @suspend t h =>
    simp only [osTaskSuspend, bind_eq_ok, osAssert_eq_ok] at h
    obtain ⟨_, -, hset⟩ := h
    have hs := osiTaskStatusSet_rethreaded hset
    have hst : k'.status = update k.status t .suspended := hs.status
    by_cases hx : x = t
    · subst hx
      exact .suspended (by rw [hst, Function.update_self]) hs.scheduled
    · exact .shifted (.set hset hx)
  | resume h =>
    simp only [osTaskResume, bind_eq_ok, osAssert_eq_ok] at h
    obtain ⟨_, -, hset⟩ := h
    exact .of_idle hset ⟨rfl, rfl⟩
  | schedule h => exact .shifted (.schedule hq h)
  | contextSwitch h => exact .switched (by rw [h]) (by rw [h]) (by rw [h]) (by rw [h])

theorem Shifted.of_scheduled (h : Shifted s s' x) (hx : s'.scheduled = some x) :
    s.scheduled = some x ∨ s'.status x = .active := by
  cases h with
  | stays _ _ _ hs | woken _ _ hs => exact .inl (hs hx)
  | preempted _ _ _ hs => exact absurd hx hs
  | dispatched _ hst => exact .inr hst

theorem TaskEffect.dispatched (h : TaskEffect k k' x a) (hx : k'.scheduled = some x) :
    k.scheduled = some x ∨ k'.status x = .active := by
  cases h with
  | shifted h => exact h.of_scheduled hx
  | leaves _ _ hs h | readied _ _ hs h => exact hs ▸ h.of_scheduled hx
  | granted _ hst => exact .inr hst
  | finished _ _ _ hs | suspended _ hs => exact .inl (hs ▸ hx)
  | switched _ _ _ hs => cases hs.symm.trans hx

/-- A task sleeps after a step if it slept before, with the same deadline, or went to sleep in a
call. -/
theorem TaskEffect.of_wait (h : TaskEffect k k' x a) (hx : k'.status x = .wait) :
    k.status x = .wait ∧ k'.delay x = k.delay x ∨ a.isCall ∧ k.running = some x := by
  cases h with
  | shifted h => exact .inl (h.of_wait hx)
  | leaves hr => exact .inr ⟨rfl, hr⟩
  | readied _ hst _ h => cases hst.symm.trans (h.of_wait hx).1
  | granted _ hst | finished _ _ hst | suspended hst => cases hst.symm.trans hx
  | switched hst hd => exact .inl ⟨hst ▸ hx, hd⟩

end Osh
