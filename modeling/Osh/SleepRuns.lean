import Osh.DelayRuns
import Osh.WaitHistory

namespace Osh
open Function (update)
open Lib

variable {k k' k₀ k₁ : Kernel} {s s' : Sched} {t x : TaskId} {a : Act} {call : Svc} {ms : Nat}
  {c : Prop} {w : Waitable}

def Svc.timeout : Svc → Option Nat
  | .delay ms => some ms
  | .mutexAcquire _ timeout | .semaphoreAcquire _ timeout | .queueEnqueue _ _ timeout
  | .queueDequeue _ timeout | .rwlockAcquireRead _ timeout | .rwlockAcquireWrite _ timeout =>
    some timeout
  | _ => none

/-- Why a step ends the sleep of `t`. -/
inductive Awakens (k : Kernel) (t : TaskId) (a : Act) : Prop
  | due (h : k.Due t)
  | granted (h : a.grantee k.toObjects = some t ∨ a.GrantsReader k.toObjects t)
  | started {priority params : Nat} (h : a = .taskStart t priority params)

section Wakes

theorem wakeExpired_due (hq : Queued c s) (h : wakeExpired s = .ok s') (ht : s.status x = .wait)
    (hx : s'.status x ≠ .wait) : s.Due x := by
  obtain ⟨r, w, hq, -⟩ := hq
  rcases wakeLoop_spec h hq.wait with rfl | ⟨y, -, hmax, hle, hset⟩
  · exact absurd ht hx
  · have hst : s'.status = update s.status y .idle := (osiTaskStatusSet_rethreaded hset).status
    by_cases hxy : x = y
    · subst hxy
      exact ⟨hmax, hle⟩
    · rw [hst, Function.update_of_ne hxy] at hx
      exact absurd ht hx

theorem osiSchedule_due (hq : Queued c k.toSched) (h : osiSchedule k = .ok k')
    (ht : k.status x = .wait) (hx : k'.status x ≠ .wait) : k.Due x := by
  rcases osiSchedule_cases h with rfl | ⟨r, s, new, -, -, -, hw, hn, hd⟩
  · exact absurd ht hx
  · apply wakeExpired_due hq hw ht
    rcases hd with ⟨-, rfl⟩ | ⟨y, rfl, hd⟩
    · exact hx
    · intro hs
      by_cases hxy : x = y
      · -- the task that is found is runnable
        subst hxy
        have hrun := findNewTask_running hn
        rw [hs] at hrun
        cases hrun
      · have hst := hd.status_of_ne hxy
        rw [hst] at hx
        split_ifs at hx
        · exact hx (TaskStatus.preempted_eq_wait.2 hs)
        · exact hx hs

theorem Reschedules.due (h : Reschedules k s k') (hq : Queued c s) (ht : s.status x = .wait)
    (hx : k'.status x ≠ .wait) : s.Due x := by
  rcases h with ⟨-, h⟩ | ⟨-, rfl⟩
  · exact osiSchedule_due (k := { k with toSched := s }) hq h ht hx
  · exact absurd ht hx

theorem osiDispatchOrQueue_due (hq : Queued c k.toSched) (h : osiDispatchOrQueue k t = .ok k')
    (hxt : x ≠ t) (ht : k.status x = .wait) (hx : k'.status x ≠ .wait) : k.Due x := by
  rcases osiDispatchOrQueue_cases h with ⟨-, s, hm, hr⟩ | ⟨-, hd⟩
  · have hs := hm.rethreaded
    have hst : s.status x = k.status x := by
      unfold MakesRunnable at hm
      split_ifs at hm
      · rw [hm]
      · have hset : s.status = update k.status t .idle := (osiTaskStatusSet_rethreaded hm).status
        rw [hset, Function.update_of_ne hxt]
    have hdue := hr.due (hq.makesRunnable hm) (hst.trans ht) hx
    have hdelay : s.delay = k.delay := hs.delay
    have huptime : s.uptime = k.uptime := by rw [hs]
    unfold Sched.Due at hdue ⊢
    rwa [hdelay, huptime] at hdue
  · rcases osiDispatch_eq_ok.1 hd with ⟨-, rfl⟩ | hd
    · exact absurd ht hx
    · have hst := hd.status_of_ne hxt
      rw [hst] at hx
      split_ifs at hx
      · exact absurd (TaskStatus.preempted_eq_wait.2 ht) hx
      · exact absurd ht hx

theorem Reschedules.due_of_set {new : TaskStatus} {delay : TaskId → Nat} {k₂ : Kernel}
    (h : Reschedules k₂ s k')
    (hset : osiTaskStatusSet { k.toSched with delay := delay } t new = .ok s) (hq : Queued c s)
    (hd : delay x = k.delay x) (hxt : x ≠ t) (ht : k.status x = .wait)
    (hx : k'.status x ≠ .wait) : k.Due x := by
  have hs := osiTaskStatusSet_rethreaded hset
  have hst : s.status = update k.status t new := hs.status
  have hdue := h.due hq (by rw [hst, Function.update_of_ne hxt, ht]) hx
  have hdelay : s.delay = delay := hs.delay
  have huptime : s.uptime = k.uptime := by rw [hs]
  unfold Sched.Due at hdue ⊢
  rwa [hdelay, huptime, hd] at hdue

/-- A step that ends the sleep of a task has a reason to. -/
theorem SchedEffect.awakens (h : SchedEffect k k' a) (hq : Queued c k.toSched)
    (hn : NextInv (· ≠ .wait) k.toSched) (he : a.Enabled k) (ht : k.status x = .wait)
    (hx : k'.status x ≠ .wait) : Awakens k x a := by
  have hother {y : TaskId} {new : TaskStatus} (hset : osiTaskStatusSet k.toSched y new =
      .ok k'.toSched) : x = y := by
    by_contra hxy
    have hst : k'.status = update k.status y new := (osiTaskStatusSet_rethreaded hset).status
    rw [hst, Function.update_of_ne hxy] at hx
    exact hx ht
  cases h with
  | keep h | contextSwitch h | clock h =>
    rw [h] at hx
    exact absurd ht hx
  | sleep h hs =>
    obtain ⟨r, delay, s, hr, -, hset, hsched, -⟩ := svcDelay_cases h
    have hxr : x ≠ r := by
      rintro rfl
      exact hn.status x ((next_of_none he).trans hr) ht
    rw [hs] at hx
    exact .due (hsched.due_of_set (k := k) hset (hq.sleeps hn he hr hset)
      (Function.update_of_ne hxr ..) hxr ht hx)
  | abort h hs =>
    obtain ⟨r, s, hr, hset, hsched, -⟩ := svcAbort_cases h
    have hxr : x ≠ r := by
      rintro rfl
      exact hn.status x ((next_of_none he).trans hr) ht
    rw [hs] at hx
    exact .due (hsched.due_of_set (k := k) hset (hq.aborts hn he hr hset) rfl hxr ht hx)
  | @grant _ y o k₂ hy h hs =>
    rw [hs] at hx
    by_cases hxy : x = y
    · exact .granted (.inl (hxy ▸ hy))
    · exact .due (osiDispatchOrQueue_due (k := { k with toObjects := o }) hq h hxy ht hx)
  | read hy h => exact .granted (.inr (hother h ▸ hy))
  | finish h =>
    obtain ⟨r, -, hact, hset⟩ := taskFinished_cases h
    obtain rfl := hother hset
    cases ht.symm.trans hact
  | @start y _ _ h =>
    have hst : k'.status = update k.status y .idle := (osTaskStartOptions_rethreaded h).status
    by_cases hxy : x = y
    · subst hxy
      exact .started rfl
    · rw [hst, Function.update_of_ne hxy] at hx
      exact absurd ht hx
  | suspend h =>
    simp only [osTaskSuspend, bind_eq_ok, osAssert_eq_ok] at h
    obtain ⟨_, hst, hset⟩ := h
    obtain rfl := hother hset
    rw [ht] at hst
    rcases hst with hst | hst <;> cases hst
  | resume h =>
    simp only [osTaskResume, bind_eq_ok, osAssert_eq_ok] at h
    obtain ⟨_, hst, hset⟩ := h
    obtain rfl := hother hset
    cases ht.symm.trans hst
  | schedule h => exact .due (osiSchedule_due hq h ht hx)

end Wakes

section Deadline

theorem Svc.call_sleeps {status : Status} {value : Option Nat}
    (h : call.call k = .ok (k₁, status, value)) (hr : k.running = some t)
    (hl : call.Leaves k.toObjects t) (ha : call ≠ .abort) :
    ∃ o ms, call.timeout = some ms ∧ svcDelay { k with toObjects := o } ms = .ok k₁ := by
  have htask {task : TaskId} (hr' : k.running = some task) : task = t :=
    Option.some.inj (hr'.symm.trans hr)
  have hblock {o : Objects} {w : Waitable} {ms : Nat}
      (h : block { k with toObjects := o } w t ms = .ok k₁) :
      ∃ o, svcDelay { k with toObjects := o } ms = .ok k₁ := by
    obtain ⟨o', -, hd⟩ := (block_eq_ok (k := { k with toObjects := o }) hr).1 h
    exact ⟨_, hd⟩
  cases call <;> simp only [Svc.call, bind_eq_ok, pure_eq_ok, Prod.mk.injEq, Prod.exists] at h <;>
    try exact hl.elim
  case delay ms =>
    obtain ⟨k₂, h, rfl, -⟩ := h
    exact ⟨k.toObjects, ms, rfl, h⟩
  case abort => exact absurd rfl ha
  case mutexAcquire m timeout =>
    obtain ⟨k₂, st, h, rfl, -⟩ := h
    obtain ⟨hz, ho, ht⟩ := hl
    obtain ⟨task, hr', hc⟩ := osiMutexAcquire_cases h
    obtain rfl := htask hr'
    cases hc with
    | free hl => exact absurd hl hz
    | again _ ho' | full _ ho' => exact absurd ho' ho
    | busy _ _ ht' => exact absurd ht' ht
    | blocks _ _ hb =>
      obtain ⟨o, hd⟩ := hblock hb
      exact ⟨o, timeout, rfl, hd⟩
  case semaphoreAcquire s timeout =>
    obtain ⟨k₂, st, h, rfl, -⟩ := h
    obtain ⟨hz, ht⟩ := hl
    obtain ⟨task, hr', hc⟩ := osiSemaphoreAcquire_cases h
    obtain rfl := htask hr'
    cases hc with
    | free hz' => omega
    | busy _ ht' => exact absurd ht' ht
    | blocks _ hb =>
      obtain ⟨o, hd⟩ := hblock hb
      exact ⟨o, timeout, rfl, hd⟩
  case queueEnqueue q message timeout =>
    obtain ⟨k₂, st, h, rfl, -⟩ := h
    obtain ⟨hh, hn, ht⟩ := hl
    obtain ⟨task, hr', -, hc⟩ := osiQueueEnqueue_cases h
    obtain rfl := htask hr'
    cases hc with
    | send hh' => exact absurd hh' hh
    | full _ _ ht' => exact absurd ht' ht
    | store _ hn' => exact absurd hn hn'
    | blocks _ _ hb =>
      obtain ⟨o, hd⟩ := hblock hb
      exact ⟨o, timeout, rfl, hd⟩
  case queueDequeue q timeout =>
    obtain ⟨k₂, st, r, h, rfl, -⟩ := h
    obtain ⟨hn, ht⟩ := hl
    obtain ⟨task, hr', -, hc⟩ := osiQueueDequeue_cases h
    obtain rfl := htask hr'
    cases hc with
    | take hn' | refill hn' => omega
    | empty _ ht' => exact absurd ht' ht
    | blocks _ hb =>
      obtain ⟨o, hd⟩ := hblock hb
      exact ⟨o, timeout, rfl, hd⟩
  case rwlockAcquireRead l timeout =>
    obtain ⟨k₂, st, h, rfl, -⟩ := h
    obtain ⟨hz, ht⟩ := hl
    obtain ⟨task, hr', hc⟩ := osiRwlockAcquireRead_cases h
    obtain rfl := htask hr'
    cases hc with
    | free hz' => exact absurd hz' hz
    | busy _ ht' => exact absurd ht' ht
    | blocks _ hb =>
      obtain ⟨o, hd⟩ := hblock hb
      exact ⟨o, timeout, rfl, hd⟩
  case rwlockAcquireWrite l timeout =>
    obtain ⟨k₂, st, h, rfl, -⟩ := h
    obtain ⟨hz, ht⟩ := hl
    obtain ⟨task, hr', hc⟩ := osiRwlockAcquireWrite_cases h
    obtain rfl := htask hr'
    cases hc with
    | free hz' => exact absurd hz' hz
    | busy _ ht' => exact absurd ht' ht
    | blocks _ hb =>
      obtain ⟨o, hd⟩ := hblock hb
      exact ⟨o, timeout, rfl, hd⟩

theorem osiTaskStatusSet_not_wait {new : TaskStatus} (h : osiTaskStatusSet s t new = .ok s')
    (hnew : new ≠ .wait) (hx : s'.status x = .wait) : s.status x = .wait := by
  have hst : s'.status = update s.status t new := (osiTaskStatusSet_rethreaded h).status
  rw [hst, Function.update_apply] at hx
  split_ifs at hx
  · exact absurd hx hnew
  · exact hx

theorem osiDispatchOrQueue_not_wait (hq : Queued c k.toSched)
    (h : osiDispatchOrQueue k t = .ok k') (hx : k'.status x = .wait) : k.status x = .wait := by
  rcases osiDispatchOrQueue_cases h with ⟨-, s, hm, hr⟩ | ⟨-, hd⟩
  · have hs := ((Shifted.reschedules (hq.makesRunnable hm) hr).of_wait hx).1
    unfold MakesRunnable at hm
    split_ifs at hm
    · exact hm ▸ hs
    · exact osiTaskStatusSet_not_wait hm (by decide) hs
  · rcases osiDispatch_eq_ok.1 hd with ⟨-, rfl⟩ | hd
    · exact hx
    · by_cases hxt : x = t
      · subst hxt
        cases hd.status_self.symm.trans hx
      · exact ((Shifted.dispatches hd hxt).of_wait hx).1

theorem svcAbort_not_wait (hq : Queued c k.toSched) (hn : NextInv (· ≠ .wait) k.toSched)
    (hs : k.scheduled = none) (h : svcAbort k = .ok k') (hx : k'.status x = .wait) :
    k.status x = .wait := by
  obtain ⟨r, s, hr, hset, hsched, -⟩ := svcAbort_cases h
  have hw := ((Shifted.reschedules (hq.aborts hn hs hr hset) hsched).of_wait hx).1
  exact osiTaskStatusSet_not_wait hset (by decide) hw

/-- A caller that sleeps after a call sleeps until the deadline of the call. -/
theorem Svc.call_deadline {status : Status} {value : Option Nat}
    (h : call.call k = .ok (k₁, status, value)) (hr : k.running = some t)
    (hs : k.scheduled = none) (hq : Queued c k.toSched) (hn : NextInv (· ≠ .wait) k.toSched)
    (ht : k₁.status t = .wait) :
    ∃ ms, call.timeout = some ms ∧ k₁.delay t = k.deadline ms := by
  have hawake : k.status t ≠ .wait := hn.status t ((next_of_none hs).trans hr)
  have hsleep (hl : call.Leaves k.toObjects t) (ha : call ≠ .abort) :
      ∃ ms, call.timeout = some ms ∧ k₁.delay t = k.deadline ms := by
    obtain ⟨o, ms, hms, hd⟩ := Svc.call_sleeps h hr hl ha
    obtain ⟨-, s, hset, hsched, -⟩ := (svcDelay_eq_ok (k := { k with toObjects := o }) hr hs).1 hd
    have hq' := hq.sleeps hn hs hr hset
    have hshift := (Shifted.schedule (k := { k with toObjects := o, toSched := s }) hq' hsched
      (x := t)).of_wait ht
    have hdelay : s.delay = update k.delay t (k.deadline ms) :=
      (osiTaskStatusSet_rethreaded hset).delay
    refine ⟨ms, hms, hshift.2.trans ?_⟩
    change s.delay t = _
    rw [hdelay, Function.update_self]
  have habort (ha : svcAbort k = .ok k₁) : k.status t = .wait :=
    svcAbort_not_wait hq hn hs ha ht
  cases Svc.call_cases h hr with
  | leaves hl hb =>
    apply hsleep hl
    rintro rfl
    simp only [Svc.call, bind_eq_ok, pure_eq_ok, Prod.mk.injEq] at h
    obtain ⟨k₂, h, rfl, -⟩ := h
    exact hawake (habort h)
  | delay hc hd =>
    subst hc
    exact hsleep trivial (by simp)
  | abort hc ha => exact absurd (habort ha) hawake
  | keep _ hk =>
    rw [hk] at ht
    exact absurd ht hawake
  | @grant y o _ _ hd =>
    have hw := osiDispatchOrQueue_not_wait (k := { k with toObjects := o }) hq hd ht
    exact absurd hw hawake
  | read _ _ hset => exact absurd (osiTaskStatusSet_not_wait hset (by decide) ht) hawake

end Deadline

/-- What holds while `t` sleeps in a call: its deadline stands, and the only blocked list that it
may be on is the one of the object that it asked for. -/
structure SleepsIn (k : Kernel) (t : TaskId) (call : Svc) (deadline : Nat) : Prop where
  delay : k.delay t = deadline
  lists : ∀ w, k.OnList w t → call.target = some w

section Runs
variable {deadline : Nat}

theorem onList_step (h : machine.Reach (fun k a => a.RestartsFree k) k) (hs : machine.step k a k')
    (ha : a.RestartsFree k) (hl : k'.OnList w x) :
    k.OnList w x ∨ a.isCall ∧ a.target = some w ∧ k.running = some x := by
  obtain ⟨L, hi⟩ := reach_blocked h fun _ _ ha => ha
  obtain ⟨hf, hn⟩ := reach_flagged h
  obtain ⟨L₁, hL, hi'⟩ := (Act.run_waits hs.1 hs.2).blockedInv hs.1 hf hn hi ha
  have hx := (mem_without.1 (hi'.mem_iff.2 hl)).1
  rcases hL.mem hx with hx | hx
  · exact .inl (hi.mem_iff.1 hx)
  · exact .inr hx

theorem SleepsIn.init (h : machine.Reach (fun k a => a.RestartsFree k) k)
    (hs : machine.step k (.svc call) k') (hr : k.running = some t) (ht : k'.status t = .wait) :
    ∃ ms, call.timeout = some ms ∧ SleepsIn k' t call (k.deadline ms) := by
  obtain ⟨hq, hn⟩ := reach_queued (c := False) h fun hc => hc.elim
  obtain ⟨L, hi⟩ := reach_blocked h fun _ _ ha => ha
  have hz : k.flags t = 0 := (reach_flagged h).2 t ((next_of_none hs.1).trans hr)
  obtain ⟨caller, hc, k₂, status, value, hcall, rfl⟩ : ∃ caller, k.running = some caller ∧
      ∃ k₂ status value, call.call k = .ok (k₂, status, value) ∧
        k₂.answered caller ⟨status.code, value.getD (k₂.regs caller).r1⟩ = k' := by
    have hrun := hs.2
    simp only [Act.run, svcHandler, bind_eq_ok, pure_eq_ok, Prod.exists,
      Kernel.self_eq_ok] at hrun
    exact hrun
  obtain ⟨ms, hms, hd⟩ := Svc.call_deadline hcall hr hs.1 hq hn ht
  refine ⟨ms, hms, hd, fun w hl => ?_⟩
  rcases onList_step h hs trivial hl with hl | ⟨-, hw, -⟩
  · exact absurd (hi.mem_iff.2 hl) (hi.notMem hz w)
  · exact hw

theorem SleepsIn.step (hk : SleepsIn k t call deadline)
    (h : machine.Reach (fun k a => a.RestartsFree k) k) (hs : machine.step k a k')
    (ha : a.RestartsFree k) (ht : k.status t = .wait) (ht' : k'.status t = .wait) :
    SleepsIn k' t call deadline := by
  obtain ⟨hq, hn⟩ := reach_queued (c := False) h fun hc => hc.elim
  -- a sleeping task makes no call
  have hcall : ¬ (a.isCall ∧ k.running = some t) := by
    rintro ⟨hc, hr⟩
    exact hn.status t ((next_of_none (hs.1.of_call hc)).trans hr) ht
  constructor
  · rcases ((Act.run_effect hs.2).task hq hn hs.1 t).of_wait ht' with ⟨-, hd⟩ | hc
    · exact hd.trans hk.delay
    · exact absurd hc hcall
  · intro w hl
    rcases onList_step h hs ha hl with hl | ⟨hc, -, hr⟩
    · exact hk.lists w hl
    · exact absurd ⟨hc, hr⟩ hcall

theorem SleepsIn.of_reach (h : machine.Reach (fun k a => a.RestartsFree k) k₁)
    (h₁ : SleepsIn k₁ t call deadline)
    (hk : (machine.startingAt k₁).Reach (fun k a => a.RestartsFree k ∧ k.status t = .wait) k)
    (ht : k.status t = .wait) : SleepsIn k t call deadline := by
  induction hk with
  | init he => exact he ▸ h₁
  | step hk ha hs ih =>
    exact (ih ha.2).step (h.trans (hk.mono fun _ _ ha => ha.1)) hs ha.1 ha.2 ht

/-- A task that goes to sleep in a call wakes up for a reason only: the deadline of the call is
reached, the object that it asked for is handed to it, or it is started anew. -/
theorem sleep_ends (h : machine.Reach (fun k a => a.RestartsFree k) k₀)
    (hs : machine.step k₀ (.svc call) k₁) (hr : k₀.running = some t) (ht : k₁.status t = .wait)
    (hk : (machine.startingAt k₁).Reach (fun k a => a.RestartsFree k ∧ k.status t = .wait) k)
    (hw : k.status t = .wait) (hstep : machine.step k a k') (hend : k'.status t ≠ .wait) :
    ∃ ms, call.timeout = some ms ∧
      (ms ≠ uint32Max ∧ (k₀.uptime + ms) % 2 ^ 32 ≤ k.uptime ∨
        (∃ w, call.target = some w ∧ a.target = some w ∧
          (a.grantee k.toObjects = some t ∨ a.GrantsReader k.toObjects t)) ∨
        ∃ priority params, a = .taskStart t priority params) := by
  have h₁ : machine.Reach (fun k a => a.RestartsFree k) k₁ := by
    apply h.step _ hs
    trivial
  have hreach := h₁.trans (hk.mono fun _ _ ha => ha.1)
  obtain ⟨hq, hn⟩ := reach_queued (c := False) hreach fun hc => hc.elim
  obtain ⟨ms, hms, hsleep⟩ := SleepsIn.init h hs hr ht
  have hsleep := SleepsIn.of_reach h₁ hsleep hk hw
  refine ⟨ms, hms, ?_⟩
  cases (Act.run_effect hstep.2).awakens hq hn hstep.1 hw hend with
  | due hdue =>
    apply Or.inl
    obtain ⟨hmax, hle⟩ := hdue
    have hd := hsleep.delay
    unfold Sched.deadline at hd
    split_ifs at hd with hms
    · exact absurd hd hmax
    · exact ⟨hms, hd ▸ hle⟩
  | granted hg =>
    apply Or.inr ∘ Or.inl
    obtain ⟨w, hw, hl⟩ : ∃ w, a.target = some w ∧ k.OnList w t := by
      rcases hg with hg | hg
      · exact Act.onList_of_grantee hg
      · exact Act.onList_of_grantsReader hg
    exact ⟨w, hsleep.lists w hl, hw, hg⟩
  | started ha => exact .inr (.inr ⟨_, _, ha⟩)

set_option maxRecDepth 10000 in
theorem sleep_ends_dequeue : ∃ k₀ k k' : Kernel, k₀.uptime = 0 ∧ k.status 1 = .wait ∧
    k'.status 1 ≠ .wait ∧ 7 ≤ k.uptime := by
  obtain ⟨k₀, k₁, hk₀, hs, ⟨hr, hu⟩, ht, hend⟩ := (Boot.simple [0, 16] (by simp)).exists_step
    (fun _ a => ¬ a.restarts) (fun k => k.running = some 1 ∧ k.uptime = 0)
    (fun k => k.status 1 = .wait ∧
      (runWith (fun k a => ¬ a.restarts ∧ k.status 1 = .wait) k [.contextSwitch, .clock 9 9]).any
        fun k => k.status 1 = .wait ∧ (Act.schedule.run k).toOption.any fun k' =>
          k'.status 1 ≠ .wait)
    [.schedule, .contextSwitch] (.svc (.queueDequeue 0 7)) (by decide)
  obtain ⟨k, hk, hp⟩ := (Option.any_eq_true _ _).1 hend
  obtain ⟨hw, hend⟩ := of_decide_eq_true hp
  obtain ⟨k', hrun, hw'⟩ := exists_of_toOption_any hend
  have hreach := runWith_reach (S := machine.startingAt k₁) rfl (.init rfl) hk
  obtain ⟨ms, hms, hreason⟩ := sleep_ends (hk₀.mono fun _ _ => .of_not_restarts) hs hr ht
    (hreach.mono fun _ _ ha => ⟨.of_not_restarts ha.1, ha.2⟩) hw
    (show machine.step k .schedule k' from ⟨trivial, hrun⟩) hw'
  cases hms
  refine ⟨k₀, k, k', hu, hw, hw', ?_⟩
  rcases hreason with ⟨-, hle⟩ | ⟨w, -, hw, -⟩ | ⟨_, _, ha⟩
  · simpa [hu] using hle
  · cases hw
  · cases ha

end Runs

end Osh
