import Osh.IdleRuns

namespace Osh
open Function (update)
open Lib

variable {k k' : Kernel} {s s' : Sched} {t x : TaskId} {a : Act}

def Sched.ActiveIsNext (s : Sched) : Prop :=
  ∀ t, s.status t = .active → s.next = some t

/-- Whether the next task is the only active one, which the scheduled task is. -/
structure ActiveInv (s : Sched) : Prop where
  only : s.ActiveIsNext
  scheduled : ∀ t, s.scheduled = some t → s.status t = .active

/-- While a switch is pending, a step hands nothing over to a task that it would dispatch in place
of the scheduled one. -/
def Act.ActiveSafe (k : Kernel) (a : Act) : Prop :=
  k.scheduled ≠ none → ∀ t, a.grantee k.toObjects = some t →
    k.running = some t ∨ runqueueHasHigherPriority k.toSched t = .ok true

theorem ActiveInv.of_eq (h : ActiveInv s) (hr : s'.running = s.running)
    (hs : s'.scheduled = s.scheduled) (hst : s'.status = s.status) : ActiveInv s' where
  only t ht := by
    rw [hst] at ht
    simp only [Sched.next, hr, hs]
    exact h.only t ht
  scheduled t ht := by
    rw [hst]
    exact h.scheduled t (hs ▸ ht)

theorem ActiveInv.setStatus {new : TaskStatus} (h : ActiveInv s)
    (hset : osiTaskStatusSet s t new = .ok s') (hnew : new ≠ .active)
    (ht : s.scheduled ≠ some t) : ActiveInv s' := by
  have hs := osiTaskStatusSet_rethreaded hset
  have hstatus : s'.status = update s.status t new := hs.status
  constructor
  · intro x hx
    rw [hstatus, Function.update_apply] at hx
    split_ifs at hx with hxt
    · exact absurd hx hnew
    · simp only [Sched.next, hs.scheduled, hs.running]
      exact h.only x hx
  · intro x hx
    rw [hs.scheduled] at hx
    have hxt : x ≠ t := by
      rintro rfl
      exact ht hx
    rw [hstatus, Function.update_of_ne hxt]
    exact h.scheduled x hx

theorem ActiveInv.dispatches (h : ∀ x, k.status x = .active → k.running = some x)
    (hd : Dispatches k t k') : ActiveInv k'.toSched where
  only x hx := by
    rw [next_of_scheduled hd.scheduled]
    by_cases hxt : x = t
    · rw [hxt]
    · rw [hd.status_of_ne hxt] at hx
      split_ifs at hx with hr
      · exact absurd hx TaskStatus.preempted_ne_active
      · exact absurd (h x hx) hr
  scheduled x hx := by
    rw [hd.scheduled] at hx
    cases hx
    exact hd.status_self

theorem ActiveInv.wakes (h : ActiveInv s) (hq : Queued False s) (hw : wakeExpired s = .ok s') :
    ActiveInv s' := by
  rcases wakeExpired_cases hq hw with rfl | ⟨t, ht, -, hset⟩
  · exact h
  · apply h.setStatus hset (by decide)
    intro hs
    cases ht.symm.trans (h.scheduled t hs)

theorem ActiveInv.schedule (h : ActiveInv k.toSched) (hq : Queued False k.toSched)
    (hk : osiSchedule k = .ok k') : ActiveInv k'.toSched := by
  rcases osiSchedule_cases hk with rfl | ⟨r, s, new, hr, -, hn, hw, -, ⟨-, rfl⟩ | ⟨t, -, hd⟩⟩
  · exact h
  · exact h.wakes hq hw
  · have hs := h.wakes hq hw
    have hrest := wakeLoop_rethreaded hw
    apply ActiveInv.dispatches _ hd
    intro x hx
    have hnext : s.next = some x := hs.only x hx
    rwa [next_of_none (hrest.scheduled.trans hn)] at hnext

theorem ActiveInv.reschedules (h : ActiveInv s) (hq : Queued False s)
    (hk : Reschedules k s k') : ActiveInv k'.toSched := by
  rcases hk with ⟨-, hk⟩ | ⟨-, rfl⟩
  · exact ActiveInv.schedule h hq hk
  · exact h

theorem ActiveInv.makesRunnable (h : ActiveInv s) (hm : MakesRunnable s t s') :
    ActiveInv s' := by
  unfold MakesRunnable at hm
  split_ifs at hm with hr
  · exact hm ▸ h
  · refine h.setStatus hm (by decide) fun hs => hr ?_
    rw [h.scheduled t hs]
    rfl

/-- Something is handed over while no switch is pending, or to a task that is not dispatched. -/
theorem ActiveInv.dispatchOrQueue (h : ActiveInv k.toSched) (hq : Queued False k.toSched)
    (hk : osiDispatchOrQueue k t = .ok k') (ht : k.scheduled ≠ none →
      k.running = some t ∨ runqueueHasHigherPriority k.toSched t = .ok true) :
    ActiveInv k'.toSched := by
  rcases osiDispatchOrQueue_cases hk with ⟨-, s, hm, hr⟩ | ⟨hh, hd⟩
  · exact (h.makesRunnable hm).reschedules (hq.makesRunnable hm) hr
  · rcases osiDispatch_eq_ok.1 hd with ⟨-, rfl⟩ | hd
    · exact h
    · have hn : k.scheduled = none := by
        by_contra hs
        rcases ht hs with hr | hh'
        · exact hd.running_ne hr
        · cases hh.symm.trans hh'
      apply ActiveInv.dispatches _ hd
      intro x hx
      have hnext := h.only x hx
      rwa [next_of_none hn] at hnext

/-- The running task, which no switch is to take the processor from, leaves the run queue for a
call of the scheduler that schedules another task. -/
theorem ActiveInv.leaves {k₁ : Kernel} {new : TaskStatus} {delay : TaskId → Nat}
    (h : ActiveInv k.toSched) (hq : Queued False s) (hn : k.scheduled = none)
    (hset : osiTaskStatusSet { k.toSched with delay := delay } t new = .ok s)
    (hnew : new ≠ .active) (hs : Reschedules k s k₁) : ActiveInv k₁.toSched := by
  have hd : ActiveInv { k.toSched with delay := delay } := h.of_eq rfl rfl rfl
  refine (hd.setStatus hset hnew fun he => ?_).reschedules hq hs
  cases hn.symm.trans he

/-- Every safe step keeps the next task the only active one. -/
theorem ActiveInv.step (h : ActiveInv k.toSched) (hq : Queued False k.toSched)
    (hn : NextInv (· ≠ .wait) k.toSched) (he : a.Enabled k) (heff : SchedEffect k k' a)
    (hr : ¬ a.restarts) (hu : ¬ a.suspends) (ha : a.ActiveSafe k) : ActiveInv k'.toSched := by
  cases heff with
  | keep hk => rw [hk]; exact h.of_eq rfl rfl rfl
  | @sleep _ ms o k₁ hk hs =>
    rw [hs]
    obtain ⟨r, delay, s, hrun, -, hset, hsched, -⟩ := svcDelay_cases hk
    exact ActiveInv.leaves (k := { k with toObjects := o }) h (hq.sleeps hn he hrun hset) he hset
      (by decide) hsched
  | abort hk hs =>
    rw [hs]
    obtain ⟨r, s, hrun, hset, hsched, -⟩ := svcAbort_cases hk
    exact h.leaves (hq.aborts hn he hrun hset) he hset (by decide) hsched
  | @grant _ t o _ ht hk hs =>
    rw [hs]
    have hk' := ActiveInv.dispatchOrQueue (k := { k with toObjects := o }) h hq hk fun hs =>
      ha hs t ht
    exact hk'.of_eq rfl rfl rfl
  | @read _ t ht hk =>
    apply h.setStatus hk (by decide)
    intro hs
    cases a with
    | svc call => cases he.symm.trans hs
    | _ => exact ht
  | finish hk =>
    obtain ⟨r, hrun, -, hset⟩ := taskFinished_cases hk
    exact h.setStatus hset (by decide) fun hs => hn.apart r hs hrun
  | start hk => exact absurd rfl hr
  | suspend hk | resume hk => exact absurd rfl hu
  | schedule hk => exact h.schedule hq hk
  | contextSwitch hk =>
    rw [hk]
    constructor
    · intro x hx
      obtain ⟨y, hy⟩ := Option.ne_none_iff_exists'.1 he
      have hnext := h.only x hx
      rw [next_of_scheduled hy] at hnext
      exact hy.trans hnext
    · intro x hx
      cases hx
  | clock hk => rw [hk]; exact h.of_eq rfl rfl rfl

theorem not_activeIsNext_of_not_activeSafe (h : ActiveInv k.toSched) (hf : Flagged k.toObjects)
    (hfree : NextFree k) (hn : NextInv (· ≠ .wait) k.toSched) (he : a.Enabled k)
    (hk : a.run k = .ok k') (ha : ¬ a.ActiveSafe k) : ¬ k'.ActiveIsNext := by
  simp only [Act.ActiveSafe, not_forall, not_or] at ha
  obtain ⟨hs, t, ht, hr, hh⟩ := ha
  obtain ⟨y, hy⟩ := Option.ne_none_iff_exists'.1 hs
  have hcall : ¬ a.isCall := fun hc => hs (he.of_call hc)
  have hty : y ≠ t := by
    rintro rfl
    refine Act.grantee_ne_next hk hf hfree ?_ ?_ ht (next_of_scheduled hy)
    · cases a <;> first | exact absurd rfl hcall | simp [Act.usesSemaphore]
    · cases a <;> first | exact absurd rfl hcall | simp [Act.usesRwlock]
  obtain ⟨⟨o, k₁, hd, hk₁⟩, -⟩ := Act.run_grant hk ht
  intro honly
  rcases osiDispatchOrQueue_cases hd with ⟨hh', -⟩ | ⟨-, hd⟩
  · exact hh hh'
  · rcases osiDispatch_eq_ok.1 hd with ⟨hr', -⟩ | hd
    · exact hr hr'
    · have hact : k'.status y = .active := by
        rw [hk₁]
        apply (hd.status_of_ne hty).trans
        rw [if_neg (hn.apart y hy)]
        exact h.scheduled y hy
      have hnext := honly y hact
      rw [hk₁] at hnext
      exact hty (Option.some.inj (hnext.symm.trans (next_of_scheduled hd.scheduled)))

theorem machine_init_active (h : machine.init k) : ActiveInv k.toSched := by
  obtain ⟨b, hb⟩ := h
  obtain ⟨-, hs, i, hr, hi, hother⟩ := b.start_sched hb
  constructor
  · intro t ht
    rw [next_of_none hs, hr]
    by_contra hne
    have hti : t ≠ i := fun he => hne (congrArg some he.symm)
    rcases hother t hti with h | h | h <;> cases ht.symm.trans h
  · intro t ht
    cases hs.symm.trans ht

/-- Without restarts, suspension and resumption, the next task is the only active one for as long
as no hand-over takes the place of a pending switch, and no longer. -/
theorem activeIsNext_of_reach
    (h : machine.Reach (fun k a => ¬ a.restarts ∧ ¬ a.suspends ∧ a.ActiveSafe k) k) :
    k.ActiveIsNext ∧ ∀ a k', ¬ a.restarts → ¬ a.suspends → machine.step k a k' →
      (k'.ActiveIsNext ↔ a.ActiveSafe k) := by
  have hinv : ActiveInv k.toSched := by
    induction h with
    | init h => exact machine_init_active h
    | step h ha hs ih =>
      obtain ⟨hq, hn⟩ := reach_queued (c := False) h fun hc => hc.elim
      exact ih.step hq hn hs.1 (Act.run_effect hs.2) ha.1 ha.2.1 ha.2.2
  obtain ⟨hq, hn⟩ := reach_queued (c := False) h fun hc => hc.elim
  obtain ⟨hf, hfree⟩ := reach_flagged h
  refine ⟨hinv.only, fun a k' hr hu ⟨he, hk⟩ => ⟨fun honly => ?_, fun ha => ?_⟩⟩
  · by_contra ha
    exact not_activeIsNext_of_not_activeSafe hinv hf hfree hn he hk ha honly
  · exact (hinv.step hq hn he (Act.run_effect hk) hr hu ha).only

set_option maxRecDepth 10000 in
theorem activeIsNext_after_two_sends : ∃ k : Kernel,
    k.scheduled = some 1 ∧ k.status 2 = .idle ∧ k.ActiveIsNext := by
  obtain ⟨k, hk, hs, hst⟩ := (Boot.simple [0, 17, 16] (by simp)).exists_after
    (fun k a => (¬ a.restarts ∧ ¬ a.suspends) ∧ (k.scheduled ≠ none →
      (a.grantee k.toObjects).all fun t =>
        (runqueueHasHigherPriority k.toSched t).toOption.any fun b => b = true))
    (fun k => k.scheduled = some 1 ∧ k.status 2 = .idle)
    [.schedule, .contextSwitch, .svc (.queueDequeue 0 uint32Max), .contextSwitch,
      .svc (.queueDequeue 0 uint32Max), .contextSwitch, .enqueueIsr 0 7, .enqueueIsr 0 8]
    (by decide)
  refine ⟨k, hs, hst, (activeIsNext_of_reach (hk.mono fun k a ha => ?_)).1⟩
  refine ⟨ha.1.1, ha.1.2, fun hn t ht => .inr ?_⟩
  have hall := ha.2 hn
  rw [ht] at hall
  obtain ⟨_, hh, rfl⟩ := exists_of_toOption_any hall
  exact hh

set_option maxRecDepth 10000 in
/-- Two messages from interrupts to receivers of one priority before a switch: the first receiver
stays active without ever being switched to. -/
theorem not_activeIsNext_after_two_sends :
    ∃ k, machine.Reach (fun _ a => ¬ a.restarts ∧ ¬ a.suspends) k ∧ ¬ k.ActiveIsNext := by
  obtain ⟨k, hk, hs, hst⟩ := (Boot.simple [0, 16, 16] (by simp)).exists_after
    (fun _ a => ¬ a.restarts ∧ ¬ a.suspends) (fun k => k.scheduled = some 2 ∧ k.status 1 = .active)
    [.schedule, .contextSwitch, .svc (.queueDequeue 0 uint32Max), .contextSwitch,
      .svc (.queueDequeue 0 uint32Max), .contextSwitch, .enqueueIsr 0 7, .enqueueIsr 0 8]
    (by decide)
  refine ⟨k, hk, fun h => ?_⟩
  have hnext := h 1 hst
  rw [next_of_scheduled hs] at hnext
  cases hnext

end Osh
