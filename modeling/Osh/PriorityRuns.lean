import Osh.DispatchSpec
import Osh.FindSpec
import Osh.IdleRuns
import Osh.PriorityCheck
import Osh.WaitHistory

namespace Osh
open Function (update)
open Lib

variable {k k' k₁ : Kernel} {s s' : Sched} {t x : TaskId} {a : Act} {c : Prop} {w : Waitable}
  {ok : Kernel → Act → Prop}

def Sched.TopNext (s : Sched) : Prop :=
  ∀ n, s.next = some n → ∀ x, (s.status x).isRunning → s.priority x ≤ s.priority n

section Resting

/-- The status of a task that was put to sleep or made idle, and was not dispatched since. -/
def TaskStatus.IsResting (st : TaskStatus) : Prop := st = .wait ∨ st = .idle

theorem TaskStatus.IsResting.isAlive {st : TaskStatus} (h : st.IsResting) : st.isAlive := by
  rcases h with rfl | rfl <;> rfl

theorem TaskStatus.IsResting.preempted {st : TaskStatus} (h : st.IsResting) :
    st.preempted.IsResting := by
  rcases h with rfl | rfl
  · exact .inl rfl
  · exact .inr rfl

theorem Shifted.isResting (h : Shifted s s' x) (hr : (s.status x).IsResting)
    (hx : s'.scheduled ≠ some x) : (s'.status x).IsResting := by
  cases h with
  | stays hst => rwa [hst]
  | preempted _ hst =>
    rw [hst]
    exact hr.preempted
  | woken _ hst => exact .inr hst
  | dispatched _ _ hs => exact absurd hs hx

theorem TaskEffect.isResting (h : TaskEffect k k' x a) (hr : (k.status x).IsResting)
    (he : a.Enabled k) (hu : ¬ a.suspends) (hnext : k.next ≠ some x)
    (hx : k'.scheduled ≠ some x) : (k'.status x).IsResting := by
  cases h with
  | shifted h => exact h.isResting hr hx
  | leaves hrun => exact absurd ((next_of_none he).trans hrun) hnext
  | readied _ hst _ h => exact h.isResting (.inr hst) hx
  | granted _ _ hs => exact absurd hs hx
  | finished _ ha =>
    rw [ha] at hr
    rcases hr with hr | hr <;> cases hr
  | suspended => exact absurd rfl hu
  | switched hst => rwa [hst]

theorem Act.sleeps_cases (hs : machine.step k a k') (hf : Flagged k.toObjects) (hn : NextFree k)
    (hn' : NextFree k') (hsl : a.Sleeps k k' t) : ∃ o w ms k₁,
      Osh.block { k with toObjects := o } w t ms = .ok k₁ ∧ k'.toSched = k₁.toSched := by
  obtain ⟨hc, hr, hfl⟩ := hsl
  obtain ⟨he, hk⟩ := hs
  have hwaits := Act.run_waits he hk
  cases a with
  | svc call =>
    have hz : k.flags t = 0 := hn t ((next_of_none he).trans hr)
    have hedit (hw : call.target = none) : k'.flags t = 0 := by
      cases hwaits with
      | edit hed hsw hq =>
        rw [hq.flags]
        exact hsw.flags (hed.flagged hf) (hed.flags hz)
      | block ht => cases hw.symm.trans ht
    simp only [Act.run, svcHandler, bind_eq_ok, pure_eq_ok, Prod.exists] at hk
    obtain ⟨caller, hr', k₁, status, value, hcall, rfl⟩ := hk
    cases Svc.call_cases hcall hr with
    | leaves _ hb => exact ⟨_, _, _, k₁, hb, rfl⟩
    | delay hd => exact absurd (hedit (by rw [hd]; rfl)) hfl
    | abort hd => exact absurd (hedit (by rw [hd]; rfl)) hfl
    | keep _ hk =>
      refine absurd (hn' t ?_) hfl
      have hnext : k₁.next = some t := by
        rw [hk, next_of_none he]
        exact hr
      exact hnext
    | grant _ _ hd hp =>
      have ho := hf.of_pointers hp
      have hz' := (osiDispatchOrQueue_switched hd).flags ho ((congrFun hp.flags t).trans hz)
      exact absurd hz' hfl
    | read _ _ hset =>
      refine absurd (hn' t ?_) hfl
      have hset' := osiTaskStatusSet_rethreaded hset
      have hnext : k₁.next = some t := by
        rw [next_of_none (hset'.scheduled.trans he)]
        exact hset'.running.trans hr
      exact hnext
  | _ => cases hc

def BlockedRest (k : Kernel) : Prop :=
  ∀ t, k.flags t ≠ 0 → (k.status t).IsResting

theorem BlockedRest.step (h : BlockedRest k) (hs : machine.step k a k')
    (hq : Queued c k.toSched) (hn : NextInv (· ≠ .wait) k.toSched) (hf : Flagged k.toObjects)
    (hfree : NextFree k) (hu : ¬ a.suspends) : BlockedRest k' := by
  intro x hx
  obtain ⟨-, hfree'⟩ := (Act.run_waits hs.1 hs.2).flagged hf hfree
  have hsched : k'.scheduled ≠ some x := fun he => hx (hfree' x (next_of_scheduled he))
  by_cases hz : k.flags x = 0
  · have hcall : a.Sleeps k k' x := by
      have hc : a.isCall ∧ k.running = some x :=
        by_contra fun hc => hx ((Act.run_waits hs.1 hs.2).flags hf hfree hz hc)
      exact ⟨hc.1, hc.2, hx⟩
    obtain ⟨o, w, ms, k₁, hb, hk⟩ := Act.sleeps_cases hs hf hfree hfree' hcall
    obtain ⟨o', -, hd⟩ := (block_eq_ok (k := { k with toObjects := o }) hcall.2.1).1 hb
    obtain ⟨r, delay, s, hrun, -, hset, hsched', -⟩ := svcDelay_cases hd
    obtain rfl : x = r := Option.some.inj (hcall.2.1.symm.trans hrun)
    have he : k.scheduled = none := hs.1.of_call hcall.1
    rw [hk] at hsched ⊢
    refine (Shifted.reschedules (hq.sleeps hn he hrun hset) hsched').isResting ?_ hsched
    have hst : s.status = update k.status x .wait := (osiTaskStatusSet_rethreaded hset).status
    rw [hst, Function.update_self]
    exact .inl rfl
  · refine ((Act.run_effect hs.2).task hq hn hs.1 x).isResting (h x hz) hs.1 hu ?_ hsched
    exact fun hnext => hz (hfree x hnext)

theorem BlockedRest.init (hk : machine.init k) : BlockedRest k := by
  obtain ⟨b, hb⟩ := hk
  intro t ht
  rw [(b.start_unused hb).waits.flags] at ht
  exact absurd rfl ht

/-- A step that restarts, suspends and resumes no task and uses no read-write lock. -/
def Act.Plain (a : Act) : Prop := ¬ a.restarts ∧ ¬ a.suspends ∧ ¬ a.usesRwlock

instance : Decidable a.Plain :=
  inferInstanceAs (Decidable (¬ a.restarts ∧ ¬ a.suspends ∧ ¬ a.usesRwlock))

theorem BlockedRest.grantee {L : Waitable → List TaskId} (h : BlockedRest k)
    (hi : BlockedInv k.toObjects L) (ht : a.grantee k.toObjects = some t) :
    (k.status t).IsResting := by
  obtain ⟨w, -, hl⟩ := Act.onList_of_grantee ht
  apply h t
  rw [(hi.waits w t (hi.mem_iff.2 hl)).2]
  exact flag_ne_zero w

/-- In a run of plain steps every runnable task is in the run queue and every blocked task rests. -/
theorem reach_blockedRest (h : machine.Reach ok k) (hok : ∀ k a, ok k a → a.Plain) :
    Queued True k.toSched ∧ BlockedRest k := by
  induction h with
  | init h => exact ⟨(machine_init_sched h).1, .init h⟩
  | @step k k' a h ha hs ih =>
    obtain ⟨hq, hb⟩ := ih
    obtain ⟨-, hu, hl⟩ := hok k a ha
    obtain ⟨-, hn⟩ := reach_queued (c := False) h fun hc => hc.elim
    obtain ⟨hf, hfree⟩ := reach_flagged h
    obtain ⟨L, hi⟩ := reach_blocked h fun k a ha => .of_not_restarts (hok k a ha).1
    constructor
    · apply hq.step hn (Act.run_effect hs.2) hs.1
      intro _
      exact .of_grantSafe (fun t ht => .inl (hb.grantee hi ht).isAlive) (Act.not_grantsReader hl)
    · exact hb.step hs hq hn hf hfree hu

end Resting

section TopNext

theorem Sched.TopNext.of_eq (h : s.TopNext) (hn : s'.next = s.next) (hst : s'.status = s.status)
    (hp : s'.priority = s.priority) : s'.TopNext := by
  intro n hnext x hx
  rw [hn] at hnext
  rw [hst] at hx
  rw [hp]
  exact h n hnext x hx

theorem Sched.TopNext.set {new : TaskStatus} (h : s.TopNext)
    (hset : osiTaskStatusSet s t new = .ok s')
    (ht : new.isRunning → ∀ n, s.next = some n → s.priority t ≤ s.priority n) : s'.TopNext := by
  have hs := osiTaskStatusSet_rethreaded hset
  have hst : s'.status = update s.status t new := hs.status
  have hnext : s'.next = s.next := by simp only [Sched.next, hs.scheduled, hs.running]
  have hp : s'.priority = s.priority := hs.priority
  intro n hn x hx
  rw [hnext] at hn
  rw [hst, Function.update_apply] at hx
  rw [hp]
  split_ifs at hx with hxt
  · rw [hxt]
    exact ht hx n hn
  · exact h n hn x hx

theorem Dispatches.topNext (h : Dispatches k t k')
    (ht : ∀ x, (k.status x).isRunning → k.priority x ≤ k.priority t) : k'.TopNext := by
  intro n hn x hx
  rw [next_of_scheduled h.scheduled] at hn
  cases hn
  rw [h.priority]
  by_cases hxt : x = t
  · rw [hxt]
  · apply ht
    rw [h.status_of_ne hxt] at hx
    split_ifs at hx
    · rwa [TaskStatus.isRunning_preempted] at hx
    · exact hx

/-- The scheduler finds a task of the top priority among all that are runnable. -/
theorem Schedules.topNext (h : Schedules k k') (hq : Queued True k.toSched)
    (hu : ∀ x, k.Used x → x ∈ k.tasks) : k'.TopNext := by
  obtain ⟨running, s, new, hr, -, hs, hw, hnew, hd⟩ := h
  have hs' := wakeLoop_rethreaded hw
  obtain ⟨r, w, hq', hc⟩ := hq.wakes hw
  have hlen : (r ++ w).length ≤ s.bound := by
    apply hq'.length_le_bound
    intro x hx
    rw [hs'.tasks]
    exact hu x (Sched.Used.of_wakes hq hw hx)
  obtain ⟨htop, hnone⟩ := hq'.findNewTask_top (hc trivial) hlen hnew
  rcases hd with ⟨hsame, rfl⟩ | ⟨t, rfl, hd⟩
  · intro n hn x hx
    have hxr : x ∈ r := (hc trivial).mem_run x hx
    cases new with
    | none =>
      rw [hnone rfl] at hxr
      cases hxr
    | some y =>
      have hnext : s.next = some y := by
        rw [next_of_none (hs'.scheduled.trans hs), show y = running from hsame]
        exact hs'.running.trans hr
      cases hnext.symm.trans hn
      exact htop _ rfl x hxr
  · exact hd.topNext fun x hx => htop t rfl x ((hc trivial).mem_run x hx)

theorem Sched.TopNext.schedule (h : k.TopNext) (hq : Queued True k.toSched)
    (hu : ∀ x, k.Used x → x ∈ k.tasks) (hk : osiSchedule k = .ok k') :
    k'.TopNext := by
  rcases osiSchedule_cases hk with rfl | hk
  · exact h
  · exact hk.topNext hq hu

theorem Reschedules.topNext (h : Reschedules k s k') (hk : k.scheduled = none)
    (hs : s.scheduled = none) (hk' : k'.scheduled ≠ none) (hq : Queued True s)
    (hu : ∀ x, s.Used x → x ∈ s.tasks) : k'.TopNext := by
  rcases h with ⟨-, h⟩ | ⟨hne, -⟩
  · rcases osiSchedule_cases h with rfl | h
    · exact absurd hs hk'
    · exact h.topNext (k := { k with toSched := s }) hq hu
  · exact absurd hk hne

theorem Sched.TopNext.dispatchOrQueue (h : k.TopNext) (hq : Queued True k.toSched)
    (hu : ∀ x, k.Used x → x ∈ k.tasks) (ht : (k.status t).IsResting)
    (hk : osiDispatchOrQueue k t = .ok k') : k'.TopNext := by
  rcases osiDispatchOrQueue_cases hk with ⟨hh, s, hs, hr⟩ | ⟨hh, hd⟩
  · obtain ⟨x, hx, hp⟩ : ∃ x, (k.status x).isRunning ∧ k.priority x > k.priority t := by
      obtain ⟨r, w, hq, -⟩ := hq
      obtain ⟨x, hx, hp⟩ := (runqueueHasHigherPriority_spec hh hq).1 rfl
      exact ⟨x, hq.runnable x hx, hp⟩
    have htop : s.TopNext := by
      unfold MakesRunnable at hs
      split_ifs at hs
      · exact hs ▸ h
      · exact h.set hs fun _ n hnext => hp.le.trans (h n hnext x hx)
    have htasks : s.tasks = k.tasks := hs.rethreaded.tasks
    rcases hr with ⟨-, hr⟩ | ⟨-, rfl⟩
    · refine Sched.TopNext.schedule (k := { k with toSched := s }) htop (hq.makesRunnable hs)
        (fun y hy => ?_) hr
      rw [htasks]
      rcases Sched.Used.of_makesRunnable hs hy with hy | rfl
      · exact hu y hy
      · refine hu y (.inr (.inr fun he => ?_))
        rw [he] at ht
        rcases ht with ht | ht <;> cases ht
    · exact htop
  · rcases osiDispatch_eq_ok.1 hd with ⟨-, rfl⟩ | hd
    · exact h
    · apply hd.topNext
      intro x hx
      obtain ⟨r, w, hq, hc⟩ := hq
      by_contra hlt
      have hx' := (runqueueHasHigherPriority_spec hh hq).2
        ⟨x, (hc trivial).mem_run x hx, Nat.not_le.1 hlt⟩
      cases hx'

/-- Every plain step of a state in which no task is above the next one leads to such a state. -/
theorem Sched.TopNext.step (h : k.TopNext) (hs : machine.step k a k') (ha : a.Plain)
    (hq : Queued True k.toSched) (hn : NextInv (· ≠ .wait) k.toSched) (hc : Created k)
    (hg : ∀ t, a.grantee k.toObjects = some t → (k.status t).IsResting) : k'.TopNext := by
  obtain ⟨he, hr⟩ := hs
  have hused {s s' : Sched} {new : TaskStatus} {r : TaskId} (hrun : k.running = some r)
      (hset : osiTaskStatusSet s r new = .ok s') (hs : ∀ x, s.Used x → k.Used x)
      (ht : s.tasks = k.tasks) : ∀ x, s'.Used x → x ∈ s'.tasks := by
    intro x hx
    have htasks : s'.tasks = s.tasks := (osiTaskStatusSet_rethreaded hset).tasks
    rw [htasks, ht]
    rcases Sched.Used.of_set hset hx with hx | rfl
    · exact hc.used x (hs x hx)
    · exact hc.used x (.inl hrun)
  cases Act.run_effect hr with
  | keep hk | clock hk => exact h.of_eq (by rw [hk]; rfl) (by rw [hk]) (by rw [hk])
  | sleep hk hs =>
    rw [hs]
    obtain ⟨r, delay, s, hrun, -, hset, hsched, hne⟩ := svcDelay_cases hk
    have hset' := osiTaskStatusSet_rethreaded hset
    exact hsched.topNext he (hset'.scheduled.trans he) hne (hq.sleeps hn he hrun hset)
      (hused hrun hset (fun x hx => hx) rfl)
  | abort hk hs =>
    rw [hs]
    obtain ⟨r, s, hrun, hset, hsched, hne⟩ := svcAbort_cases hk
    have hset' := osiTaskStatusSet_rethreaded hset
    exact hsched.topNext he (hset'.scheduled.trans he) hne (hq.aborts hn he hrun hset)
      (hused hrun hset (fun x hx => hx) rfl)
  | @grant _ t o k₁ ht hk hs =>
    have h₁ := Sched.TopNext.dispatchOrQueue (k := { k with toObjects := o }) h hq hc.used
      (hg t ht) hk
    exact h₁.of_eq (by rw [hs]; rfl) (by rw [hs]) (by rw [hs])
  | read ht => exact absurd ht (Act.not_grantsReader ha.2.2 _)
  | finish hk =>
    obtain ⟨r, -, -, hset⟩ := taskFinished_cases hk
    exact h.set hset nofun
  | start => exact absurd rfl ha.1
  | suspend | resume => exact absurd rfl ha.2.1
  | schedule hk => exact h.schedule hq hc.used hk
  | contextSwitch hk =>
    obtain ⟨n, hsched⟩ := Option.ne_none_iff_exists'.1 he
    refine h.of_eq ?_ (by rw [hk]) (by rw [hk])
    rw [hk, next_of_scheduled hsched, ← hsched]
    rfl

end TopNext

theorem Sched.TopNext.not_panic {r : List TaskId} {y : TaskId} (h : s.TopNext)
    (hc : Chain s.nrp s.runqueue r) (hn : r.length ≤ s.bound)
    (hp : ∀ t, s.scheduled = some t → s.priority t ≤ 0xff) :
    .panic y x ∉ osiPriorityCheck s s.scheduled := by
  intro hmem
  cases ht : s.scheduled with
  | none =>
    rw [ht] at hmem
    simp [osiPriorityCheck, panic_notMem_priorityCheckOrder] at hmem
  | some t =>
    rw [ht] at hmem
    apply (reports_panic_iff hc hn).1 ⟨y, x, hmem⟩
    intro z _ hrun
    rw [mod_byte (hp t ht)]
    exact h t (next_of_scheduled ht) z hrun

/-- From the first call of the scheduler on, no runnable task has a higher priority than the task
that runs next. -/
theorem topNext_of_reach {k₀ : Kernel} (hk₀ : machine.init k₀)
    (hk₁ : machine.step k₀ .schedule k₁)
    (h : (machine.startingAt k₁).Reach (fun _ a => a.Plain) k) :
    k.TopNext ∧ ((∀ t ∈ k.tasks, k.priority t ≤ 0xff) →
      ∀ y x, .panic y x ∉ osiPriorityCheck k.toSched k.scheduled) := by
  have hplain : Act.Plain .schedule := ⟨nofun, nofun, nofun⟩
  have hreach₁ : machine.Reach (fun _ a => a.Plain) k₁ := .step (.init hk₀) hplain hk₁
  have htop : k.TopNext := by
    induction h with
    | init h =>
      obtain rfl : _ = k₁ := h
      obtain ⟨-, hn⟩ := machine_init_sched hk₀
      obtain ⟨hq, -⟩ := reach_blockedRest (.init hk₀) fun _ _ (ha : Act.Plain _) => ha
      have hc := Created.init hk₀
      obtain ⟨b, hb⟩ := hk₀
      obtain ⟨-, hs, i, hr, hi, -⟩ := b.start_sched hb
      have hsched := osiSchedule_schedules hk₁.2 hr (by rw [hi]; decide) hs
      exact hsched.topNext hq hc.used
    | @step k k' a h ha hs ih =>
      have hreach := hreach₁.trans h
      obtain ⟨hq, hb⟩ := reach_blockedRest hreach fun _ _ ha => ha
      obtain ⟨-, hn⟩ := reach_queued (c := False) hreach fun hc => hc.elim
      obtain ⟨L, hi⟩ := reach_blocked hreach fun _ _ ha => .of_not_restarts ha.1
      have hc := reach_created hreach
      exact ih.step hs ha hq hn hc fun t ht => hb.grantee hi ht
  have hreach := hreach₁.trans h
  have hc := reach_created hreach
  obtain ⟨⟨r, w, hq, -⟩, -⟩ := reach_queued (c := False) hreach fun hc => hc.elim
  have hlen := hq.length_le_bound hc.used
  rw [List.length_append] at hlen
  refine ⟨htop, fun hp y x => htop.not_panic hq.run (by omega) fun t ht => ?_⟩
  exact hp t (hc.used t (.inr (.inl ht)))

set_option maxRecDepth 10000 in
theorem topNext_after_two_interrupts : ∃ k : Kernel, k.running = some 1 ∧ k.scheduled = some 3 ∧
    k.status 2 = .active ∧ k.TopNext ∧
      ∀ y x, .panic y x ∉ osiPriorityCheck k.toSched k.scheduled := by
  obtain ⟨k₀, k₁, h₀, hs, -, hrun⟩ := (Boot.simple [0, 16, 18, 20] (by simp)).exists_step
    (fun _ _ => False) (fun _ => True)
    (fun k => (runWith (fun _ a => a.Plain) k [.contextSwitch, .svc (.queueDequeue 0 9),
      .contextSwitch, .svc (.queueDequeue 1 9), .contextSwitch, .enqueueIsr 1 5,
      .enqueueIsr 0 7]).any fun k => k.running = some 1 ∧ k.scheduled = some 3 ∧
        k.status 2 = .active ∧ ∀ t ∈ k.tasks, k.priority t ≤ 0xff)
    [] .schedule (by decide)
  have hinit : machine.init k₀ := by
    cases h₀ with
    | init h => exact h
    | step _ ha => exact ha.elim
  obtain ⟨k, hk, hp⟩ := (Option.any_eq_true _ _).1 hrun
  obtain ⟨hr, hsch, hst, hp⟩ := of_decide_eq_true hp
  obtain ⟨htop, hpanic⟩ := topNext_of_reach hinit hs (runWith_reach rfl (.init rfl) hk)
  exact ⟨k, hr, hsch, hst, htop, hpanic hp⟩

end Osh
