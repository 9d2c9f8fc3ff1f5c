import Osh.BootSpec
import Osh.FixedRun
import Osh.TaskEffects

namespace Osh
open Lib

variable {k k' : Kernel} {s : Sched} {t : TaskId} {c : Prop} {a : Act}
  {ok : Kernel → Act → Prop}

theorem machine_init_sched (h : machine.init k) :
    Queued True k.toSched ∧ NextInv (fun st => st = .active) k.toSched := by
  obtain ⟨b, hb⟩ := h
  obtain ⟨hq, hs, i, hr, hi, -⟩ := b.start_sched hb
  refine ⟨hq, fun t ht => ?_, fun t ht => ?_⟩
  · rw [next_of_none hs, hr] at ht
    cases ht
    exact hi
  · rw [hs] at ht
    cases ht

theorem Act.not_sets_wait : ¬ a.Sets k t .wait := by
  intro h
  cases a <;> simp_all [Act.Sets]

/-- The queues are in order in every state of a run, and complete if all steps are safe. -/
theorem reach_queued (h : machine.Reach ok k) (hok : c → ∀ k a, ok k a → a.QueueSafe k) :
    Queued c k.toSched ∧ NextInv (· ≠ .wait) k.toSched := by
  refine h.invariant (I := fun k => Queued c k.toSched ∧ NextInv (· ≠ .wait) k.toSched) ?_ ?_
  · intro k hk
    obtain ⟨⟨r, w, hq, hc⟩, hn⟩ := machine_init_sched hk
    refine ⟨⟨r, w, hq, fun _ => hc trivial⟩, fun t ht => ?_, hn.apart⟩
    rw [hn.status t ht]
    decide
  · intro k a k' ⟨hq, hn⟩ ha ⟨he, hr⟩
    have heff := Act.run_effect hr
    refine ⟨hq.step hn heff he fun hc => hok hc k a ha, ?_⟩
    apply hn.step hq heff he (by decide) (by decide)
    intro t new hs _
    rintro rfl
    exact Act.not_sets_wait hs

/-- Both lists of the scheduler hold exactly the tasks that their statuses put there, in order. -/
def WellQueued (s : Sched) : Prop :=
  ∃ r w, Chain s.nrp s.runqueue r ∧ r.Nodup ∧
    (∀ t, t ∈ r ↔ s.status t = .idle ∨ s.status t = .active) ∧
    (r.Pairwise fun a b => s.priority b ≤ s.priority a) ∧
    Chain s.nrp s.waitqueue w ∧ w.Nodup ∧ (∀ t, t ∈ w ↔ s.status t = .wait) ∧
    (w.Pairwise fun a b => s.delay a ≤ s.delay b) ∧ ∀ t ∈ r, t ∉ w

theorem TaskStatus.isRunning_iff {st : TaskStatus} : st.isRunning ↔ st = .idle ∨ st = .active := by
  cases st <;> decide

theorem Queued.wellQueued (hq : Queued True s) : WellQueued s := by
  obtain ⟨r, w, hq, hc⟩ := hq
  refine ⟨r, w, hq.run, hq.nodup_run, fun t => ?_, hq.sorted, hq.wait, hq.nodup_wait, hq.waiting,
    hq.ordered, hq.disjoint⟩
  rw [← TaskStatus.isRunning_iff]
  exact ⟨hq.runnable t, (hc trivial).mem_run t⟩

def Act.GrantSafe (k : Kernel) (a : Act) : Prop :=
  ∀ t, a.grantee k.toObjects = some t → k.GrantSafe t

theorem not_wellQueued_of_not_grantSafe (hq : Queued True k.toSched) (h : a.run k = .ok k')
    (ha : ¬ a.GrantSafe k) : ∃ t, k'.scheduled = some t ∧ k'.status t = .active ∧
      ∀ r, Chain k'.nrp k'.runqueue r → t ∉ r := by
  simp only [Act.GrantSafe, not_forall] at ha
  obtain ⟨t, ht, hns⟩ := ha
  simp only [Sched.GrantSafe, not_or, not_exists] at hns
  obtain ⟨⟨o, k₁, hd, hs⟩, -⟩ := Act.run_grant h ht
  obtain ⟨r, w, hq, hc⟩ := hq
  rcases osiDispatchOrQueue_cases hd with ⟨hh, -⟩ | ⟨-, hd⟩
  · obtain ⟨x, hx, hp⟩ := (runqueueHasHigherPriority_spec hh hq).1 rfl
    exact absurd ⟨hq.runnable x hx, hp⟩ (hns.2.2 x)
  · rcases osiDispatch_eq_ok.1 hd with ⟨hr, -⟩ | hd
    · exact absurd hr hns.2.1
    · refine ⟨t, by rw [hs]; exact hd.scheduled, by rw [hs]; exact hd.status_self,
        fun r' hr' => ?_⟩
      obtain ⟨running, o', s, -, hne, -, hsw, rfl⟩ := hd
      obtain ⟨hq', -⟩ := dispatchSwitch_queues hsw hq hne
      rw [hs] at hr'
      rw [hr'.unique hq'.run, mem_dispatchRun]
      rintro (htr | ⟨hw, -⟩)
      · exact hns.1 (TaskStatus.isAlive_iff.2 (.inl (hq.runnable t htr)))
      · exact hns.1 (TaskStatus.isAlive_iff.2 (.inr hw))

theorem Act.QueueSafe.of_grantSafe (hg : a.GrantSafe k) (hr : ∀ t, ¬ a.GrantsReader k.toObjects t) :
    a.QueueSafe k :=
  ⟨hg, fun t ht => absurd ht (hr t)⟩

theorem Act.not_grantsReader (h : ¬ a.usesRwlock) (t : TaskId) :
    ¬ a.GrantsReader k.toObjects t := by
  intro ht
  cases a <;> try exact ht
  case svc call => cases call <;> first | exact ht | exact h rfl

/-- Without suspensions and read-write locks, the queues hold what the statuses say for as long as
every hand-over is safe, and no longer. -/
theorem wellQueued_of_reach
    (h : machine.Reach (fun k a => ¬ a.usesRwlock ∧ ¬ a.suspends ∧ a.GrantSafe k) k) :
    WellQueued k.toSched ∧ ∀ a k', ¬ a.usesRwlock → ¬ a.suspends → machine.step k a k' →
      (WellQueued k'.toSched ↔ a.GrantSafe k) := by
  obtain ⟨hq, hn⟩ := reach_queued (c := True) h fun _ k a ha =>
    .of_grantSafe ha.2.2 (Act.not_grantsReader ha.1)
  refine ⟨hq.wellQueued, fun a k' hl _ ⟨he, hr⟩ => ⟨fun hw => ?_, fun hg => ?_⟩⟩
  · by_contra hg
    obtain ⟨t, -, hact, ht⟩ := not_wellQueued_of_not_grantSafe hq hr hg
    obtain ⟨r, w, hrun, -, hmem, -⟩ := hw
    exact ht r hrun ((hmem t).2 (.inr hact))
  · exact (hq.step hn (Act.run_effect hr) he fun _ =>
      .of_grantSafe hg (Act.not_grantsReader hl)).wellQueued

set_option maxRecDepth 10000 in
/-- A task that was restarted while it waited for a semaphore is still on its blocked list. A
release that finds it finished dispatches it and leaves it outside the run queue. -/
theorem not_wellQueued_after_restart :
    ∃ k, machine.Reach (fun _ a => ¬ a.usesRwlock ∧ ¬ a.suspends) k ∧ ¬ WellQueued k.toSched := by
  obtain ⟨k, hk, hst, h0, h1, h2⟩ := (Boot.simple [0, 16, 16] (by simp)).exists_after
    (fun _ a => ¬ a.usesRwlock ∧ ¬ a.suspends)
    (fun k => k.status 1 = .active ∧ k.runqueue = some 2 ∧ k.nrp 2 = some 0 ∧ k.nrp 0 = none)
    [.schedule, .contextSwitch, .svc (.semaphoreAcquire 0 uint32Max), .contextSwitch,
      .taskStart 1 16 0, .systick, .contextSwitch, .taskFinished, .systick, .contextSwitch,
      .svc (.semaphoreRelease 0)] (by decide)
  refine ⟨k, hk, ?_⟩
  rintro ⟨r, w, hr, -, hmem, -⟩
  have hc : Chain k.nrp k.runqueue [2, 0] := by simp [h0, h1, h2]
  have h : 1 ∈ r := (hmem 1).2 (.inr hst)
  rw [hr.unique hc] at h
  simp at h

set_option maxRecDepth 10000 in
theorem wellQueued_after_send : ∃ k : Kernel,
    k.running = some 2 ∧ k.status 1 = .idle ∧ k.regs 1 = ⟨0, 7⟩ ∧ WellQueued k.toSched := by
  obtain ⟨k, hk, hr, hs, hg⟩ := (Boot.simple [0, 16, 17] (by simp)).exists_after
    (fun k a => (¬ a.usesRwlock ∧ ¬ a.suspends) ∧
      (a.grantee k.toObjects).all fun t => (k.status t).isAlive)
    (fun k => k.running = some 2 ∧ k.status 1 = .idle ∧ k.regs 1 = ⟨0, 7⟩)
    [.schedule, .contextSwitch, .svc (.delay 5), .contextSwitch, .svc (.queueDequeue 0 10),
      .contextSwitch, .clock 6 0, .systick, .contextSwitch, .svc (.queueEnqueue 0 7 0)] (by decide)
  refine ⟨k, hr, hs, hg, (wellQueued_of_reach (hk.mono fun k a ha => ?_)).1⟩
  refine ⟨ha.1.1, ha.1.2, fun t ht => .inl ?_⟩
  simpa [ht] using ha.2

/-- A task is in the run queue exactly if it is runnable, and in the wait queue exactly if it
waits. -/
def InQueues (s : Sched) : Prop :=
  ∃ r w, Chain s.nrp s.runqueue r ∧ Chain s.nrp s.waitqueue w ∧
    (∀ t, s.status t = .idle ∨ s.status t = .active ↔ t ∈ r) ∧ ∀ t, s.status t = .wait ↔ t ∈ w

theorem WellQueued.inQueues (h : WellQueued s) : InQueues s := by
  obtain ⟨r, w, hr, -, hmr, -, hw, -, hmw, -⟩ := h
  exact ⟨r, w, hr, hw, fun t => (hmr t).symm, fun t => (hmw t).symm⟩

/-- Without restarts and read-write locks, suspension and resumption lose no task for as long as
every hand-over is safe, and no longer. A task that a safe step dispatches is in the run queue. -/
theorem inQueues_of_reach
    (h : machine.Reach (fun k a => ¬ a.usesRwlock ∧ ¬ a.restarts ∧ a.GrantSafe k) k) :
    InQueues k.toSched ∧ ∀ a k', ¬ a.usesRwlock → ¬ a.restarts → machine.step k a k' →
      (InQueues k'.toSched ↔ a.GrantSafe k) ∧
      (a.GrantSafe k → ∀ t, k'.scheduled = some t → k.scheduled ≠ some t →
        ∃ r, Chain k'.nrp k'.runqueue r ∧ t ∈ r) := by
  obtain ⟨hq, hn⟩ := reach_queued (c := True) h fun _ k a ha =>
    .of_grantSafe ha.2.2 (Act.not_grantsReader ha.1)
  constructor
  · exact hq.wellQueued.inQueues
  · rintro a k' hl _ ⟨he, hr⟩
    have heff := Act.run_effect hr
    have hkeep (hg : a.GrantSafe k) : WellQueued k'.toSched :=
      (hq.step hn heff he fun _ => .of_grantSafe hg (Act.not_grantsReader hl)).wellQueued
    refine ⟨⟨fun hw => ?_, fun hg => (hkeep hg).inQueues⟩, fun hg t ht hnt => ?_⟩
    · by_contra hg
      obtain ⟨t, -, hact, ht⟩ := not_wellQueued_of_not_grantSafe hq hr hg
      obtain ⟨r, w, hrun, -, hmem, -⟩ := hw
      exact ht r hrun ((hmem t).1 (.inr hact))
    · obtain ⟨r, w, hrun, -, hmem, -⟩ := (hkeep hg).inQueues
      have hact := ((heff.task hq hn he t).dispatched ht).resolve_left hnt
      exact ⟨r, hrun, (hmem t).1 (.inr hact)⟩

set_option maxRecDepth 10000 in
theorem inQueues_after_resume : ∃ k : Kernel,
    k.running = some 0 ∧ k.scheduled = some 1 ∧ InQueues k.toSched := by
  obtain ⟨k, hk, hr, hs⟩ := (Boot.simple [0, 16] (by simp)).exists_after
    (fun k a => (¬ a.usesRwlock ∧ ¬ a.restarts) ∧
      (a.grantee k.toObjects).all fun t => (k.status t).isAlive)
    (fun k => k.running = some 0 ∧ k.scheduled = some 1)
    [.schedule, .contextSwitch, .taskSuspend 1, .systick, .contextSwitch, .taskResume 1,
      .systick] (by decide)
  refine ⟨k, hr, hs, (inQueues_of_reach (hk.mono fun k a ha => ?_)).1⟩
  refine ⟨ha.1.1, ha.1.2, fun t ht => .inl ?_⟩
  simpa [ht] using ha.2

set_option maxRecDepth 10000 in
/-- A task whose wait for a mutex timed out is suspended, is then granted the mutex, and runs
outside the run queue. -/
theorem not_inQueues_after_suspend :
    ∃ k, machine.Reach (fun _ a => ¬ a.usesRwlock ∧ ¬ a.restarts) k ∧ ¬ InQueues k.toSched := by
  obtain ⟨k, hk, hst, h0, h1, h2⟩ := (Boot.simple [0, 16, 16, 16] (by simp)).exists_after
    (fun _ a => ¬ a.usesRwlock ∧ ¬ a.restarts)
    (fun k => k.status 2 = .active ∧ k.runqueue = some 1 ∧ k.nrp 1 = some 0 ∧ k.nrp 0 = none)
    [.schedule, .contextSwitch, .svc (.mutexAcquire 0 0), .systick, .contextSwitch,
      .svc (.mutexAcquire 0 1), .contextSwitch, .clock 1 0, .systick, .contextSwitch,
      .taskSuspend 2, .svc (.delay uint32Max), .contextSwitch, .svc (.mutexRelease 0)] (by decide)
  refine ⟨k, hk, ?_⟩
  rintro ⟨r, w, hr, -, hmem, -⟩
  have hc : Chain k.nrp k.runqueue [1, 0] := by simp [h0, h1, h2]
  have h : 2 ∈ r := (hmem 2).1 (.inr hst)
  rw [hr.unique hc] at h
  simp at h

end Osh
