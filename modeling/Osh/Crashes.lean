import Osh.Survival

namespace Osh
open Function (update)
open Lib

variable {k k' k₁ : Kernel} {s s' : Sched} {o o' : Objects} {t x running : TaskId} {w : Waitable}
  {a : Act} {l m r q : List TaskId} {n : Nat} {L : Waitable → List TaskId}

/-- A null pointer is dereferenced, or a loop runs forever. -/
def Stop.isCrash : Stop → Prop
  | .assertion _ => False
  | .fault | .diverge => True

section Lists

theorem osAssert_crashFree {site : Site} {p : Prop} [Decidable p] :
    Avoids Stop.isCrash (osAssert site p) := osAssert_spares id

theorem blockedAppendLoop_crashFree {b : TaskId} (hc : Chain o.nblocked (some b) l)
    (hn : l.length ≤ n) : Avoids Stop.isCrash (blockedAppendLoop t n o b) := by
  induction n generalizing b l with
  | zero =>
    obtain ⟨m, rfl, -⟩ := chain_some.1 hc
    simp at hn
  | succ n ih =>
    obtain ⟨m, rfl, hm⟩ := chain_some.1 hc
    unfold blockedAppendLoop
    apply osAssert_crashFree.bind
    intro _ _
    apply osAssert_crashFree.bind
    intro _ _
    cases hb : o.nblocked b with
    | none => exact .ok
    | some c => exact ih (hb ▸ hm) (by simpa using hn)

theorem ListsEnd.blockedEnq (h : ListsEnd o n) : Avoids Stop.isCrash (blockedEnq n o w t) := by
  apply Avoids.bind
  · apply osAssert_crashFree.bind
    intro _ _
    obtain ⟨l, hl, hlen⟩ := h w
    cases hb : o.blocked w with
    | none => exact .ok
    | some b => exact blockedAppendLoop_crashFree (hb ▸ hl) hlen
  · exact fun _ _ => osAssert_crashFree.bind fun _ _ => .pure

theorem blockedDeq_crashFree : Avoids Stop.isCrash (blockedDeq o w) := by
  unfold blockedDeq
  cases o.blocked w with
  | none => exact .ok
  | some b => exact osAssert_crashFree.bind fun _ _ => .pure

end Lists

section Detach

theorem ListsEnd.detachList (h : ListsEnd o n) :
    Avoids Stop.isCrash (detachList n o w t) := by
  obtain ⟨l, hl, hn⟩ := h w
  exact .of_returns (detachList_total hl hn)

theorem ListsEnd.branch {p : Prop} [Decidable p] {f : Objects → Objects} (h : ListsEnd o n) :
    Avoids Stop.isCrash (do
      osAssert .dispatchDetach p
      let o ← Osh.detachList n o w t
      return f o) :=
  osAssert_crashFree.bind fun _ _ => h.detachList.bind fun _ _ => .pure

theorem ListsEnd.detachMutex (h : ListsEnd o n) : Avoids Stop.isCrash (detachMutex n o t) := by
  unfold Osh.detachMutex
  split_ifs
  · cases o.taskMutex t with
    | none => exact .error id
    | some m => exact h.branch (w := .mutex m)
  · exact .ok

theorem ListsEnd.detachQueue (h : ListsEnd o n) : Avoids Stop.isCrash (detachQueue n o t) := by
  unfold Osh.detachQueue
  split_ifs
  · cases o.taskQueue t with
    | none => exact .error id
    | some m => exact h.branch (w := .queue m)
  · exact .ok

theorem ListsEnd.detachSemaphore (h : ListsEnd o n) :
    Avoids Stop.isCrash (detachSemaphore n o t) := by
  unfold Osh.detachSemaphore
  split_ifs
  · cases o.taskSemaphore t with
    | none => exact .error id
    | some m => exact h.branch (w := .semaphore m)
  · exact .ok

theorem ListsEnd.detachRwlock (h : ListsEnd o n) : Avoids Stop.isCrash (detachRwlock n o t) := by
  unfold Osh.detachRwlock
  split_ifs
  · cases o.taskRwlock t with
    | none => exact .error id
    | some m => exact h.branch (w := .rwlock m)
  · exact .ok

theorem branch_flags {p : Prop} [Decidable p] {f : Objects → Objects}
    (h : (do
      osAssert .dispatchDetach p
      let o ← detachList n o w t
      return f o) = .ok o') (hf : ∀ o, (f o).flags t = 0) : o'.flags t = 0 := by
  simp only [bind_eq_ok, pure_eq_ok] at h
  obtain ⟨_, -, o₁, -, rfl⟩ := h
  exact hf o₁

theorem detachMutex_keeps (h : detachMutex n o t = .ok o') : o' = o ∨ o'.flags t = 0 := by
  unfold detachMutex at h
  split_ifs at h
  · cases hm : o.taskMutex t with
    | none =>
      rw [hm] at h
      cases h
    | some m =>
      rw [hm] at h
      exact .inr (branch_flags (w := .mutex m) h fun _ => Function.update_self ..)
  · cases h
    exact .inl rfl

theorem detachQueue_keeps (h : detachQueue n o t = .ok o') : o' = o ∨ o'.flags t = 0 := by
  unfold detachQueue at h
  split_ifs at h
  · cases hm : o.taskQueue t with
    | none =>
      rw [hm] at h
      cases h
    | some m =>
      rw [hm] at h
      exact .inr (branch_flags (w := .queue m) h fun _ => Function.update_self ..)
  · cases h
    exact .inl rfl

theorem detachSemaphore_keeps (h : detachSemaphore n o t = .ok o') :
    o' = o ∨ o'.flags t = 0 := by
  unfold detachSemaphore at h
  split_ifs at h
  · cases hm : o.taskSemaphore t with
    | none =>
      rw [hm] at h
      cases h
    | some m =>
      rw [hm] at h
      exact .inr (branch_flags (w := .semaphore m) h fun _ => Function.update_self ..)
  · cases h
    exact .inl rfl

/-- A branch that detaches the task clears its flags, so that no other branch is taken. -/
theorem ListsEnd.dispatchDetach (h : ListsEnd o n) :
    Avoids Stop.isCrash (dispatchDetach n o t) := by
  apply h.detachMutex.bind
  intro o₁ h₁
  rcases detachMutex_keeps h₁ with rfl | hz
  · apply h.detachQueue.bind
    intro o₂ h₂
    rcases detachQueue_keeps h₂ with rfl | hz
    · apply h.detachSemaphore.bind
      intro o₃ h₃
      rcases detachSemaphore_keeps h₃ with rfl | hz
      · exact h.detachRwlock
      · rw [detachRwlock_done hz]
        exact .ok
    · rw [detachSemaphore_done hz, ok_bind, detachRwlock_done hz]
      exact .ok
  · rw [detachQueue_done hz, ok_bind, detachSemaphore_done hz, ok_bind, detachRwlock_done hz]
    exact .ok

end Detach

section Dispatch

theorem dispatchSwitch_crashFree (hq : Queues s r q) (hr : (dispatchRun s t r).length ≤ s.bound)
    (hw : q.length ≤ s.bound) (hne : running ≠ t) :
    Avoids Stop.isCrash (dispatchSwitch s running t) := by
  have htr : s.status t = .wait → t ∉ r := fun ht => hq.notMem_run (by rw [ht]; decide)
  have hsub : r.length ≤ s.bound := by
    apply le_trans _ hr
    unfold dispatchRun insertByPriority
    split_ifs
    · rw [List.orderedInsert_length]
      exact Nat.le_succ _
    · exact le_rfl
  apply (Avoids.of_returns (dispatchLeave_total hq.toLists hsub)).bind
  intro s₁ h₁
  obtain ⟨hl₁, hs₁⟩ := dispatchLeave_spec h₁ hq.toLists hq.notMem_run
  have hb₁ : s₁.bound = s.bound := congrArg (fun l => List.length l + 1) hs₁.rest.tasks
  have hold : s₁.status t = s.status t := by
    rw [hs₁.status]
    exact Function.update_of_ne hne.symm _ _
  have hl₁' : Lists { s₁ with
      delay := update s₁.delay t 0, status := update s₁.status t .active } r q :=
    ⟨hl₁.run, hl₁.wait, hl₁.disjoint⟩
  rw [← hold] at htr
  apply Avoids.bind
  · apply Avoids.of_returns
    exact dispatchRequeue_total hl₁' (hsub.trans_eq hb₁.symm) (hw.trans_eq hb₁.symm) htr
      (Function.update_self ..)
  intro s₂ h₂
  obtain ⟨hl₂, hs₂⟩ := dispatchRequeue_spec h₂ hl₁' htr
  have hb₂ : s₂.bound = s.bound :=
    (congrArg (fun l => List.length l + 1) hs₂.rest.tasks).trans hb₁
  have hrun : (if s₁.status t = .wait then insertByPriority s₁.priority t r else r) =
      dispatchRun s t r := by
    rw [dispatchRun, hold, hs₁.priority]
  apply Avoids.bind
  · unfold dispatchIdleCheck
    split_ifs
    · have hlen : runqueueLength (dispatchAccount s₂ running t) s.bound s₂.runqueue =
          .ok (dispatchRun s t r).length := by
        refine runqueueLength_eq ?_ hr
        rw [dispatchAccount_nrp, ← hrun]
        exact hl₂.run
      rw [dispatchAccount_runqueue, dispatchAccount_bound, hb₂, hlen]
      exact osAssert_crashFree
    · exact .ok
  · exact fun _ _ => .pure

theorem Callable.osiDispatch_crashFree (hc : Callable k L) (ht : t ∈ k.tasks) :
    Avoids Stop.isCrash (osiDispatch k t) := by
  unfold osiDispatch
  cases hr : k.running with
  | none => exact .error id
  | some running =>
    dsimp only
    split_ifs with hne
    · exact .ok
    · apply hc.listsEnd.dispatchDetach.bind
      intro o _
      obtain ⟨r, q, hq, -⟩ := hc.queued
      have hlen : (dispatchRun k.toSched t r).length ≤ k.bound := by
        apply Sched.length_le_bound hq.nodup_dispatchRun
        intro x hx
        rcases mem_dispatchRun.1 hx with hx | ⟨-, rfl⟩
        · exact hc.created.used x (hq.used (List.mem_append_left _ hx))
        · exact ht
      exact (dispatchSwitch_crashFree hq hlen (hc.length_le hq).2 hne).bind fun _ _ => .pure

end Dispatch

section Schedule

/-- `osi_schedule` looks for a task where the search goes round for ever. -/
def Kernel.SearchCircles (k : Kernel) : Prop :=
  ∃ t s r w, k.running = some t ∧ k.status t ≠ .idle ∧ k.scheduled = none ∧
    wakeExpired k.toSched = .ok s ∧ Chain s.nrp s.runqueue r ∧ Chain s.nrp s.waitqueue w ∧
      Circles s t r w

theorem Searchable.findNewTask_circles (hs : Searchable s r q) (hc : Circles s t r q) :
    findNewTask s t = .error .diverge := by
  cases h : findNewTask s t with
  | ok new => exact absurd (searchEnds_of_ok h) (hs.not_searchEnds hc)
  | error e =>
    obtain ⟨ht, hz, hne, hsame⟩ := hc
    obtain ⟨pre, post, rfl⟩ := List.append_of_mem ht
    have hpost : post ≠ [] := by
      rintro rfl
      obtain ⟨mid, -, rfl, hlast⟩ := hs.wait.split
      exact hz hlast
    have hl := hs.queues.lasso rfl hs.length_le
    have hdiv := hl.findNewTask_diverges hpost hne fun x hx _ => hsame x hx
    rw [findNewTask_delay] at hdiv
    exact h.symm.trans hdiv

variable (hc : Callable k L) (hq : Queued True k.toSched)
include hc hq

theorem Callable.searchable (hw : wakeExpired k.toSched = .ok s)
    (hr : Chain s.nrp s.runqueue r) (hwq : Chain s.nrp s.waitqueue q) :
    Queued True s ∧ Searchable s r q := by
  have hs : Queued True s := hq.wakes hw
  refine ⟨hs, hs.searchable (fun x hx => ?_) hr hwq⟩
  rw [(wakeLoop_rethreaded hw).tasks]
  exact hc.created.used x (.of_wakes hc.queued hw hx)

theorem Callable.osiSchedule_circles (h : k.SearchCircles) : osiSchedule k = .error .diverge := by
  obtain ⟨t, s, r, w, hr, hi, hs, hw, hrq, hwq, hcirc⟩ := h
  have hfind := (hc.searchable hq hw hrq hwq).2.findNewTask_circles hcirc
  simp only [osiSchedule, hr, if_neg hi, if_neg (not_not.2 hs), hw, ok_bind, hfind]
  rfl

theorem Callable.findNewTask_total (hr : k.running = some t) (hi : k.status t ≠ .idle)
    (hn : k.scheduled = none) (hw : wakeExpired k.toSched = .ok s) (h : ¬ k.SearchCircles) :
    ∃ new, findNewTask s t = .ok new := by
  obtain ⟨r, w, hqs, hcomp⟩ := hq.wakes hw
  obtain ⟨-, hs⟩ := hc.searchable hq hw hqs.run hqs.wait
  have hnc : ¬ Circles s t r w := fun hcirc =>
    h ⟨t, s, r, w, hr, hi, hn, hw, hqs.run, hqs.wait, hcirc⟩
  exact ⟨_, hs.findNewTask_successor ((hcomp trivial).unlinked t) hnc⟩

end Schedule

def Act.Circling (k : Kernel) (a : Act) : Prop :=
  ∃ k₁, EntersSchedule k a k₁ ∧ k₁.SearchCircles

namespace Steady
variable (hs : Steady k L)
include hs

theorem circles (h : a.Circling k) : a.run k = .error .diverge := by
  obtain ⟨k₁, he, hcirc⟩ := h
  obtain ⟨L', hc⟩ := hs.callable.enters hs.next hs.free he
  obtain ⟨post, hpost⟩ := he.run
  rw [hpost, hc.osiSchedule_circles (he.keepsQueued hs.queued hs.next) hcirc]
  rfl

theorem findNewTask_total (hn : ¬ a.Circling k) (he : EntersSchedule k a k₁)
    (hr : k₁.running = some t) (hi : k₁.status t ≠ .idle) (hsched : k₁.scheduled = none)
    (hw : wakeExpired k₁.toSched = .ok s) : ∃ new, findNewTask s t = .ok new := by
  obtain ⟨L', hc⟩ := hs.callable.enters hs.next hs.free he
  apply hc.findNewTask_total (he.keepsQueued hs.queued hs.next) hr hi hsched hw
  exact fun hcirc => hn ⟨k₁, he, hcirc⟩

theorem survives_crash (hn : ¬ a.Circling k) : Survives Stop.isCrash k a where
  asserts _ hbad := hbad.elim
  enq o w r hsame _ _ := by
    have hends : ListsEnd o k.bound := by
      intro w
      rw [hsame.nblocked, hsame.blocked]
      exact hs.callable.listsEnd w
    exact hends.blockedEnq
  deq _ _ _ := blockedDeq_crashFree
  search k₁ s r he hr hi hsched hw :=
    .of_returns (hs.findNewTask_total hn he hr hi hsched hw)
  dispatch k₁ t hd := by
    obtain ⟨ht, L', hc⟩ := hd.callable hs.callable hs.next hs.free
    exact hc.osiDispatch_crashFree ht
  deadline hbad := hbad.elim
  wakes hbad := hbad.elim
  aborts hbad := hbad.elim

end Steady

/-- The only way in which a step of the kernel crashes is that the search for the next task goes
round the run queue for ever. -/
theorem crashes_iff (h : machine.Reach (fun k a => a.RestartsFree k ∧ a.QueueSafe k) k)
    (he : a.Enabled k) :
    a.run k ≠ .error .fault ∧ (a.run k = .error .diverge ↔ a.Circling k) := by
  obtain ⟨L, hs⟩ := reach_steady h fun _ _ ha => ha
  by_cases hc : a.Circling k
  · have hdiv := hs.circles hc
    rw [hdiv]
    exact ⟨nofun, iff_of_true rfl hc⟩
  · have hfree := (hs.survives_crash hc).run hs he
    exact ⟨fun hf => hfree _ hf trivial, iff_of_false (fun hd => hfree _ hd trivial) hc⟩

set_option maxRecDepth 10000 in
theorem crashes_iff_lowest : ∃ k : Kernel, (Act.svc (.delay 5)).run k = .error .diverge ∧
    (Act.svc (.delay 5)).Circling k := by
  obtain ⟨k, hk, hs, hd⟩ := (Boot.simple [0, 16, 0] (by simp)).exists_after
    (fun k a => GrantsNothing k a ∧ ¬ a.restarts) (fun k => k.scheduled = none ∧
      stopOf ((Act.svc (.delay 5)).run k) = some .diverge)
    [.taskSuspend 2, .schedule, .contextSwitch, .svc (.delay 100), .contextSwitch, .taskResume 2,
      .schedule, .contextSwitch] (by decide)
  have hdiv := eq_error_of_stopOf hd
  have hsafe : machine.Reach (fun k a => a.RestartsFree k ∧ a.QueueSafe k) k := by
    apply hk.mono
    intro k a ha
    exact ⟨.of_not_restarts ha.2, ha.1.queueSafe⟩
  have he : (Act.svc (.delay 5)).Enabled k := hs
  exact ⟨k, hdiv, (crashes_iff hsafe he).2.1 hdiv⟩

section Idle
variable {i : TaskId} {ok : Kernel → Act → Prop}

/-- The idle task makes no service call and is not suspended. -/
def Act.SparesIdle (k : Kernel) : Act → Prop
  | .svc _ => k.running ≠ k.idle
  | .taskSuspend t => k.idle ≠ some t
  | _ => True

instance (k : Kernel) (a : Act) : Decidable (a.SparesIdle k) :=
  match a with
  | .svc _ => inferInstanceAs (Decidable (¬ k.running = k.idle))
  | .taskSuspend t => inferInstanceAs (Decidable (¬ k.idle = some t))
  | .taskFinished | .taskStart _ _ _ | .taskResume _ | .systick | .schedule | .contextSwitch
  | .enqueueIsr _ _ | .clock _ _ => inferInstanceAs (Decidable True)

structure IdleReady (s : Sched) (i : TaskId) : Prop where
  idle : s.idle = some i
  running : (s.status i).isRunning
  priority : s.priority i = priorityIdle

theorem Shifted.isRunning (h : Shifted s s' x) (hx : (s.status x).isRunning) :
    (s'.status x).isRunning := by
  cases h with
  | stays hst => rw [hst]; exact hx
  | preempted _ hst => rw [hst, TaskStatus.isRunning_preempted]; exact hx
  | woken _ hst | dispatched _ hst => rw [hst]; rfl

/-- A task that can run still can after a step, unless it gives that up or is suspended. -/
theorem TaskEffect.isRunning (h : TaskEffect k k' x a) (hx : (k.status x).isRunning)
    (hcall : a.isCall → k.running ≠ some x) (hfin : a = .taskFinished → k.running ≠ some x)
    (hsusp : a ≠ .taskSuspend x) : (k'.status x).isRunning := by
  cases h with
  | shifted h => exact h.isRunning hx
  | leaves hr => exact absurd hr (hcall rfl)
  | readied _ hst _ h =>
    apply h.isRunning
    rw [hst]
    rfl
  | granted _ hst => rw [hst]; rfl
  | finished hr => exact absurd hr (hfin rfl)
  | suspended => exact absurd rfl hsusp
  | switched hst => rw [hst]; exact hx

theorem IdleReady.step (hi : IdleReady k.toSched i) (hs : machine.step k a k')
    (ha : a.SparesIdle k) (hq : Queued True k.toSched) (hn : NextInv (· ≠ .wait) k.toSched) :
    IdleReady k'.toSched i := by
  obtain ⟨he, hr⟩ := hs
  have heff := Act.run_effect hr
  have hrun : (k'.status i).isRunning := by
    apply (heff.task hq hn he i).isRunning hi.running
    · intro hc
      cases a with
      | svc call => exact hi.idle ▸ ha
      | _ => cases hc
    · rintro rfl hrun
      simp only [Act.run, Osh.taskFinished, hrun, bind_eq_ok, osAssert_eq_ok] at hr
      obtain ⟨_, ⟨_, hne, -⟩, -⟩ := hr
      exact hne hi.idle
    · rintro rfl
      exact ha hi.idle
  by_cases hres : a.restarts
  · cases a with
    | taskStart t priority params =>
      obtain ⟨hst, -⟩ := osTaskStartOptions_sched hr
      have hsame := osTaskStartOptions_rethreaded hr
      have hit : i ≠ t := by
        rintro rfl
        exact hst hi.running
      refine ⟨hsame.idle.trans hi.idle, hrun, ?_⟩
      rw [hsame.priority]
      exact (Function.update_of_ne hit _ _).trans hi.priority
    | _ => cases hres
  · obtain ⟨hp, hidle⟩ := heff.turn.priority hres
    exact ⟨hidle.trans hi.idle, hrun, by rw [hp]; exact hi.priority⟩

theorem reach_idleReady (h : machine.Reach ok k)
    (hok : ∀ k a, ok k a → a.QueueSafe k ∧ a.SparesIdle k) : ∃ i, IdleReady k.toSched i := by
  induction h with
  | init hk =>
    obtain ⟨b, hb⟩ := hk
    obtain ⟨k₀, i, hI, hi, rfl⟩ := b.start_invariant (I := fun k => IdleLowest k.toSched) hb nofun
      fun k t options k' _ ht hst hk => hk.initialize ht hst
    refine ⟨i, hi, ?_, (hI i hi).2⟩
    dsimp only
    rw [Function.update_self]
    rfl
  | step h ha hs ih =>
    obtain ⟨i, hi⟩ := ih
    obtain ⟨hq, hn⟩ := reach_queued h fun _ k a ha => (hok k a ha).1
    exact ⟨i, hi.step hs (hok _ _ ha).2 hq hn⟩

theorem EntersSchedule.isRunning (h : EntersSchedule k a k₁) (hx : (k.status x).isRunning)
    (hr : a.isCall → k.running ≠ some x) : (k₁.status x).isRunning := by
  have hset {s : Sched} {t : TaskId} {delay : TaskId → Nat} {new : TaskStatus}
      (h : osiTaskStatusSet { k.toSched with delay := delay } t new = .ok s) (hxt : x ≠ t) :
      (s.status x).isRunning := by
    have hst : s.status = update k.status t new := (osiTaskStatusSet_rethreaded h).status
    rw [hst, Function.update_of_ne hxt]
    exact hx
  cases h with
  | schedule | systick => exact hx
  | delay h =>
    obtain ⟨hrun, -, -, s, hs, rfl⟩ := h
    apply hset hs
    rintro rfl
    exact hr rfl hrun
  | abort hrun _ hs =>
    have hs' : osiTaskStatusSet { k.toSched with delay := k.delay } _ .aborted = .ok _ := hs
    apply hset hs'
    rintro rfl
    exact hr rfl hrun
  | block hp _ h =>
    obtain ⟨hrun, -, -, s, hs, rfl⟩ := h
    apply hset hs
    rintro rfl
    apply hr _ hrun
    cases hp <;> rfl
  | queued _ _ hs =>
    unfold MakesRunnable at hs
    split_ifs at hs
    · rw [hs]
      exact hx
    · have hst := (osiTaskStatusSet_rethreaded hs).status
      dsimp only at hst ⊢
      rw [hst, Function.update_apply]
      split_ifs
      · rfl
      · exact hx

theorem IdleReady.enters (hi : IdleReady k.toSched i) (ha : a.SparesIdle k)
    (he : EntersSchedule k a k₁) : (k₁.status i).isRunning := by
  apply he.isRunning hi.running
  intro hcall
  cases a with
  | svc call => exact hi.idle ▸ ha
  | _ => cases hcall

theorem IdleReady.not_circling (hi : IdleReady k.toSched i) (hs : Steady k L)
    (hp : ∀ x ∈ k.tasks, x ≠ i → priorityIdle < k.priority x) (ha : a.SparesIdle k) :
    ¬ a.Circling k := by
  rintro ⟨k₁, he, t, s, r, w, hr, -, -, hw, hrun, hwait, hcirc⟩
  obtain ⟨L', hc⟩ := hs.callable.enters hs.next hs.free he
  have hq₁ := he.keepsQueued hs.queued hs.next
  obtain ⟨-, hsearch⟩ := hc.searchable hq₁ hw hrun hwait
  obtain ⟨htw, -, -, hsame⟩ := hcirc
  have hi₁ := hi.enters ha he
  have hi₂ : (s.status i).isRunning := by
    rcases wakeExpired_status hq₁ hw i with hst | ⟨-, hst⟩
    · rw [hst]
      exact hi₁
    · rw [hst]
      rfl
  have hprio : s.priority = k.priority := by
    rw [(wakeLoop_rethreaded hw).priority]
    exact he.requeued.priority
  have hti : t ≠ i := by
    rintro rfl
    have hst := (hsearch.waiting t).1 htw
    rw [hst] at hi₂
    cases hi₂
  have ht : t ∈ k.tasks := by
    have ht₁ := hc.created.used t (.inl hr)
    rwa [he.requeued.tasks] at ht₁
  have hlt := hp t ht hti
  have heq := hsame i ((hsearch.runnable i).2 hi₂)
  rw [hprio, hi.priority] at heq
  omega

/-- A program whose tasks are above the idle task, which only idles, never crashes. -/
theorem never_crashes
    (h : machine.Reach (fun k a => (a.RestartsFree k ∧ a.QueueSafe k) ∧ a.SparesIdle k) k)
    (he : a.Enabled k) (ha : a.SparesIdle k)
    (hp : ∀ x ∈ k.tasks, k.idle ≠ some x → priorityIdle < k.priority x) :
    a.run k ≠ .error .fault ∧ a.run k ≠ .error .diverge := by
  obtain ⟨i, hi⟩ := reach_idleReady h fun _ _ ha => ⟨ha.1.2, ha.2⟩
  obtain ⟨L, hs⟩ := reach_steady h fun _ _ ha => ha.1
  have hnc := hi.not_circling hs (fun x hx hxi => hp x hx fun he => hxi ?_) ha
  · have hfree := (hs.survives_crash hnc).run hs he
    exact ⟨fun hf => hfree _ hf trivial, fun hd => hfree _ hd trivial⟩
  · exact Option.some.inj (he.symm.trans hi.idle)

set_option maxRecDepth 10000 in
theorem never_crashes_delay : ∃ k : Kernel, k.running = some 1 ∧
    (Act.svc (.delay 5)).run k ≠ .error .fault ∧ (Act.svc (.delay 5)).run k ≠ .error .diverge := by
  obtain ⟨k, hk, hr, hs, hi, hp⟩ := (Boot.simple [0, 16] (by simp)).exists_after
    (fun k a => (GrantsNothing k a ∧ ¬ a.restarts) ∧ a.SparesIdle k)
    (fun k => k.running = some 1 ∧ k.scheduled = none ∧ k.idle = some 0 ∧
      ∀ x ∈ k.tasks, k.idle ≠ some x → priorityIdle < k.priority x)
    [.schedule, .contextSwitch] (by decide)
  have hsafe : machine.Reach
      (fun k a => (a.RestartsFree k ∧ a.QueueSafe k) ∧ a.SparesIdle k) k := by
    apply hk.mono
    intro k a ha
    exact ⟨⟨.of_not_restarts ha.1.2, ha.1.1.queueSafe⟩, ha.2⟩
  have he : (Act.svc (.delay 5)).Enabled k := hs
  have hspare : (Act.svc (.delay 5)).SparesIdle k := by
    change k.running ≠ k.idle
    rw [hr, hi]
    decide
  exact ⟨k, hr, never_crashes hsafe he hspare hp⟩

end Idle

end Osh
