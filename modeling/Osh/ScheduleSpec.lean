import Osh.Schedule
import Osh.SchedInvariant

namespace Osh
open Function (update)
open Lib

variable {s s' : Sched} {t running : TaskId} {l m r w : List TaskId} {n : Nat}

/-- The statuses of a task that is in one of the two queues. -/
def TaskStatus.isAlive : TaskStatus → Bool
  | .active | .idle | .wait => true
  | _ => false

theorem TaskStatus.isAlive_iff {st : TaskStatus} : st.isAlive ↔ st.isRunning ∨ st = .wait := by
  cases st <;> decide

theorem hasHigherPriorityLoop_spec {head : Option TaskId} {b : Bool}
    (h : hasHigherPriorityLoop s t n head = .ok b) (hc : Chain s.nrp head r) :
    b = true ↔ ∃ x ∈ r, (s.status x).isRunning ∧ s.priority x > s.priority t := by
  induction r generalizing n head with
  | nil =>
    obtain rfl := chain_nil.1 hc
    cases n <;> cases h <;> simp
  | cons x r ih =>
    obtain ⟨rfl, hc'⟩ := chain_cons.1 hc
    cases n with
    | zero => cases h
    | succ n =>
      rw [hasHigherPriorityLoop] at h
      split_ifs at h with hx
      · cases h
        simp only [List.mem_cons, exists_eq_or_imp, hx, and_self, true_or]
      · simp only [List.mem_cons, exists_eq_or_imp, hx, false_or]
        exact ih h hc'

theorem runqueueHasHigherPriority_spec {b : Bool} (h : runqueueHasHigherPriority s t = .ok b)
    (hq : Queues s r w) : b = true ↔ ∃ x ∈ r, s.priority x > s.priority t := by
  rw [hasHigherPriorityLoop_spec h hq.run]
  constructor
  · rintro ⟨x, hx, -, hp⟩
    exact ⟨x, hx, hp⟩
  · rintro ⟨x, hx, hp⟩
    exact ⟨x, hx, hq.runnable x hx, hp⟩

/-- The search keeps runnable tasks only, and as `new_task` none below the running task. -/
theorem findNewTaskLoop_found {ours : Nat} {first task new lower new' lower' : Option TaskId}
    (h : findNewTaskLoop s ours first n task new lower = .ok (new', lower'))
    (hn : ∀ x ∈ new, (s.status x).isRunning ∧ ours ≤ s.priority x)
    (hl : ∀ x ∈ lower, (s.status x).isRunning) :
    (∀ x ∈ new', (s.status x).isRunning ∧ ours ≤ s.priority x) ∧
      ∀ x ∈ lower', (s.status x).isRunning := by
  induction n generalizing task new lower with
  | zero => cases h
  | succ n ih =>
    unfold findNewTaskLoop at h
    split_ifs at h with he
    · cases h
      exact ⟨hn, hl⟩
    · cases task with
      | none => cases h
      | some t =>
        dsimp only at h
        have hset {P : TaskId → Prop} {p : Prop} [Decidable p] {o : Option TaskId}
            (hp : p → P t) (ho : ∀ x ∈ o, P x) :
            ∀ x ∈ (if p then some t else o), P x := by
          split_ifs with hp'
          · simpa using hp hp'
          · exact ho
        by_cases hh : (s.status t).isRunning ∧ s.priority t > ours
        · rw [if_pos hh] at h
          cases h
          exact ⟨by simpa using ⟨hh.1, hh.2.le⟩, hl⟩
        · rw [if_neg hh] at h
          have hn' := hset (P := fun x => (s.status x).isRunning ∧ ours ≤ s.priority x)
            (p := (s.status t).isRunning ∧ s.priority t = ours ∧ new = none)
            (fun hp => ⟨hp.1, hp.2.1.ge⟩) hn
          have hl' := hset (P := fun x => (s.status x).isRunning)
            (p := (s.status t).isRunning ∧ s.priority t < ours ∧ lower = none)
            (fun hp => hp.1) hl
          by_cases hf : runqueueNextWrapped s t = first
          · rw [if_pos hf] at h
            cases h
            exact ⟨hn', hl'⟩
          · rw [if_neg hf] at h
            exact ih h hn' hl'

theorem findNewTask_running (h : findNewTask s running = .ok (some t)) :
    (s.status t).isRunning := by
  simp only [findNewTask, bind_eq_ok] at h
  obtain ⟨⟨new, lower⟩, hloop, h⟩ := h
  obtain ⟨hn, hl⟩ := findNewTaskLoop_found hloop (by simp) (by simp)
  split_ifs at h
  · exact hl t (pure_eq_ok.1 h)
  · exact (hn t (pure_eq_ok.1 h)).1

theorem findNewTask_priority (h : findNewTask s running = .ok (some t))
    (hr : (s.status running).isRunning) : s.priority running ≤ s.priority t := by
  simp only [findNewTask, bind_eq_ok] at h
  obtain ⟨⟨new, lower⟩, hloop, h⟩ := h
  obtain ⟨hn, -⟩ := findNewTaskLoop_found hloop (by simp) (by simp)
  rw [if_neg (by simp [hr])] at h
  exact (hn t (pure_eq_ok.1 h)).2

theorem wakeLoop_spec {task : Option TaskId} (h : wakeLoop s n task = .ok s')
    (hc : Chain s.nrp task w) :
    s' = s ∨ ∃ t ∈ w, s.delay t ≠ uint32Max ∧ s.delay t ≤ s.uptime ∧
      osiTaskStatusSet s t .idle = .ok s' := by
  induction w generalizing n task with
  | nil =>
    obtain rfl := chain_nil.1 hc
    cases n <;> cases h <;> exact .inl rfl
  | cons x w ih =>
    obtain ⟨rfl, hc'⟩ := chain_cons.1 hc
    cases n with
    | zero => cases h
    | succ n =>
      rw [wakeLoop] at h
      split_ifs at h with hx
      · exact .inr ⟨x, List.mem_cons_self, hx.1, hx.2, h⟩
      · rcases ih h hc' with rfl | ⟨t, ht, hs⟩
        · exact .inl rfl
        · exact .inr ⟨t, List.mem_cons_of_mem _ ht, hs⟩

/-- The status that `osi_dispatch` leaves the running task with. -/
def TaskStatus.preempted : TaskStatus → TaskStatus
  | .active => .idle
  | status => status

theorem TaskStatus.isRunning_preempted {st : TaskStatus} :
    st.preempted.isRunning = st.isRunning := by
  cases st <;> rfl

theorem TaskStatus.preempted_ne_active {st : TaskStatus} : st.preempted ≠ .active := by
  cases st <;> decide

theorem TaskStatus.preempted_eq_wait {st : TaskStatus} : st.preempted = .wait ↔ st = .wait := by
  cases st <;> decide

/-- What `osi_dispatch` does to the fields of the tasks, their links apart. -/
def Sched.dispatched (s : Sched) (running task : TaskId) : Sched :=
  let s' := dispatchAccount { s with
    status := update (update s.status running (s.status running).preempted) task .active
    delay := update s.delay task 0 } running task
  { s' with scheduled := some task, pendSv := true }

theorem Queues.congr (hq : Queues s r w) (hl : Lists s' r w) (hp : s'.priority = s.priority)
    (hd : ∀ x ∈ w, s'.delay x = s.delay x)
    (hr : ∀ x, (s'.status x).isRunning = (s.status x).isRunning)
    (hw : ∀ x, s'.status x = .wait ↔ s.status x = .wait) : Queues s' r w where
  toLists := hl
  sorted := by rw [hp]; exact hq.sorted
  ordered := hq.ordered.imp_of_mem fun ha hb h => by rw [hd _ ha, hd _ hb]; exact h
  runnable x hx := by rw [hr]; exact hq.runnable x hx
  waiting x := by rw [hw]; exact hq.waiting x

theorem Queues.setDelay {delay : Nat} (hq : Queues s r w) (ht : t ∉ w) :
    Queues { s with delay := update s.delay t delay } r w := by
  refine hq.congr ⟨hq.run, hq.wait, hq.disjoint⟩ rfl (fun x hx => ?_) (fun _ => rfl)
    fun _ => Iff.rfl
  exact Function.update_of_ne (ne_of_mem_of_not_mem hx ht) _ _

theorem Complete.congr (hc : Complete s r w) (hn : ∀ x, x ∉ r → x ∉ w → s'.nrp x = s.nrp x)
    (hr : ∀ x, (s'.status x).isRunning = (s.status x).isRunning) : Complete s' r w where
  mem_run x hx := hc.mem_run x (by rw [← hr]; exact hx)
  unlinked x hx hx' := by rw [hn x hx hx']; exact hc.unlinked x hx hx'

theorem isRunning_update {status : TaskId → TaskStatus} {new : TaskStatus}
    (h : new.isRunning = (status t).isRunning) (x : TaskId) :
    (update status t new x).isRunning = (status x).isRunning := by
  rw [Function.update_apply]
  split_ifs with hx
  · rw [h, hx]
  · rfl

theorem eq_wait_update {status : TaskId → TaskStatus} {new : TaskStatus}
    (h : new = .wait ↔ status t = .wait) (x : TaskId) :
    update status t new x = .wait ↔ status x = .wait := by
  rw [Function.update_apply]
  split_ifs with hx
  · rw [h, hx]
  · rfl

theorem dispatchLeave_spec (h : dispatchLeave s running = .ok s') (hl : Lists s r w)
    (hr : ¬ (s.status running).isRunning → running ∉ r) :
    Lists s' r w ∧
      Relinked r { s with status := update s.status running (s.status running).preempted } s' := by
  have hrem (hst : (s.status running).preempted = s.status running)
      (hr : running ∉ r) (h : runqueueRemove s running = .ok s') : Lists s' r w ∧
      Relinked r { s with status := update s.status running (s.status running).preempted } s' := by
    obtain ⟨hl', hs, -⟩ := runqueueRemove_lists h hl
    rw [List.erase_of_not_mem hr] at hl'
    rw [hst, Function.update_eq_self]
    exact ⟨hl', hs⟩
  unfold dispatchLeave at h
  cases hst : s.status running <;> simp only [hst] at h hr
  case active =>
    cases h
    exact ⟨⟨hl.run, hl.wait, hl.disjoint⟩, rfl, fun _ _ => rfl⟩
  case idle | wait =>
    cases h
    simp only [TaskStatus.preempted, ← hst, Function.update_eq_self]
    exact ⟨hl, rfl, fun _ _ => rfl⟩
  all_goals
    rw [hst] at hrem
    exact hrem rfl (hr (by decide)) h

theorem Relinked.map {f : Sched → Sched} (h : Relinked l s s')
    (hf : ∀ n q w, f { s with nrp := n, runqueue := q, waitqueue := w } =
      { f s with nrp := n, runqueue := q, waitqueue := w })
    (hn : (f s).nrp = s.nrp) : Relinked l (f s) (f s') := by
  have he := hf s'.nrp s'.runqueue s'.waitqueue
  rw [← h.rest] at he
  constructor
  · rw [he]
  · intro x hx
    rw [he, hn]
    exact h.frame x hx

theorem Relinked.dispatch (h : Relinked l s s') :
    Relinked l { dispatchAccount s running t with scheduled := some t, pendSv := true }
      { dispatchAccount s' running t with scheduled := some t, pendSv := true } := by
  refine Relinked.map (f := fun s =>
    { dispatchAccount s running t with scheduled := some t, pendSv := true }) h ?_ ?_
  · intro n q w
    simp only [dispatchAccount]
    split_ifs <;> rfl
  · simp only [dispatchAccount]
    split_ifs <;> rfl

theorem dispatchAccount_eq : dispatchAccount s running t = { s with
    runtime := (dispatchAccount s running t).runtime
    scheduledAt := (dispatchAccount s running t).scheduledAt } := by
  unfold dispatchAccount
  split_ifs <;> rfl

@[simp] theorem dispatchAccount_status : (dispatchAccount s running t).status = s.status := by
  rw [dispatchAccount_eq]

@[simp] theorem dispatchAccount_priority :
    (dispatchAccount s running t).priority = s.priority := by
  rw [dispatchAccount_eq]

@[simp] theorem dispatchAccount_delay : (dispatchAccount s running t).delay = s.delay := by
  rw [dispatchAccount_eq]

@[simp] theorem dispatchAccount_nrp : (dispatchAccount s running t).nrp = s.nrp := by
  rw [dispatchAccount_eq]

@[simp] theorem dispatchAccount_runqueue :
    (dispatchAccount s running t).runqueue = s.runqueue := by
  rw [dispatchAccount_eq]

@[simp] theorem dispatchAccount_waitqueue :
    (dispatchAccount s running t).waitqueue = s.waitqueue := by
  rw [dispatchAccount_eq]

@[simp] theorem dispatchAccount_running :
    (dispatchAccount s running t).running = s.running := by
  rw [dispatchAccount_eq]

@[simp] theorem dispatchAccount_tasks : (dispatchAccount s running t).tasks = s.tasks := by
  rw [dispatchAccount_eq]

theorem dispatchRequeue_spec {old : TaskStatus} (h : dispatchRequeue s t old = .ok s')
    (hl : Lists s r w) (hr : old = .wait → t ∉ r) :
    Lists s' (if old = .wait then insertByPriority s.priority t r else r)
      (if old = .wait then w.erase t else w) ∧ Relinked (w ++ t :: r) s s' := by
  unfold dispatchRequeue at h
  split_ifs at h ⊢ with hold
  · simp only [bind_eq_ok] at h
    obtain ⟨s₁, h₁, h₂⟩ := h
    obtain ⟨hl₁, hs₁, -⟩ := waitqueueRemove_lists h₁ hl
    obtain ⟨hl₂, hs₂⟩ := runqueueAdd_lists h₂ hl₁ (hr hold) hl.wait.nodup.not_mem_erase
    rw [hs₁.priority] at hl₂
    exact ⟨hl₂, hs₁.trans hs₂⟩
  · cases h
    exact ⟨hl, rfl, fun _ _ => rfl⟩

def dispatchRun (s : Sched) (t : TaskId) (r : List TaskId) : List TaskId :=
  if s.status t = .wait then insertByPriority s.priority t r else r

def dispatchWait (s : Sched) (t : TaskId) (w : List TaskId) : List TaskId :=
  if s.status t = .wait then w.erase t else w

theorem dispatchSwitch_lists (h : dispatchSwitch s running t = .ok s') (hl : Lists s r w)
    (hrun : ¬ (s.status running).isRunning → running ∉ r) (hne : running ≠ t)
    (ht : s.status t = .wait → t ∉ r) :
    Lists s' (dispatchRun s t r) (dispatchWait s t w) ∧
      Relinked (r ++ (w ++ t :: r)) (s.dispatched running t) s' := by
  simp only [dispatchSwitch, bind_eq_ok, pure_eq_ok] at h
  obtain ⟨s₁, h₁, s₂, h₂, _, -, rfl⟩ := h
  obtain ⟨hl₁, hs₁⟩ := dispatchLeave_spec h₁ hl hrun
  have hold : s₁.status t = s.status t := by
    rw [hs₁.status]
    exact Function.update_of_ne hne.symm _ _
  obtain ⟨hl₂, hs₂⟩ := dispatchRequeue_spec (r := r) (w := w) h₂
    ⟨hl₁.run, hl₁.wait, hl₁.disjoint⟩ (by rw [hold]; exact ht)
  rw [hold] at hl₂
  have hbase : Relinked r { s with
      status := update (update s.status running (s.status running).preempted) t .active
      delay := update s.delay t 0 }
    { s₁ with delay := update s₁.delay t 0, status := update s₁.status t .active } := by
    refine Relinked.map (f := fun s : Sched =>
      { s with delay := update s.delay t 0, status := update s.status t .active }) hs₁ ?_ rfl
    exact fun _ _ _ => rfl
  refine ⟨⟨?_, ?_, ?_⟩, (hbase.trans hs₂).dispatch⟩
  · simpa [dispatchRun, hs₁.priority] using hl₂.run
  · simpa [dispatchWait] using hl₂.wait
  · simpa [dispatchRun, dispatchWait, hs₁.priority] using hl₂.disjoint

@[simp] theorem dispatched_status : (s.dispatched running t).status =
    update (update s.status running (s.status running).preempted) t .active := by
  simp [Sched.dispatched]

@[simp] theorem dispatched_priority : (s.dispatched running t).priority = s.priority := by
  simp [Sched.dispatched]

@[simp] theorem dispatched_delay : (s.dispatched running t).delay = update s.delay t 0 := by
  simp [Sched.dispatched]

@[simp] theorem dispatched_nrp : (s.dispatched running t).nrp = s.nrp := by
  simp [Sched.dispatched]

@[simp] theorem dispatched_running : (s.dispatched running t).running = s.running := by
  simp [Sched.dispatched]

@[simp] theorem dispatched_tasks : (s.dispatched running t).tasks = s.tasks := by
  simp [Sched.dispatched]

theorem mem_dispatchRun {x : TaskId} :
    x ∈ dispatchRun s t r ↔ x ∈ r ∨ s.status t = .wait ∧ x = t := by
  unfold dispatchRun
  split_ifs with ht
  · rw [mem_insertByPriority]
    tauto
  · simp [ht]

theorem mem_dispatchWait {x : TaskId} (hn : w.Nodup) :
    x ∈ dispatchWait s t w ↔ x ∈ w ∧ ¬ (s.status t = .wait ∧ x = t) := by
  unfold dispatchWait
  split_ifs with ht
  · rw [hn.mem_erase_iff]
    tauto
  · simp [ht]

theorem dispatchSwitch_queues (h : dispatchSwitch s running t = .ok s') (hq : Queues s r w)
    (hne : running ≠ t) : Queues s' (dispatchRun s t r) (dispatchWait s t w) ∧
      ((s.status t).isAlive → Complete s r w →
        Complete s' (dispatchRun s t r) (dispatchWait s t w)) := by
  have htr : s.status t = .wait → t ∉ r := fun ht => hq.notMem_run (by rw [ht]; decide)
  obtain ⟨hl, hs⟩ := dispatchSwitch_lists h hq.toLists hq.notMem_run hne htr
  have hstatus : ∀ x, s'.status x = if x = t then .active else
      if x = running then (s.status running).preempted else s.status x := by
    intro x
    rw [hs.status, dispatched_status, Function.update_apply, Function.update_apply]
  have hother : ∀ x ≠ t, (s'.status x).isRunning = (s.status x).isRunning ∧
      (s'.status x = .wait ↔ s.status x = .wait) := by
    intro x hx
    rw [hstatus, if_neg hx]
    split_ifs with hxr
    · rw [hxr, TaskStatus.isRunning_preempted, TaskStatus.preempted_eq_wait]
      exact ⟨rfl, Iff.rfl⟩
    · exact ⟨rfl, Iff.rfl⟩
  refine ⟨⟨hl, ?_, ?_, fun x hx => ?_, fun x => ?_⟩, fun ha hc => ⟨fun x hx => ?_, ?_⟩⟩
  · rw [hs.priority, dispatched_priority]
    unfold dispatchRun
    split_ifs
    · exact insertByPriority_sorted hq.sorted
    · exact hq.sorted
  · rw [hs.delay, dispatched_delay]
    have hsub : (dispatchWait s t w).Sublist w := by
      unfold dispatchWait
      split_ifs
      · exact List.erase_sublist
      · exact List.Sublist.refl w
    have htw : t ∉ dispatchWait s t w := by
      rw [mem_dispatchWait hq.nodup_wait, hq.waiting]
      tauto
    refine (hq.ordered.sublist hsub).imp_of_mem fun ha hb hab => ?_
    rw [Function.update_of_ne (ne_of_mem_of_not_mem ha htw),
      Function.update_of_ne (ne_of_mem_of_not_mem hb htw)]
    exact hab
  · by_cases hxt : x = t
    · rw [hstatus, if_pos hxt]
      rfl
    · rw [(hother x hxt).1]
      exact hq.runnable x ((mem_dispatchRun.1 hx).resolve_right fun h => hxt h.2)
  · rw [mem_dispatchWait hq.nodup_wait, hq.waiting]
    by_cases hxt : x = t
    · rw [hstatus, if_pos hxt]
      subst hxt
      simp
    · rw [(hother x hxt).2]
      tauto
  · rw [mem_dispatchRun]
    by_cases hxt : x = t
    · subst hxt
      rcases TaskStatus.isAlive_iff.1 ha with hr | hw
      · exact .inl (hc.mem_run x hr)
      · exact .inr ⟨hw, rfl⟩
    · rw [(hother x hxt).1] at hx
      exact .inl (hc.mem_run x hx)
  · intro x hx hx'
    rw [mem_dispatchRun, not_or] at hx
    rw [mem_dispatchWait hq.nodup_wait] at hx'
    have hxw : x ∉ w := fun hw => hx' ⟨hw, hx.2⟩
    have hxt : x ≠ t := by
      rintro rfl
      rcases TaskStatus.isAlive_iff.1 ha with hr | hw
      · exact hx.1 (hc.mem_run x hr)
      · exact hx.2 ⟨hw, rfl⟩
    rw [hs.frame x (by simp [hx.1, hxw, hxt]), dispatched_nrp]
    exact hc.unlinked x hx.1 hxw

end Osh
