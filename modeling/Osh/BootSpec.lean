import Osh.SchedRuns

namespace Osh
open Function (update)
open Lib

variable {k k' : Kernel} {t : TaskId} {options : TaskOptions}

/-- The control block of a task as it is initialized, before the task joins the run queue. -/
def Sched.created (s : Sched) (t : TaskId) (options : TaskOptions) : Sched :=
  { s with
    status := update s.status t (if options.suspended then .suspended else .idle)
    delay := update s.delay t 0
    started := update s.started t s.uptime
    runtime := update s.runtime t 0
    scheduledAt := update s.scheduledAt t 0
    nrp := update s.nrp t none
    priority := update s.priority t (if s.idle = none then 0 else options.priority)
    tasks := t :: s.tasks
    ntasks := (s.ntasks + 1) % 2 ^ 8
    idle := s.idle.or (some t) }

def Objects.created (o : Objects) (t : TaskId) (options : TaskOptions) : Objects :=
  { o with
    stackSize := update o.stackSize t options.stackSize
    params := update o.params t options.params
    flags := update o.flags t 0
    taskQueue := update o.taskQueue t none
    taskMutex := update o.taskMutex t none
    nblocked := update o.nblocked t none
    taskSemaphore := update o.taskSemaphore t none
    taskRwlock := update o.taskRwlock t none
    c := update o.c t 0
    regs := update o.regs t ⟨options.params, 0x1001⟩ }

theorem initializeStack_cases {o o' : Objects} (h : initializeStack o t = .ok o') :
    o' = { o with regs := update o.regs t ⟨o.params t, 0x1001⟩ } := by
  simp only [initializeStack, bind_eq_ok, osAssert_eq_ok, pure_eq_ok] at h
  obtain ⟨_, -, _, -, rfl⟩ := h
  rfl

theorem osTaskInitializeOptions_cases
    (hst : k.state = .initialized ∨ k.state = .tasksInitialized)
    (h : osTaskInitializeOptions k t options = .ok k') :
    (k.idle = none → options.suspended = false) ∧ ∃ s,
      joinRunqueue (k.created t options) t = .ok s ∧
      k' = { toSched := { s with state := .tasksInitialized },
             toObjects := k.toObjects.created t options } := by
  unfold osTaskInitializeOptions at h
  rw [if_neg (by rcases hst with hst | hst <;> simp [hst])] at h
  simp only [bind_eq_ok, pure_eq_ok] at h
  obtain ⟨o, ho, s₀, hs₀, s, hs, rfl⟩ := h
  have ho' : o = k.toObjects.created t options := by
    rw [initializeStack_cases ho]
    simp [Objects.created]
  have hs' : (k.idle = none → options.suspended = false) ∧ s₀ = k.created t options := by
    unfold chooseIdle at hs₀
    cases hi : k.idle with
    | none =>
      simp only [hi, if_true, bind_eq_ok, osAssert_eq_ok, pure_eq_ok] at hs₀
      obtain ⟨_, hsu, rfl⟩ := hs₀
      refine ⟨fun _ => by simpa using hsu, ?_⟩
      simp [Sched.created, hi]
    | some i =>
      simp only [hi, reduceCtorEq, if_false, Except.ok.injEq] at hs₀
      subst hs₀
      exact ⟨fun h => by simp at h, by simp [Sched.created, hi]⟩
  obtain ⟨hi, rfl⟩ := hs'
  exact ⟨hi, s, hs, by rw [ho']⟩

theorem joinRunqueue_rethreaded {s s' : Sched} (h : joinRunqueue s t = .ok s') :
    Rethreaded s s' := by
  unfold joinRunqueue at h
  split_ifs at h
  · exact runqueueAdd_rethreaded h
  · cases h
    rfl

theorem osTaskInitializeOptions_tasks
    (hst : k.state = .initialized ∨ k.state = .tasksInitialized)
    (h : osTaskInitializeOptions k t options = .ok k') :
    k'.state = .tasksInitialized ∧ k'.tasks = t :: k.tasks := by
  obtain ⟨-, s, hs, rfl⟩ := osTaskInitializeOptions_cases hst h
  exact ⟨rfl, (joinRunqueue_rethreaded hs).tasks⟩

theorem initializeTasks_invariant {I : Kernel → Prop} {l : List (TaskId × TaskOptions)}
    (h : initializeTasks k l = .ok k') (hst : k.state = .initialized ∨ k.state = .tasksInitialized)
    (hl : (l.map Prod.fst).Nodup) (hd : ∀ t ∈ l.map Prod.fst, t ∉ k.tasks) (hk : I k)
    (hstep : ∀ k t options k', (t, options) ∈ l → t ∉ k.tasks →
      (k.state = .initialized ∨ k.state = .tasksInitialized) → I k →
      osTaskInitializeOptions k t options = .ok k' → I k') :
    I k' ∧ (l ≠ [] → k'.state = .tasksInitialized) := by
  induction l generalizing k with
  | nil =>
    cases h
    exact ⟨hk, fun h => absurd rfl h⟩
  | cons p l ih =>
    obtain ⟨t, options⟩ := p
    simp only [initializeTasks, bind_eq_ok] at h
    obtain ⟨k₁, h₁, h⟩ := h
    rw [List.map_cons, List.nodup_cons] at hl
    have ht : t ∉ k.tasks := hd t (by simp)
    obtain ⟨hst₁, htasks⟩ := osTaskInitializeOptions_tasks hst h₁
    have hk₁ : I k₁ := hstep k t options k₁ List.mem_cons_self ht hst hk h₁
    have hd₁ : ∀ x ∈ l.map Prod.fst, x ∉ k₁.tasks := by
      intro x hx hx'
      rw [htasks, List.mem_cons] at hx'
      rcases hx' with rfl | hx'
      · exact hl.1 hx
      · exact hd x (by simp at hx ⊢; exact .inr hx) hx'
    obtain ⟨hk', hs'⟩ := ih h (.inr hst₁) hl.2 hd₁ hk₁ fun k t options k' hm =>
      hstep k t options k' (List.mem_cons_of_mem _ hm)
    constructor
    · exact hk'
    · intro _
      cases l with
      | nil =>
        cases h
        exact hst₁
      | cons q l => exact hs' (by simp)

/-- What holds before the first task and is kept by the initialization of each holds when the
idle task starts to run. -/
theorem Boot.start_invariant {I : Kernel → Prop} (b : Boot) (h : b.start = .ok k)
    (h0 : I b.initialized)
    (hstep : ∀ k t options k', (t, options) ∈ b.tasks → t ∉ k.tasks →
      (k.state = .initialized ∨ k.state = .tasksInitialized) → I k →
      osTaskInitializeOptions k t options = .ok k' → I k') :
    ∃ k₀ i, I k₀ ∧ k₀.idle = some i ∧ k = { k₀ with
      running := some i
      status := update k₀.status i .active
      state := .started } := by
  simp only [Boot.start, bind_eq_ok, pure_eq_ok] at h
  obtain ⟨k₀, h₀, s, hs, rfl⟩ := h
  obtain ⟨hI, hst⟩ := initializeTasks_invariant h₀ (.inl rfl) b.distinct
    (by simp [Boot.initialized]) h0 hstep
  unfold osStart at hs
  rw [if_neg (by simp [hst b.nonempty])] at hs
  simp only [bind_eq_ok, osAssert_eq_ok] at hs
  obtain ⟨_, -, hs⟩ := hs
  split at hs
  · cases hs
  · rename_i i hi
    rw [pure_eq_ok] at hs
    subst hs
    exact ⟨k₀, i, hI, hi, rfl⟩

structure Booting (s : Sched) : Prop where
  queued : Queued True s
  fresh : ∀ t, t ∉ s.tasks → s.status t = .finished
  settled : ∀ t, s.status t = .idle ∨ s.status t = .suspended ∨ s.status t = .finished
  idle : ∀ i, s.idle = some i → s.status i = .idle
  running : s.running = none
  scheduled : s.scheduled = none

theorem Booting.initialized (b : Boot) : Booting b.initialized.toSched where
  queued := by
    refine ⟨[], [], ⟨⟨rfl, rfl, by simp⟩, .nil, .nil, by simp, fun t => ?_⟩, fun _ => ⟨?_, ?_⟩⟩
    · simp [Boot.initialized]
    · intro t ht
      cases ht
    · exact fun _ _ _ => rfl
  fresh _ _ := rfl
  settled _ := .inr (.inr rfl)
  idle i hi := by cases hi
  running := rfl
  scheduled := rfl

theorem Queued.created {s : Sched} (hq : Queued True s) (options : TaskOptions)
    (ht : s.status t = .finished) :
    Queued True { s.created t options with status := update s.status t .suspended } := by
  obtain ⟨r, w, hq, hc⟩ := hq
  have htr : t ∉ r := hq.notMem_run (by rw [ht]; decide)
  have htw : t ∉ w := by
    rw [hq.waiting, ht]
    decide
  refine ⟨r, w, ⟨⟨hq.run.update_of_notMem htr, hq.wait.update_of_notMem htw, hq.disjoint⟩,
    ?_, ?_, fun x hx => ?_, fun x => ?_⟩, fun _ => ⟨fun x hx => ?_, fun x hx hx' => ?_⟩⟩
  · refine hq.sorted.imp_of_mem fun ha hb hab => ?_
    simp only [Sched.created]
    rw [Function.update_of_ne (ne_of_mem_of_not_mem ha htr),
      Function.update_of_ne (ne_of_mem_of_not_mem hb htr)]
    exact hab
  · refine hq.ordered.imp_of_mem fun ha hb hab => ?_
    simp only [Sched.created]
    rw [Function.update_of_ne (ne_of_mem_of_not_mem ha htw),
      Function.update_of_ne (ne_of_mem_of_not_mem hb htw)]
    exact hab
  · rw [isRunning_update (by rw [ht]; rfl)]
    exact hq.runnable x hx
  · rw [hq.waiting]
    exact (eq_wait_update (by simp [ht]) x).symm
  · rw [isRunning_update (by rw [ht]; rfl)] at hx
    exact (hc trivial).mem_run x hx
  · simp only [Sched.created, Function.update_apply]
    split_ifs
    · rfl
    · exact (hc trivial).unlinked x hx hx'

theorem Booting.step (hb : Booting k.toSched) (ht : t ∉ k.tasks)
    (hst : k.state = .initialized ∨ k.state = .tasksInitialized)
    (h : osTaskInitializeOptions k t options = .ok k') : Booting k'.toSched := by
  obtain ⟨hsu, s, hs, rfl⟩ := osTaskInitializeOptions_cases hst h
  have hr := joinRunqueue_rethreaded hs
  have hstatus : s.status = update k.status t (if options.suspended then .suspended else .idle) :=
    hr.status
  have hidle : s.idle = k.idle.or (some t) := hr.idle
  have hc := hb.queued.created options (hb.fresh t ht)
  have hq : Queued True s := by
    unfold joinRunqueue at hs
    cases hsp : options.suspended with
    | true =>
      rw [if_neg (by simp [Sched.created, hsp])] at hs
      cases hs
      refine hc.of_eq rfl rfl rfl ?_ rfl fun _ _ => rfl
      simp [Sched.created, hsp]
    | false =>
      rw [if_pos (by simp [Sched.created, hsp])] at hs
      refine hc.idle (t := t) ?_ (by simp [TaskStatus.isRunning])
      have he : update (update k.status t .suspended) t .idle = (k.created t options).status := by
        simp [Sched.created, hsp]
      simp only [osiTaskStatusSet, Function.update_self, reduceCtorEq, if_false, he]
      exact hs
  refine ⟨hq.of_eq rfl rfl rfl rfl rfl fun _ _ => rfl, fun x hx => ?_, fun x => ?_, fun i hi => ?_,
    ?_, ?_⟩
  · have htasks : s.tasks = t :: k.tasks := hr.tasks
    have hx' : x ∉ s.tasks := hx
    rw [htasks, List.mem_cons, not_or] at hx'
    change s.status x = _
    rw [hstatus, Function.update_of_ne hx'.1]
    exact hb.fresh x hx'.2
  · change s.status x = _ ∨ s.status x = _ ∨ s.status x = _
    rw [hstatus, Function.update_apply]
    split_ifs
    · exact .inr (.inl rfl)
    · exact .inl rfl
    · exact hb.settled x
  · have hi' : k.idle.or (some t) = some i := hidle ▸ hi
    change s.status i = _
    rw [hstatus, Function.update_apply]
    split_ifs with hit hsp
    · cases hk : k.idle with
      | none => rw [hsu hk] at hsp; cases hsp
      | some j =>
        rw [hk, Option.some_or, Option.some.injEq] at hi'
        have := hb.idle j hk
        rw [hi', hit, hb.fresh t ht] at this
        cases this
    · rfl
    · cases hk : k.idle with
      | none =>
        rw [hk, Option.none_or, Option.some.injEq] at hi'
        exact absurd hi'.symm hit
      | some j =>
        rw [hk, Option.some_or, Option.some.injEq] at hi'
        exact hi' ▸ hb.idle j hk
  · exact (hr.running : s.running = _).trans hb.running
  · exact (hr.scheduled : s.scheduled = _).trans hb.scheduled

theorem Boot.start_sched (b : Boot) (h : b.start = .ok k) :
    Queued True k.toSched ∧ k.scheduled = none ∧ ∃ i, k.running = some i ∧ k.status i = .active ∧
      ∀ t, t ≠ i → k.status t = .idle ∨ k.status t = .suspended ∨ k.status t = .finished := by
  obtain ⟨k₀, i, hb, hi, rfl⟩ := b.start_invariant (I := fun k => Booting k.toSched) h
    (Booting.initialized b) fun k t options k' _ ht hst hk h => hk.step ht hst h
  obtain ⟨r, w, hq, hc⟩ := hb.queued
  have hst := hb.idle i hi
  refine ⟨⟨r, w, ?_, fun _ => ?_⟩, hb.scheduled, i, rfl, Function.update_self .., fun t ht => ?_⟩
  · refine hq.congr ⟨hq.run, hq.wait, hq.disjoint⟩ rfl (fun _ _ => rfl) ?_ ?_
    · exact isRunning_update (by rw [hst]; rfl)
    · exact eq_wait_update (by simp [hst])
  · exact (hc trivial).congr (fun _ _ _ => rfl) (isRunning_update (by rw [hst]; rfl))
  · have hstatus : update k₀.status i .active t = k₀.status t := Function.update_of_ne ht _ _
    have hs := hb.settled t
    rw [← hstatus] at hs
    exact hs

end Osh
