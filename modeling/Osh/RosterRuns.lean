import Osh.Lib.Simulation
import Osh.Roster

namespace Osh
open Function (update)
open Lib

variable {k k' k₁ : Kernel} {s s' : Sched} {t x : TaskId} {a : Act} {ρ : Roster}
  {r w : List TaskId} {new : TaskStatus}

def Sched.roster (s : Sched) (r w : List TaskId) : Roster :=
  ⟨r, w, s.status, s.priority, s.delay, s.running, s.scheduled, s.uptime⟩

/-- The links of the kernel thread the lists of the roster. -/
structure Threads (s : Sched) (ρ : Roster) : Prop where
  queues : Queues s ρ.run ρ.wait
  complete : Complete s ρ.run ρ.wait
  created : ∀ t ∈ ρ.run ++ ρ.wait, t ∈ s.tasks
  fields : ρ = s.roster ρ.run ρ.wait

theorem dispatched_uptime {running : TaskId} : (s.dispatched running t).uptime = s.uptime := by
  rw [Sched.dispatched, dispatchAccount_eq]

theorem Rethreaded.roster (h : Rethreaded s s') : s'.roster r w = s.roster r w :=
  congrArg (fun s => s.roster r w) h

namespace Threads

theorem searchable (h : Threads s ρ) : Searchable s ρ.run ρ.wait where
  toLists := h.queues.toLists
  sorted := h.queues.sorted
  runnable t := ⟨h.queues.runnable t, h.complete.mem_run t⟩
  waiting := h.queues.waiting
  created := h.created

theorem congr (h : Threads s ρ) (hr : s'.runqueue = s.runqueue) (hw : s'.waitqueue = s.waitqueue)
    (hn : s'.nrp = s.nrp) (ht : s'.tasks = s.tasks)
    (hs : s'.roster ρ.run ρ.wait = s.roster ρ.run ρ.wait) : Threads s' ρ := by
  have hst : s'.status = s.status := congrArg Roster.status hs
  have hp : s'.priority = s.priority := congrArg Roster.priority hs
  have hd : s'.delay = s.delay := congrArg Roster.delay hs
  refine ⟨h.queues.congr ⟨?_, ?_, h.queues.disjoint⟩ hp (fun x _ => congrFun hd x)
    (fun x => by rw [hst]) (fun x => by rw [hst]),
    h.complete.congr (fun x _ _ => by rw [hn]) fun x => by rw [hst], by rw [ht]; exact h.created,
    h.fields.trans hs.symm⟩
  · rw [hr, hn]
    exact h.queues.run
  · rw [hw, hn]
    exact h.queues.wait

theorem ready (h : Threads s ρ) (hset : osiTaskStatusSet s t .idle = .ok s')
    (ht : ¬ (s.status t).isRunning) (htasks : t ∈ s.tasks) : Threads s' (ρ.ready t) := by
  obtain ⟨hq, hc, hcr, hf⟩ := h
  have hs := osiTaskStatusSet_rethreaded hset
  obtain ⟨hq', -, hc'⟩ := osiTaskStatusSet_idle hset hq (hq.notMem_run ht)
  rw [hf]
  refine ⟨hq', hc' hc, fun x hx => ?_, ?_⟩
  · rw [hs.tasks]
    rcases List.mem_append.1 hx with hx | hx
    · rcases mem_insertByPriority.1 hx with rfl | hx
      · exact htasks
      · exact hcr x (List.mem_append_left _ hx)
    · exact hcr x (List.mem_append_right _ (List.mem_of_mem_erase hx))
  · exact hs.roster.symm

theorem erase_mem (hcr : ∀ t ∈ r ++ w, t ∈ s.tasks) :
    ∀ x ∈ r.erase t ++ w.erase t, x ∈ s.tasks := by
  intro x hx
  apply hcr x
  rcases List.mem_append.1 hx with hx | hx
  · exact List.mem_append_left _ (List.mem_of_mem_erase hx)
  · exact List.mem_append_right _ (List.mem_of_mem_erase hx)

theorem stop (h : Threads s ρ) (hset : osiTaskStatusSet s t new = .ok s')
    (hnew : new = .finished ∨ new = .panic ∨ new = .aborted) (ht : s.status t ≠ .wait) :
    Threads s' (ρ.stop t new) := by
  obtain ⟨hq, hc, hcr, hf⟩ := h
  have hs := osiTaskStatusSet_rethreaded hset
  obtain ⟨hq', -, hc'⟩ := osiTaskStatusSet_stopped hset hnew hq ht
  have htw : ρ.wait.erase t = ρ.wait := List.erase_of_not_mem fun hm => ht ((hq.waiting t).1 hm)
  rw [hf]
  refine ⟨?_, ?_, ?_, hs.roster.symm⟩
  · change Queues s' (ρ.run.erase t) (ρ.wait.erase t)
    rw [htw]
    exact hq'
  · change Complete s' (ρ.run.erase t) (ρ.wait.erase t)
    rw [htw]
    exact hc' hc
  · rw [hs.tasks]
    exact erase_mem hcr

theorem suspend (h : Threads s ρ) (hset : osiTaskStatusSet s t .suspended = .ok s') :
    Threads s' (ρ.stop t .suspended) := by
  obtain ⟨hq, hc, hcr, hf⟩ := h
  have hs := osiTaskStatusSet_rethreaded hset
  obtain ⟨hq', -, hc'⟩ := osiTaskStatusSet_suspended hset hq
  rw [hf]
  refine ⟨hq', hc' hc, ?_, hs.roster.symm⟩
  rw [hs.tasks]
  exact erase_mem hcr

theorem sleep {ms : Nat} (h : Threads s ρ)
    (hset : osiTaskStatusSet (s.withDelay t ms) t .wait = .ok s') (ht : s.status t ≠ .wait)
    (htasks : t ∈ s.tasks) : Threads s' (ρ.sleep t (ρ.deadline ms)) := by
  obtain ⟨hq, hc, hcr, hf⟩ := h
  have hs := osiTaskStatusSet_rethreaded hset
  have hq₁ : Queues (s.withDelay t ms) ρ.run ρ.wait :=
    hq.setDelay fun hm => ht ((hq.waiting t).1 hm)
  have hc₁ : Complete (s.withDelay t ms) ρ.run ρ.wait := hc.congr (fun _ _ _ => rfl) fun _ => rfl
  obtain ⟨hq', -, hc'⟩ := osiTaskStatusSet_wait hset hq₁ ht
  rw [hf]
  refine ⟨hq', hc' hc₁, fun x hx => ?_, hs.roster.symm⟩
  rw [hs.tasks]
  rcases List.mem_append.1 hx with hx | hx
  · exact hcr x (List.mem_append_left _ (List.mem_of_mem_erase hx))
  · rcases mem_insertByDelay.1 hx with rfl | hx
    · exact htasks
    · exact hcr x (List.mem_append_right _ hx)

theorem wake (h : Threads s ρ) (hw : wakeExpired s = .ok s') : Threads s' ρ.wake := by
  have hlen : ρ.wait.length ≤ s.bound := by
    have hle := h.searchable.length_le
    rw [List.length_append] at hle
    omega
  have hdue : ρ.wait.find? (fun x => decide (ρ.Due x)) =
      ρ.wait.find? (fun x => decide (s.Due x)) := by
    congr 1
    funext x
    rw [h.fields]
    rfl
  rw [wakeExpired_eq h.queues hlen] at hw
  unfold Roster.wake
  rw [hdue]
  cases hf : ρ.wait.find? fun x => decide (s.Due x) with
  | none =>
    rw [hf] at hw
    cases hw
    exact h
  | some x =>
    rw [hf] at hw
    have hx := List.mem_of_find?_eq_some hf
    apply h.ready hw
    · rw [(h.queues.waiting x).1 hx]
      decide
    · exact h.created x (List.mem_append_right _ hx)

theorem hand {running : TaskId} (h : Threads k.toSched ρ) (hd : Dispatches k t k')
    (hr : k.running = some running) (ht : (k.status t).isAlive) :
    Threads k'.toSched (ρ.hand running t) := by
  obtain ⟨hq, hc, hcr, hf⟩ := h
  obtain ⟨running', o, s, hr', hne, -, hs, rfl⟩ := hd
  obtain rfl : running = running' := Option.some.inj (hr.symm.trans hr')
  obtain ⟨hq', hc'⟩ := dispatchSwitch_queues hs hq hne
  have hs' := dispatchSwitch_fields hs
  have htasks : s.tasks = k.tasks := hs'.tasks.trans dispatched_tasks
  have hroster : s.roster (dispatchRun k.toSched t ρ.run) (dispatchWait k.toSched t ρ.wait) =
      (k.toSched.roster ρ.run ρ.wait).hand running t := by
    rw [hs'.roster]
    simp only [Sched.roster, Roster.hand, dispatchRun, dispatchWait, dispatched_status,
      dispatched_priority, dispatched_delay, dispatched_running, dispatched_uptime]
    rfl
  rw [hf, ← hroster]
  refine ⟨hq', hc' ht hc, fun x hx => ?_, rfl⟩
  change x ∈ s.tasks
  rw [htasks]
  rcases List.mem_append.1 hx with hx | hx
  · rcases mem_dispatchRun.1 hx with hx | ⟨hw, rfl⟩
    · exact hcr x (List.mem_append_left _ hx)
    · exact hcr x (List.mem_append_right _ ((hq.waiting x).2 hw))
  · exact hcr x (List.mem_append_right _ ((mem_dispatchWait hq.nodup_wait).1 hx).1)

theorem find {new : Option TaskId} (h : Threads s ρ) (hf : findNewTask s t = .ok new) :
    new = ρ.successor t := by
  have hs := h.searchable
  have hsucc : findNewTask s t = .ok (s.successor t ρ.run) := by
    by_cases hr : t ∈ ρ.run
    · exact hs.findNewTask_runnable hr
    · by_cases hw : t ∈ ρ.wait
      · exact hs.findNewTask_waiting hw fun hc => hs.not_searchEnds hc (searchEnds_of_ok hf)
      · exact hs.findNewTask_unlinked hr (h.complete.unlinked t hr hw)
  have heq : s.successor t ρ.run = ρ.successor t := by
    rw [h.fields]
    rfl
  rw [← heq]
  exact Except.ok.inj (hf.symm.trans hsucc)

theorem contextSwitch (h : Threads s ρ) :
    Threads { s with running := s.scheduled, scheduled := none, pendSv := false }
      (ρ.obey .contextSwitch) := by
  obtain ⟨hq, hc, hcr, hf⟩ := h
  rw [hf]
  exact ⟨hq.congr ⟨hq.run, hq.wait, hq.disjoint⟩ rfl (fun _ _ => rfl) (fun _ => rfl)
    fun _ => Iff.rfl, hc.congr (fun _ _ _ => rfl) fun _ => rfl, hcr, rfl⟩

theorem clock (h : Threads s ρ) (uptime micros : Nat) :
    Threads { s with uptime := uptime % 2 ^ 32, micros := micros % 2 ^ 32 }
      (ρ.obey (.clock uptime)) := by
  obtain ⟨hq, hc, hcr, hf⟩ := h
  rw [hf]
  exact ⟨hq.congr ⟨hq.run, hq.wait, hq.disjoint⟩ rfl (fun _ _ => rfl) (fun _ => rfl)
    fun _ => Iff.rfl, hc.congr (fun _ _ _ => rfl) fun _ => rfl, hcr, rfl⟩

theorem running (h : Threads s ρ) : ρ.running = s.running := by
  rw [h.fields]
  rfl

theorem scheduled (h : Threads s ρ) : ρ.scheduled = s.scheduled := by
  rw [h.fields]
  rfl

theorem status (h : Threads s ρ) : ρ.status = s.status := by
  rw [h.fields]
  rfl

theorem schedule (h : Threads k.toSched ρ) (hk : osiSchedule k = .ok k') :
    Threads k'.toSched ρ.schedule := by
  unfold Roster.schedule
  rw [h.running, h.status, h.scheduled]
  cases hr : k.running with
  | none => simp [osiSchedule, hr] at hk
  | some running =>
    dsimp only
    split_ifs with hi
    · have hsame : k' = k := by
        rcases hi with hi | hs
        · simp only [osiSchedule, hr, if_pos hi] at hk
          exact (Except.ok.inj hk).symm
        · by_cases hi : k.status running = .idle
          · simp only [osiSchedule, hr, if_pos hi] at hk
            exact (Except.ok.inj hk).symm
          · simp only [osiSchedule, hr, if_neg hi, if_pos hs] at hk
            exact (Except.ok.inj hk).symm
      exact hsame ▸ h
    · rw [not_or, not_not] at hi
      obtain ⟨running', s, new, hr', -, -, hw, hn, hd⟩ := osiSchedule_schedules hk hr hi.1 hi.2
      obtain rfl : running = running' := Option.some.inj (hr.symm.trans hr')
      have hwake := h.wake hw
      have hnew := hwake.find hn
      have hrun : s.running = some running := (wakeLoop_rethreaded hw).running.trans hr
      unfold Roster.follow
      rw [← hnew]
      rcases hd with ⟨hsame, rfl⟩ | ⟨y, rfl, hd⟩
      · cases new with
        | none => exact hwake
        | some y =>
          obtain rfl : y = running := hsame
          dsimp only
          rw [if_pos rfl]
          exact hwake
      · have hne : running ≠ y := fun he => hd.running_ne (he ▸ hrun)
        dsimp only
        rw [if_neg hne]
        exact Threads.hand (k := { k with toSched := s }) hwake hd hrun (findNewTask_isRunning hn)

theorem reschedule (h : Threads s ρ) (hs : s.scheduled = k.scheduled)
    (hres : Reschedules k s k') : Threads k'.toSched ρ.reschedule := by
  unfold Roster.reschedule
  rw [h.scheduled, hs]
  rcases hres with ⟨hn, hk⟩ | ⟨hn, rfl⟩
  · rw [if_pos hn]
    exact Threads.schedule (k := { k with toSched := s }) h hk
  · rw [if_neg hn]
    exact h

theorem handOver (h : Threads k.toSched ρ) (hd : osiDispatchOrQueue k t = .ok k')
    (hr : k.running ≠ none) (ht : k.GrantSafe t) (htasks : t ∈ k.tasks) :
    Threads k'.toSched (ρ.handOver t) := by
  obtain ⟨running, hr⟩ := Option.ne_none_iff_exists'.1 hr
  have hp : ρ.priority = k.priority := by
    rw [h.fields]
    rfl
  unfold Roster.handOver
  rw [h.running, hr, hp, h.status]
  dsimp only
  rcases osiDispatchOrQueue_cases hd with ⟨hh, s, hm, hres⟩ | ⟨hh, hd⟩
  · rw [if_pos ((runqueueHasHigherPriority_spec hh h.queues).1 rfl)]
    have hsched : s.scheduled = k.scheduled := hm.rethreaded.scheduled
    unfold MakesRunnable at hm
    split_ifs at hm ⊢ with hrun
    · subst hm
      exact h.reschedule rfl hres
    · exact (h.ready hm hrun htasks).reschedule hsched hres
  · have hnone : ¬ ∃ x ∈ ρ.run, k.priority x > k.priority t := fun he => by
      cases (runqueueHasHigherPriority_spec hh h.queues).2 he
    rw [if_neg hnone]
    rcases osiDispatch_eq_ok.1 hd with ⟨hrt, rfl⟩ | hd
    · rw [if_pos (Option.some.inj (hr.symm.trans hrt))]
      exact h
    · have hne : running ≠ t := fun he => hd.running_ne (he ▸ hr)
      rw [if_neg hne]
      apply h.hand hd hr
      rcases ht with ht | ht | ⟨x, hx, hlt⟩
      · exact ht
      · exact absurd ht hd.running_ne
      · exact absurd ⟨x, h.complete.mem_run x hx, hlt⟩ hnone

/-- A reader that is runnable already has to stand at the end of the run queue. -/
theorem letIn (h : Threads s ρ) (hset : osiTaskStatusSet s t .idle = .ok s')
    (ht : (s.status t).isRunning → s.nrp t = none) (htasks : t ∈ s.tasks) :
    Threads s' (ρ.letIn t) := by
  unfold Roster.letIn
  split_ifs with hr
  · obtain ⟨hq, hc, hcr, hf⟩ := h
    have hrun := hq.runnable t hr
    have hn := ht hrun
    obtain ⟨l, m, hl⟩ := List.append_of_mem hr
    rw [hl] at hq
    obtain ⟨hq', hs'⟩ := osiTaskStatusSet_idle_mem hset hq
    obtain ⟨_, -, -, hm⟩ := hq.run.split
    obtain rfl : m = [] := chain_none.1 (hn ▸ hm)
    rw [← hl] at hq'
    refine ⟨hq', hc.congr (fun x _ _ => ?_) fun x => ?_, ?_, ?_⟩
    · rw [hs', ← hn, Function.update_eq_self]
    · rw [hs']
      exact isRunning_update (by rw [hrun]; rfl) x
    · rw [hs']
      exact hcr
    · rw [hf, hs']
      rfl
  · exact h.ready hset (fun hrun => hr (h.complete.mem_run t hrun)) htasks

theorem start {priority params : Nat} (h : Threads k.toSched ρ)
    (hk : osTaskStartOptions k t priority params = .ok k') (htasks : t ∈ k.tasks) :
    Threads k'.toSched (ρ.obey (.start t priority)) := by
  obtain ⟨hq, hc, hcr, hf⟩ := h
  obtain ⟨hst, s₁, s₂, h₁, h₂, h₃⟩ := osTaskStartOptions_sched hk
  have htr : t ∉ ρ.run := hq.notMem_run hst
  have hl : Lists (k.restarted t priority) ρ.run ρ.wait := ⟨hq.run, hq.wait, hq.disjoint⟩
  obtain ⟨hl₁, hs₁, -⟩ := waitqueueRemove_lists h₁ hl
  obtain ⟨hl₂, hs₂, -⟩ := runqueueRemove_lists h₂ hl₁
  rw [List.erase_of_not_mem htr] at hl₂
  obtain ⟨hl₃, -⟩ := runqueueAdd_lists h₃ hl₂ htr hq.nodup_wait.not_mem_erase
  have hp : s₂.priority = update k.priority t (priority % 2 ^ 8) := (hs₁.trans hs₂).priority
  rw [hp] at hl₃
  -- the queues are those of `Queued.start`
  obtain ⟨r', w', hq', hc'⟩ := Queued.start (c := True) ⟨_, _, hq, fun _ => hc⟩ hk
  obtain rfl := hq'.run.unique hl₃.run
  obtain rfl := hq'.wait.unique hl₃.wait
  have hs := osTaskStartOptions_rethreaded hk
  rw [hf]
  refine ⟨hq', hc' trivial, fun x hx => ?_, hs.roster.symm⟩
  have hts : k'.tasks = k.tasks := hs.tasks
  rw [hts]
  rcases List.mem_append.1 hx with hx | hx
  · rcases mem_insertByPriority.1 hx with rfl | hx
    · exact htasks
    · exact hcr x (List.mem_append_left _ hx)
  · exact hcr x (List.mem_append_right _ (List.mem_of_mem_erase hx))

end Threads

section Steps

end Steps

end Osh
