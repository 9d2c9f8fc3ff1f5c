import Osh.CycleCheck
import Osh.DispatchSpec
import Osh.FindSpec

namespace Osh
open Function (update)
open Lib

variable {k k' : Kernel} {s s' : Sched} {o : Objects} {t x y : TaskId} {l m p r w : List TaskId}
  {n : Nat}

section Loops
variable {head previous first : Option TaskId} {nrp : TaskId → Option TaskId}
  {delay : TaskId → Nat}

theorem waitqueueAddLoop_total {bound : Nat} (hc : Chain nrp first m) (hm : m ≠ [])
    (hp : Chain nrp head (p ++ m)) (ht : t ∉ p ++ m) (hnone : nrp t = none) (hn : m.length ≤ n)
    (hb : (p ++ m).length < 2 * bound) :
    ∃ links, waitqueueAddLoop delay t head nrp bound n previous first = .ok links := by
  induction m generalizing first previous n p with
  | nil => exact absurd rfl hm
  | cons b m ih =>
    obtain ⟨rfl, hbm⟩ := chain_cons.1 hc
    cases n with
    | zero => simp at hn
    | succ n =>
      have hbt : b ≠ t := by
        rintro rfl
        simp at ht
      rw [waitqueueAddLoop]
      simp only [osAssert, if_pos hbt, ok_bind]
      split_ifs with hd hz
      · exact ⟨_, rfl⟩
      · rw [hz, chain_none] at hbm
        subst hbm
        have hcyc : Chain (update nrp b (some t)) head (p ++ [b] ++ [t]) := by
          obtain ⟨mid, hpm, rfl, -⟩ := hp.split
          have hn := hp.nodup
          rw [List.nodup_middle, List.append_nil, List.nodup_cons] at hn
          rw [List.append_assoc]
          refine (hpm.update_of_notMem hn.1).append ⟨rfl, ?_, ?_⟩
          · exact Function.update_self ..
          · rw [Function.update_of_ne hbt.symm]
            exact hnone
        rw [hasCycles_chain hcyc (by simp at hb ⊢; omega)]
        exact ⟨_, rfl⟩
      · refine ih (p := p ++ [b]) hbm ?_ (by simpa using hp) (by simpa using ht)
          (by simpa using hn) (by simpa using hb)
        rintro rfl
        exact hz hbm

end Loops

theorem Sched.one_le_bound : 1 ≤ s.bound := Nat.le_add_left 1 _

theorem waitqueueAdd_total (hl : Lists s r w) (hn : w.length ≤ s.bound) (ht : t ∉ w) :
    ∃ s', waitqueueAdd s t = .ok s' := by
  unfold waitqueueAdd
  cases hw : s.waitqueue with
  | none => exact ⟨_, rfl⟩
  | some head =>
    have hc : Chain (update s.nrp t none) (some head) w := by
      rw [← hw]
      exact hl.wait.update_of_notMem ht
    obtain ⟨links, h⟩ : ∃ links, waitqueueAddLoop s.delay t (some head) (update s.nrp t none)
        s.bound s.bound none (some head) = .ok links := by
      have hone : 1 ≤ s.bound := Sched.one_le_bound
      exact waitqueueAddLoop_total (p := []) hc (by rintro rfl; cases hc) hc ht
        (Function.update_self ..) hn (by simp only [List.nil_append]; omega)
    refine ⟨{ s with waitqueue := links.1, nrp := links.2 }, ?_⟩
    simp only [h]
    rfl

theorem osiTaskStatusSet_wait_total (hq : Queues s r w) (hr : r.length ≤ s.bound)
    (hw : w.length ≤ s.bound) (ht : s.status t ≠ .wait) :
    ∃ s', osiTaskStatusSet s t .wait = .ok s' := by
  have hl := hq.toLists.setStatus (t := t) .wait
  obtain ⟨s₁, h₁⟩ := runqueueRemove_total (t := t) hl hr
  obtain ⟨hl₁, hr₁, -⟩ := runqueueRemove_lists h₁ hl
  have hb : s₁.bound = s.bound := congrArg (fun l => List.length l + 1) hr₁.rest.tasks
  obtain ⟨s₂, h₂⟩ := waitqueueAdd_total (t := t) hl₁ (hb ▸ hw) fun h => ht ((hq.waiting t).1 h)
  exact ⟨s₂, bind_eq_ok.2 ⟨s₁, h₁, h₂⟩⟩

theorem osiTaskStatusSet_idle_total (hq : Queues s r w) (hr : r.length ≤ s.bound)
    (hw : w.length ≤ s.bound) (ht : s.status t = .wait) :
    ∃ s', osiTaskStatusSet s t .idle = .ok s' := by
  have hl := hq.toLists.setStatus (t := t) .idle
  obtain ⟨s₁, h₁⟩ := waitqueueRemove_total (t := t) hl hw
  obtain ⟨hl₁, hr₁, -⟩ := waitqueueRemove_lists h₁ hl
  have hb : s₁.bound = s.bound := congrArg (fun l => List.length l + 1) hr₁.rest.tasks
  have hst : s₁.status t = .idle := by
    rw [hr₁.status]
    exact Function.update_self ..
  obtain ⟨s₂, h₂⟩ := runqueueAdd_total (t := t) hl₁ (hb ▸ hr)
    (hq.notMem_run (by rw [ht]; decide)) (by rw [hst]; decide)
  refine ⟨s₂, ?_⟩
  simp only [osiTaskStatusSet, if_pos ht, h₁, ok_bind]
  exact h₂

theorem due_congr (hd : s'.delay = s.delay) (hu : s'.uptime = s.uptime) :
    (fun x => decide (s'.Due x)) = fun x => decide (s.Due x) := by
  funext x
  rw [decide_eq_decide]
  simp only [Sched.Due, hd, hu]

theorem wakeLoop_eq {first : Option TaskId} (hc : Chain s.nrp first m) (hn : m.length ≤ n) :
    wakeLoop s n first = match m.find? fun x => s.Due x with
      | some x => osiTaskStatusSet s x .idle
      | none => .ok s := by
  induction m generalizing first n with
  | nil =>
    obtain rfl : first = none := hc
    cases n <;> rfl
  | cons b m ih =>
    obtain ⟨rfl, hb⟩ := chain_cons.1 hc
    cases n with
    | zero => simp at hn
    | succ n =>
      rw [wakeLoop, List.find?_cons, ih hb (by simpa using hn)]
      by_cases hd : s.Due b
      · rw [decide_eq_true hd]
        exact if_pos hd
      · rw [decide_eq_false hd]
        exact if_neg hd

/-- The first task of the wait queue that is due is woken, and no other. -/
theorem wakeExpired_eq (hq : Queues s r w) (hn : w.length ≤ s.bound) :
    wakeExpired s = match w.find? fun x => s.Due x with
      | some x => osiTaskStatusSet s x .idle
      | none => .ok s :=
  wakeLoop_eq hq.wait hn

theorem osiSchedule_eq_ok (hr : k.running = some t) (hi : k.status t ≠ .idle)
    (hs : k.scheduled = none) : osiSchedule k = .ok k' ↔ Schedules k k' := by
  refine ⟨fun h => osiSchedule_schedules h hr hi hs, ?_⟩
  rintro ⟨running, s, new, hr', -, -, hw, hn, hd⟩
  cases hr.symm.trans hr'
  have hs' := wakeLoop_rethreaded hw
  simp only [osiSchedule, hr, if_neg hi, hs, ne_eq, not_true_eq_false, if_false, hw, hn, ok_bind]
  rcases hd with ⟨hsame, rfl⟩ | ⟨y, rfl, hd⟩
  · have hnone : s.scheduled = none := hs'.scheduled.trans hs
    cases new with
    | none => simp [hnone, pure, Except.pure]
    | some y =>
      obtain rfl : y = t := hsame
      simp [hnone, pure, Except.pure]
  · have hne : t ≠ y := fun he => hd.running_ne (he ▸ hs'.running.trans hr)
    have hp : { k' with pendSv := true } = k' := by rw [← hd.pendSv]
    have hdisp := osiDispatch_eq_ok.2 (.inr hd)
    have hsome : k'.scheduled ≠ none := by
      rw [hd.scheduled]
      exact Option.some_ne_none y
    simp only [hne, not_false_eq_true, if_true, hdisp, ok_bind, hsome]
    exact congrArg Except.ok hp

section Found
variable {running : TaskId} {new : Option TaskId} (hr : k.running = some running)
  (hi : k.status running ≠ .idle) (hs : k.scheduled = none)
  (hw : wakeExpired k.toSched = .ok s) (hn : findNewTask s running = .ok new)
include hr hi hs hw hn

theorem osiSchedule_found (h : osiSchedule k = .ok k') :
    new.getD running = running ∧ k' = { k with toSched := s } ∨
      ∃ y, new = some y ∧ running ≠ y ∧ osiDispatch { k with toSched := s } y = .ok k' ∧
        k'.scheduled = some y := by
  obtain ⟨running', s', new', hr', -, -, hw', hn', hd⟩ := osiSchedule_schedules h hr hi hs
  cases hr.symm.trans hr'
  cases hw.symm.trans hw'
  cases hn.symm.trans hn'
  rcases hd with hsame | ⟨y, rfl, hd⟩
  · exact .inl hsame
  · have hrun : s.running = some running := (wakeLoop_rethreaded hw).running.trans hr
    exact .inr ⟨y, rfl, fun he => hd.running_ne (he ▸ hrun), osiDispatch_eq_ok.2 (.inr hd),
      hd.scheduled⟩

theorem osiSchedule_of_found {y : TaskId} (hy : new = some y) (hne : running ≠ y)
    (hd : osiDispatch { k with toSched := s } y = .ok k') :
    osiSchedule k = .ok k' ∧ k'.scheduled = some y := by
  rcases osiDispatch_eq_ok.1 hd with ⟨he, -⟩ | hd
  · have hrun : s.running = some running := (wakeLoop_rethreaded hw).running.trans hr
    exact absurd (Option.some.inj (hrun.symm.trans he)) hne
  · have h : Schedules k k' := ⟨running, s, new, hr, hi, hs, hw, hn, .inr ⟨y, hy, hd⟩⟩
    exact ⟨(osiSchedule_eq_ok hr hi hs).2 h, hd.scheduled⟩

end Found

/-- What holds wherever the scheduler is entered in a run. -/
structure Ready (k : Kernel) : Prop where
  queued : Queued False k.toSched
  flagged : Flagged k.toObjects
  linked : Linked k.toObjects k.tasks
  used : ∀ t, k.Used t → t ∈ k.tasks

theorem reach_ready {ok : Kernel → Act → Prop} (h : machine.Reach ok k) : Ready k := by
  obtain ⟨hq, -⟩ := reach_queued (c := False) h fun hc => hc.elim
  obtain ⟨hf, -⟩ := reach_flagged h
  obtain ⟨hc, hl⟩ := reach_linked h
  exact ⟨hq, hf, hl, hc.used⟩

theorem reach_queues {ok : Kernel → Act → Prop} (h : machine.Reach ok k)
    (hr : Chain k.nrp k.runqueue r) (hw : Chain k.nrp k.waitqueue w) : Queues k.toSched r w := by
  obtain ⟨r', w', hq, -⟩ := (reach_ready h).queued
  rw [hr.unique hq.run, hw.unique hq.wait]
  exact hq

namespace Ready
variable (hk : Ready k)
include hk

theorem length_le (hq : Queues k.toSched r w) :
    r.length ≤ k.bound ∧ w.length ≤ k.bound ∧ (r ++ w).length ≤ k.bound := by
  have h := hq.length_le_bound hk.used
  have h' := h
  rw [List.length_append] at h'
  exact ⟨by omega, by omega, h⟩

theorem setSched (hq : Queued False s) (ht : s.tasks = k.tasks)
    (hu : ∀ x, s.Used x → x ∈ k.tasks) : Ready { k with toSched := s } :=
  ⟨hq, hk.flagged, by rw [ht]; exact hk.linked, by rw [ht]; exact hu⟩

theorem wakes (h : wakeExpired k.toSched = .ok s) : Ready { k with toSched := s } := by
  have hs := wakeLoop_rethreaded h
  exact hk.setSched (hk.queued.wakes h) hs.tasks fun x hx => hk.used x (.of_wakes hk.queued h hx)

theorem sets {new : TaskStatus} {delay : TaskId → Nat}
    (h : osiTaskStatusSet { k.toSched with delay := delay } t new = .ok s) (hq : Queued False s)
    (ht : t ∈ k.tasks) : Ready { k with toSched := s } := by
  have hs := osiTaskStatusSet_rethreaded h
  apply hk.setSched hq hs.tasks
  intro x hx
  rcases Sched.Used.of_set h hx with hx | rfl
  · exact hk.used x hx
  · exact ht

theorem wakeExpired_total : ∃ s, wakeExpired k.toSched = .ok s := by
  obtain ⟨r, w, hq, -⟩ := hk.queued
  obtain ⟨hr, hw, -⟩ := hk.length_le hq
  rw [wakeExpired_eq hq hw]
  cases hf : w.find? fun x => k.Due x with
  | none => exact ⟨_, rfl⟩
  | some x =>
    exact osiTaskStatusSet_idle_total hq hr hw ((hq.waiting x).1 (List.mem_of_find?_eq_some hf))

theorem dispatchDetach_iff :
    (∃ o, dispatchDetach k.bound k.toObjects t = .ok o) ↔
      k.flags t = 0 ∨ k.taskSemaphore t = none := by
  constructor
  · rintro ⟨o, ho⟩
    rcases (dispatchDetach_eq_ok hk.flagged).1 ho with ⟨hz, -⟩ | ⟨w, o₁, -, -, hs, -⟩
    · exact .inl hz
    · exact .inr hs
  · intro h
    by_cases hz : k.flags t = 0
    · exact ⟨_, (dispatchDetach_eq_ok hk.flagged).2 (.inl ⟨hz, rfl⟩)⟩
    · obtain ⟨w, hw, hfw⟩ := hk.flagged.waits hz
      obtain ⟨l, hl, hmem⟩ := hk.linked.list w
      obtain ⟨o₁, ho₁⟩ := detachList_total (t := t) hl (Sched.length_le_bound hl.nodup hmem)
      exact ⟨_, (dispatchDetach_eq_ok hk.flagged).2
        (.inr ⟨w, o₁, hw, hfw, h.resolve_left hz, ho₁, rfl⟩)⟩

theorem dispatch_iff {running : TaskId} (hq : Queues k.toSched r w) (hr : k.running = some running)
    (hne : running ≠ t) (ht : k.status t ≠ .wait) : (∃ k', osiDispatch k t = .ok k') ↔
      (k.flags t = 0 ∨ k.taskSemaphore t = none) ∧ (k.idle = some t → r.length = 1) := by
  have hrun : dispatchRun k.toSched t r = r := if_neg ht
  obtain ⟨hlr, hlw, -⟩ := hk.length_le hq
  have hsw := dispatchSwitch_total (t := t) hq (hrun.symm ▸ hlr) hlw hne
  rw [hrun] at hsw
  rw [← hk.dispatchDetach_iff, ← hsw]
  constructor
  · rintro ⟨k', hd⟩
    rcases osiDispatch_eq_ok.1 hd with ⟨he, -⟩ | ⟨r', o, s, hr', -, ho, hs, -⟩
    · exact absurd (Option.some.inj (hr.symm.trans he)) hne
    · cases hr.symm.trans hr'
      exact ⟨⟨o, ho⟩, s, hs⟩
  · rintro ⟨⟨o, ho⟩, s, hs⟩
    exact ⟨_, osiDispatch_eq_ok.2 (.inr ⟨running, o, s, hr, hne, ho, hs, rfl⟩)⟩

section Schedule
variable {running : TaskId} {new : Option TaskId} (hr : k.running = some running)
  (hw : wakeExpired k.toSched = .ok s) (hq : Queues s r w)
include hr hw hq

/-- Whether the task that `find_new_task` found can be dispatched. It is runnable. -/
theorem found_iff (hn : findNewTask s running = .ok (some t)) (hne : running ≠ t) :
    (∃ k', osiDispatch { k with toSched := s } t = .ok k') ↔
      (k.flags t = 0 ∨ k.taskSemaphore t = none) ∧ (k.idle = some t → r.length = 1) := by
  have hs := wakeLoop_rethreaded hw
  have hidle : s.idle = k.idle := hs.idle
  rw [← hidle]
  apply (hk.wakes hw).dispatch_iff hq (hs.running.trans hr) hne
  intro he
  have hst := findNewTask_running hn
  rw [he] at hst
  cases hst

variable (hi : k.status running ≠ .idle) (hs : k.scheduled = none)
  (hn : findNewTask s running = .ok new)
include hi hs hn

/-- The scheduler hands the processor to another task exactly if it finds one that can be
dispatched. -/
theorem schedule_iff : (∃ k', osiSchedule k = .ok k' ∧ k'.scheduled ≠ none) ↔
    ∃ y, new = some y ∧ running ≠ y ∧ (k.flags y = 0 ∨ k.taskSemaphore y = none) ∧
      (k.idle = some y → r.length = 1) := by
  constructor
  · rintro ⟨k', h, hsched⟩
    rcases osiSchedule_found hr hi hs hw hn h with ⟨-, rfl⟩ | ⟨y, rfl, hne, hd, -⟩
    · exact absurd ((wakeLoop_rethreaded hw).scheduled.trans hs) hsched
    · obtain ⟨hsem, hone⟩ := (hk.found_iff hr hw hq hn hne).1 ⟨k', hd⟩
      exact ⟨y, rfl, hne, hsem, hone⟩
  · rintro ⟨y, rfl, hne, hsem, hone⟩
    obtain ⟨k', hd⟩ := (hk.found_iff hr hw hq hn hne).2 ⟨hsem, hone⟩
    obtain ⟨h, hsched⟩ := osiSchedule_of_found hr hi hs hw hn rfl hne hd
    refine ⟨k', h, ?_⟩
    rw [hsched]
    exact Option.some_ne_none y

/-- The scheduler returns exactly if the task that it finds, when it is not the running one, can be
dispatched. -/
theorem schedule_returns_iff : (∃ k', osiSchedule k = .ok k') ↔ ∀ y, new = some y → running ≠ y →
    (k.flags y = 0 ∨ k.taskSemaphore y = none) ∧ (k.idle = some y → r.length = 1) := by
  constructor
  · rintro ⟨k', h⟩ y rfl hne
    rcases osiSchedule_found hr hi hs hw hn h with ⟨hsame, -⟩ | ⟨z, hz, -, hd, -⟩
    · exact absurd hsame.symm hne
    · cases hz
      exact (hk.found_iff hr hw hq hn hne).1 ⟨k', hd⟩
  · intro hdisp
    by_cases hsame : new.getD running = running
    · exact ⟨_, (osiSchedule_eq_ok hr hi hs).2
        ⟨running, s, new, hr, hi, hs, hw, hn, .inl ⟨hsame, rfl⟩⟩⟩
    · cases new with
      | none => exact absurd rfl hsame
      | some y =>
        have hne : running ≠ y := Ne.symm hsame
        obtain ⟨k', hd⟩ := (hk.found_iff hr hw hq hn hne).2 (hdisp y rfl hne)
        exact ⟨k', (osiSchedule_of_found hr hi hs hw hn rfl hne hd).1⟩

end Schedule

end Ready

end Osh
