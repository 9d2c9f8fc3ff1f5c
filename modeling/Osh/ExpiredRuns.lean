import Osh.FindTotal

namespace Osh
open Function (update)
open Lib

variable {k k' : Kernel} {s s' : Sched} {t x y : TaskId} {r w : List TaskId}

/-- The run queue once `osi_schedule` has woken the first task that is due. -/
def Sched.wokenRun (s : Sched) (r w : List TaskId) : List TaskId :=
  match w.find? fun x => s.Due x with
  | none => r
  | some x => insertByPriority s.priority x r

def Sched.wokenWait (s : Sched) (w : List TaskId) : List TaskId :=
  match w.find? fun x => s.Due x with
  | none => w
  | some x => w.erase x

def Sched.wokenStatus (s : Sched) (w : List TaskId) : TaskId → TaskStatus :=
  match w.find? fun x => s.Due x with
  | none => s.status
  | some x => update s.status x .idle

/-- The task that is to follow `t` once the first task that is due is awake. -/
def Sched.follower (s : Sched) (t : TaskId) (r w : List TaskId) : Option TaskId :=
  { s with status := s.wokenStatus w }.successor t (s.wokenRun r w)

theorem mem_wokenRun : y ∈ s.wokenRun r w ↔ (w.find? fun x => s.Due x) = some y ∨ y ∈ r := by
  unfold Sched.wokenRun
  cases w.find? fun x => s.Due x with
  | none => simp
  | some x => rw [mem_insertByPriority, Option.some.injEq, eq_comm]

theorem wokenRun_ne_nil (hx : x ∈ w) (hdue : s.Due x) : s.wokenRun r w ≠ [] := by
  cases hf : w.find? fun x => s.Due x with
  | none =>
    have hnot := List.find?_eq_none.1 hf x hx
    simp [hdue] at hnot
  | some z => exact List.ne_nil_of_mem (mem_wokenRun.2 (.inl hf))

theorem wakeExpired_queues (h : wakeExpired s = .ok s') (hq : Queues s r w) (hc : Complete s r w)
    (hn : w.length ≤ s.bound) : Queues s' (s.wokenRun r w) (s.wokenWait w) ∧
      Complete s' (s.wokenRun r w) (s.wokenWait w) ∧ s'.status = s.wokenStatus w := by
  rw [wakeExpired_eq hq hn] at h
  unfold Sched.wokenRun Sched.wokenWait Sched.wokenStatus
  cases hf : w.find? fun x => s.Due x with
  | none =>
    rw [hf] at h
    cases h
    exact ⟨hq, hc, rfl⟩
  | some x =>
    rw [hf] at h
    have hxr : x ∉ r := fun hx => hq.disjoint x hx (List.mem_of_find?_eq_some hf)
    obtain ⟨hq', hs', hc'⟩ := osiTaskStatusSet_idle h hq hxr
    exact ⟨hq', hc' hc, hs'.rest.status⟩

/-- A call of `osi_schedule` by `t` returns: the search for the next task ends, and the task that it
finds can be dispatched. -/
structure Passes (k : Kernel) (t : TaskId) (r w : List TaskId) : Prop where
  ends : ¬ (t ∈ (k.wokenWait w).dropLast ∧ k.wokenRun r w ≠ [] ∧
    ∀ x ∈ k.wokenRun r w, k.priority x = k.priority t)
  dispatches : ∀ y, k.follower t r w = some y → t ≠ y →
    (k.flags y = 0 ∨ k.taskSemaphore y = none) ∧
      (k.idle = some y → (k.wokenRun r w).length = 1)

section Schedule
variable (hk : Ready k) (hq : Queues k.toSched r w) (hc : Complete k.toSched r w)
include hk hq hc

theorem findNewTask_follower {new : Option TaskId} (hw : wakeExpired k.toSched = .ok s) :
    findNewTask s t = .ok new ↔ ¬ (t ∈ (k.wokenWait w).dropLast ∧ k.wokenRun r w ≠ [] ∧
      ∀ x ∈ k.wokenRun r w, k.priority x = k.priority t) ∧ new = k.follower t r w := by
  obtain ⟨-, hlw, -⟩ := hk.length_le hq
  obtain ⟨hq', hc', hst⟩ := wakeExpired_queues hw hq hc hlw
  have hp : s.priority = k.priority := (wakeLoop_rethreaded hw).priority
  have hs : Searchable s (k.wokenRun r w) (k.wokenWait w) := by
    have hqueued : Queued True s := ⟨_, _, hq', fun _ => hc'⟩
    exact hqueued.searchable (hk.wakes hw).used hq'.run hq'.wait
  have hfollow : s.successor t (k.wokenRun r w) = k.follower t r w := by
    simp only [Sched.follower, Sched.successor, hp, hst]
  rw [hs.findNewTask_eq_ok (hc'.unlinked t), hs.circles_iff, hp, hfollow]

variable (hr : k.running = some t) (hi : k.status t ≠ .idle) (hs : k.scheduled = none)
include hr hi hs

/-- The task that runs next is one of those that `find_new_task` looks at, and none is above it. -/
theorem osiSchedule_top (h : osiSchedule k = .ok k') : k'.priority = k.priority ∧
    ∃ n, k'.next = some n ∧ (k.wokenRun r w = [] ∨ n ∈ k.wokenRun r w) ∧
      ∀ y ∈ k.wokenRun r w, k.priority y ≤ k.priority n := by
  obtain ⟨running, s, new, hr', -, -, hw, hnew, hd⟩ := osiSchedule_schedules h hr hi hs
  cases hr.symm.trans hr'
  obtain ⟨-, hlw, -⟩ := hk.length_le hq
  obtain ⟨hq', hc', -⟩ := wakeExpired_queues hw hq hc hlw
  have hs' := wakeLoop_rethreaded hw
  have hp : s.priority = k.priority := hs'.priority
  obtain ⟨htop, hnone⟩ := hq'.findNewTask_top hc' ((hk.wakes hw).length_le hq').2.2 hnew
  rw [hp] at htop
  have hfound (z : TaskId) (hz : new = some z) : z ∈ k.wokenRun r w :=
    hc'.mem_run z (findNewTask_running (hz ▸ hnew))
  rcases hd with ⟨hsame, rfl⟩ | ⟨z, rfl, hd⟩
  · have hnext : s.next = some t :=
      (next_of_none (hs'.scheduled.trans hs)).trans (hs'.running.trans hr)
    refine ⟨hp, t, hnext, ?_⟩
    cases new with
    | none =>
      have hnil := hnone rfl
      rw [hnil]
      exact ⟨.inl rfl, by simp⟩
    | some z =>
      obtain rfl : z = t := hsame
      exact ⟨.inr (hfound z rfl), htop z rfl⟩
  · exact ⟨hd.priority.trans hp, z, next_of_scheduled hd.scheduled, .inr (hfound z rfl),
      htop z rfl⟩

/-- When `osi_schedule` returns. -/
theorem osiSchedule_returns_iff : (∃ k', osiSchedule k = .ok k') ↔ Passes k t r w := by
  obtain ⟨s, hw⟩ := hk.wakeExpired_total
  obtain ⟨-, hlw, -⟩ := hk.length_le hq
  obtain ⟨hq', -, -⟩ := wakeExpired_queues hw hq hc hlw
  constructor
  · rintro ⟨k', h⟩
    obtain ⟨running, s', new, hr', -, -, hw', hnew, -⟩ := osiSchedule_schedules h hr hi hs
    cases hr.symm.trans hr'
    cases hw.symm.trans hw'
    obtain ⟨hends, rfl⟩ := (findNewTask_follower hk hq hc hw).1 hnew
    exact ⟨hends, (hk.schedule_returns_iff hr hw hq' hi hs hnew).1 ⟨k', h⟩⟩
  · intro hpass
    have hnew := (findNewTask_follower hk hq hc hw).2 ⟨hpass.ends, rfl⟩
    exact (hk.schedule_returns_iff hr hw hq' hi hs hnew).2 hpass.dispatches

/-- `osi_schedule` returns and the task that runs next is not below any task that was due exactly if
the call passes and each of these tasks has one to run that is not below it. -/
theorem schedule_expired_iff : (∃ k' n, osiSchedule k = .ok k' ∧ k'.next = some n ∧
      ∀ x ∈ w, k.Due x → k'.priority x ≤ k'.priority n) ↔
    Passes k t r w ∧ ∀ x ∈ w, k.Due x → ∃ y ∈ k.wokenRun r w, k.priority x ≤ k.priority y := by
  rw [← osiSchedule_returns_iff hk hq hc hr hi hs]
  constructor
  · rintro ⟨k', n, h, hn, hle⟩
    obtain ⟨hp, n', hn', hmem, -⟩ := osiSchedule_top hk hq hc hr hi hs h
    cases hn.symm.trans hn'
    refine ⟨⟨k', h⟩, fun x hx hdue => ⟨n, hmem.resolve_left (wokenRun_ne_nil hx hdue), ?_⟩⟩
    rw [← hp]
    exact hle x hx hdue
  · rintro ⟨⟨k', h⟩, hcond⟩
    obtain ⟨hp, n, hn, -, htop⟩ := osiSchedule_top hk hq hc hr hi hs h
    refine ⟨k', n, h, hn, fun x hx hdue => ?_⟩
    obtain ⟨y, hy, hle⟩ := hcond x hx hdue
    rw [hp]
    exact hle.trans (htop y hy)

end Schedule

theorem reach_queues_complete (h : machine.Reach GrantsNothing k)
    (hr : Chain k.nrp k.runqueue r) (hw : Chain k.nrp k.waitqueue w) :
    Queues k.toSched r w ∧ Complete k.toSched r w := by
  obtain ⟨⟨r', w', hq, hc⟩, -⟩ := reach_queued (c := True) h fun _ _ _ ha => ha.queueSafe
  obtain rfl := hr.unique hq.run
  obtain rfl := hw.unique hq.wait
  exact ⟨hq, hc trivial⟩

set_option maxRecDepth 10000 in
theorem schedule_expired_one : ∃ (k k' : Kernel) (n : TaskId), k.Due 1 ∧ osiSchedule k = .ok k' ∧
    k'.next = some n ∧ ∀ x ∈ [1], k.Due x → k'.priority x ≤ k'.priority n := by
  obtain ⟨k, hk, hs, hr, hi, ⟨h0, h0', hw, hw'⟩, hdue, hends, hfollow, hf, hidle⟩ :=
    (Boot.simple [0, 16] (by simp)).exists_after GrantsNothing
    (fun k => k.scheduled = none ∧ k.running = some 0 ∧ k.status 0 ≠ .idle ∧
      (k.runqueue = some 0 ∧ k.nrp 0 = none ∧ k.waitqueue = some 1 ∧ k.nrp 1 = none) ∧
      k.Due 1 ∧ 0 ∉ (k.wokenWait [1]).dropLast ∧ k.follower 0 [0] [1] = some 1 ∧ k.flags 1 = 0 ∧
      k.idle = some 0)
    [.schedule, .contextSwitch, .svc (.delay 5), .contextSwitch, .clock 5 0] (by decide)
  obtain ⟨hq, hc⟩ := reach_queues_complete (r := [0]) (w := [1]) hk (by simp [h0, h0'])
    (by simp [hw, hw'])
  have hready := reach_ready (hk.mono fun _ _ _ => trivial)
  have hpass : Passes k 0 [0] [1] := by
    constructor
    · exact fun h => hends h.1
    · intro y hy _
      cases hfollow.symm.trans hy
      exact ⟨.inl hf, fun he => absurd (hidle.symm.trans he) (by decide)⟩
  have hcond : ∀ x ∈ [1], k.Due x → ∃ y ∈ k.wokenRun [0] [1], k.priority x ≤ k.priority y := by
    intro x hx _
    obtain rfl := List.mem_singleton.1 hx
    exact ⟨1, mem_wokenRun.2 (.inl (by simp [hdue])), le_rfl⟩
  obtain ⟨k', n, h, hn, hle⟩ :=
    (schedule_expired_iff hready hq hc hr hi hs).2 ⟨hpass, hcond⟩
  exact ⟨k, k', n, hdue, h, hn, hle⟩

set_option maxRecDepth 10000 in
/-- The task with the earlier deadline is woken, and the one of higher priority is not. -/
theorem not_schedule_expired_two : ∃ (k k' : Kernel) (r w : List TaskId) (n t : TaskId),
    machine.Reach GrantsNothing k ∧ Queues k.toSched r w ∧ Complete k.toSched r w ∧
      k.scheduled = none ∧ k.running = some 0 ∧ k.status 0 ≠ .idle ∧ osiSchedule k = .ok k' ∧
        k'.next = some n ∧ t ∈ w ∧ k.Due t ∧ k'.priority n < k'.priority t := by
  obtain ⟨k, hk, hs, hr, hi, ⟨h0, h0', hw, hw', hw''⟩, hdue, hok⟩ :=
    (Boot.simple [0, 16, 32] (by simp)).exists_after GrantsNothing
    (fun k => k.scheduled = none ∧ k.running = some 0 ∧ k.status 0 ≠ .idle ∧
      (k.runqueue = some 0 ∧ k.nrp 0 = none ∧ k.waitqueue = some 1 ∧ k.nrp 1 = some 2 ∧
        k.nrp 2 = none) ∧
      k.Due 2 ∧ (osiSchedule k).toOption.any fun k' =>
        k'.next = some 1 ∧ k'.priority 1 < k'.priority 2)
    [.schedule, .contextSwitch, .svc (.delay 6), .contextSwitch, .svc (.delay 5), .contextSwitch,
      .clock 10 0] (by decide)
  obtain ⟨k', h, hn, hlt⟩ := exists_of_toOption_any hok
  obtain ⟨hq, hc⟩ := reach_queues_complete (r := [0]) (w := [1, 2]) hk (by simp [h0, h0'])
    (by simp [hw, hw', hw''])
  exact ⟨k, k', [0], [1, 2], 1, 2, hk, hq, hc, hs, hr, hi, h, hn, by simp, hdue, hlt⟩

end Osh
