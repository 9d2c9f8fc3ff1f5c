import Osh.Machine
import Osh.ScheduleSpec

namespace Osh
open Function (update)
open Lib

variable {k k' : Kernel} {t : TaskId} {ms : Nat}

/-- `osi_dispatch` went past its early return and made `t` the scheduled task. -/
def Dispatches (k : Kernel) (t : TaskId) (k' : Kernel) : Prop :=
  ∃ running o s, k.running = some running ∧ running ≠ t ∧
    dispatchDetach k.bound k.toObjects t = .ok o ∧
    dispatchSwitch k.toSched running t = .ok s ∧
    k' = { toSched := s, toObjects := { o with flags := update o.flags t 0 } }

theorem osiDispatch_eq_ok :
    osiDispatch k t = .ok k' ↔ k.running = some t ∧ k' = k ∨ Dispatches k t k' := by
  unfold osiDispatch Dispatches
  cases hr : k.running with
  | none => simp
  | some running =>
    simp only [Option.some.injEq, exists_and_left, exists_eq_left']
    split_ifs with ht
    · simp only [ht, Except.ok.injEq, true_and, ne_eq, not_true_eq_false, false_and, or_false]
      exact eq_comm
    · simp only [ht, false_and, ne_eq, not_false_eq_true, true_and, false_or, bind_eq_ok,
        pure_eq_ok]
      constructor
      · rintro ⟨o, ho, s, hs, rfl⟩
        exact ⟨o, ho, s, hs, rfl⟩
      · rintro ⟨o, ho, s, hs, rfl⟩
        exact ⟨o, ho, s, hs, rfl⟩

theorem dispatchSwitch_fields {s s' : Sched} {running : TaskId}
    (h : dispatchSwitch s running t = .ok s') : Rethreaded (s.dispatched running t) s' := by
  simp only [dispatchSwitch, bind_eq_ok, pure_eq_ok] at h
  obtain ⟨s₁, h₁, s₂, h₂, _, -, rfl⟩ := h
  have hs₁ : Rethreaded
      { s with status := update s.status running (s.status running).preempted } s₁ := by
    unfold dispatchLeave at h₁
    cases hst : s.status running <;> simp only [hst] at h₁ <;>
      simp only [TaskStatus.preempted, ← hst, Function.update_eq_self]
    case active | idle | wait =>
      cases h₁
      rfl
    all_goals exact runqueueRemove_rethreaded h₁
  have hs₂ : Rethreaded
      { s₁ with delay := update s₁.delay t 0, status := update s₁.status t .active } s₂ := by
    unfold dispatchRequeue at h₂
    split_ifs at h₂
    · simp only [bind_eq_ok] at h₂
      obtain ⟨s₃, h₃, h₄⟩ := h₂
      exact (waitqueueRemove_rethreaded h₃).trans (runqueueAdd_rethreaded h₄)
    · cases h₂
      rfl
  rw [hs₁] at hs₂
  rw [hs₂]
  simp only [Sched.dispatched, dispatchAccount]
  split_ifs <;> rfl

namespace Dispatches
variable (h : Dispatches k t k')
include h

theorem running : k'.running = k.running := by
  obtain ⟨running, o, s, hr, hne, ho, hs, rfl⟩ := h
  exact (dispatchSwitch_fields hs).running.trans dispatched_running

theorem scheduled : k'.scheduled = some t := by
  obtain ⟨running, o, s, hr, hne, ho, hs, rfl⟩ := h
  exact (dispatchSwitch_fields hs).scheduled

theorem running_ne : k.running ≠ some t := by
  obtain ⟨running, o, s, hr, hne, ho, hs, rfl⟩ := h
  rw [hr]
  exact fun he => hne (Option.some.inj he)

theorem status_self : k'.status t = .active := by
  obtain ⟨running, o, s, hr, hne, ho, hs, rfl⟩ := h
  change s.status t = _
  rw [(dispatchSwitch_fields hs).status, dispatched_status, Function.update_self]

theorem status_of_ne {x : TaskId} (hx : x ≠ t) :
    k'.status x = if k.running = some x then (k.status x).preempted else k.status x := by
  obtain ⟨running, o, s, hr, hne, ho, hs, rfl⟩ := h
  change s.status x = _
  rw [(dispatchSwitch_fields hs).status, dispatched_status, Function.update_of_ne hx,
    Function.update_apply, hr]
  by_cases hxr : x = running
  · simp [hxr]
  · rw [if_neg hxr, if_neg fun he => hxr (Option.some.inj he).symm]

theorem priority : k'.priority = k.priority := by
  obtain ⟨running, o, s, hr, hne, ho, hs, rfl⟩ := h
  exact (dispatchSwitch_fields hs).priority.trans dispatched_priority

theorem tasks : k'.tasks = k.tasks := by
  obtain ⟨running, o, s, hr, hne, ho, hs, rfl⟩ := h
  exact (dispatchSwitch_fields hs).tasks.trans dispatched_tasks

theorem delay : k'.delay = update k.delay t 0 := by
  obtain ⟨running, o, s, hr, hne, ho, hs, rfl⟩ := h
  exact (dispatchSwitch_fields hs).delay.trans dispatched_delay

theorem pendSv : k'.pendSv = true := by
  obtain ⟨running, o, s, hr, hne, ho, hs, rfl⟩ := h
  change s.pendSv = _
  rw [dispatchSwitch_fields hs]
  rfl

end Dispatches

/-- What `osi_schedule` does when it does not return early: it wakes at most one task, and then
dispatches the task that it finds, if it finds one other than the running task. -/
def Schedules (k : Kernel) (k' : Kernel) : Prop :=
  ∃ running s new, k.running = some running ∧ k.status running ≠ .idle ∧ k.scheduled = none ∧
    wakeExpired k.toSched = .ok s ∧ findNewTask s running = .ok new ∧
    (new.getD running = running ∧ k' = { k with toSched := s } ∨
      ∃ t, new = some t ∧ Dispatches { k with toSched := s } t k')

theorem wakeLoop_rethreaded {s s' : Sched} {n : Nat} {task : Option TaskId}
    (h : wakeLoop s n task = .ok s') : Rethreaded { s with status := s'.status } s' := by
  induction n generalizing task with
  | zero =>
    cases task with
    | none => cases h; rfl
    | some t => cases h
  | succ n ih =>
    cases task with
    | none => cases h; rfl
    | some t =>
      rw [wakeLoop] at h
      split_ifs at h
      · have hs := osiTaskStatusSet_rethreaded h
        rw [Rethreaded, hs]
      · exact ih h

theorem osiSchedule_schedules {running : TaskId} (h : osiSchedule k = .ok k')
    (hr : k.running = some running) (hi : k.status running ≠ .idle) (hs : k.scheduled = none) :
    Schedules k k' := by
  simp only [osiSchedule, hr, if_neg hi, hs, ne_eq, not_true_eq_false, if_false, bind_eq_ok] at h
  obtain ⟨s, hw, new, hn, h⟩ := h
  have hsched : s.scheduled = none := by
    rw [(wakeLoop_rethreaded hw).scheduled]
    exact hs
  refine ⟨running, s, new, hr, hi, hs, hw, hn, ?_⟩
  cases new with
  | none =>
    refine .inl ⟨rfl, (Except.ok.inj h).symm.trans ?_⟩
    exact if_neg (not_not.2 hsched)
  | some t =>
    dsimp only at h
    split_ifs at h with ht
    · exact .inl ⟨ht.symm, (Except.ok.inj h).symm.trans (if_neg (not_not.2 hsched))⟩
    · simp only [bind_eq_ok, pure_eq_ok] at h
      obtain ⟨k₁, hk₁, rfl⟩ := h
      rcases osiDispatch_eq_ok.1 hk₁ with ⟨he, -⟩ | hd
      · have he' : s.running = some t := he
        rw [(wakeLoop_rethreaded hw).running] at he'
        exact absurd (Option.some.inj (hr.symm.trans he')) ht
      · refine .inr ⟨t, rfl, ?_⟩
        have hp : { k₁ with pendSv := true } = k₁ := by rw [← hd.pendSv]
        rw [if_pos (by simp [hd.scheduled]), hp]
        exact hd

theorem osiSchedule_cases (h : osiSchedule k = .ok k') : k' = k ∨ Schedules k k' := by
  cases hr : k.running with
  | none => simp [osiSchedule, hr] at h
  | some running =>
    by_cases hi : k.status running = .idle
    · simp only [osiSchedule, hr, if_pos hi] at h
      exact .inl (Except.ok.inj h).symm
    · by_cases hs : k.scheduled = none
      · exact .inr (osiSchedule_schedules h hr hi hs)
      · simp only [osiSchedule, hr, if_neg hi, ne_eq, hs, not_false_eq_true, if_true] at h
        exact .inl (Except.ok.inj h).symm

def MakesRunnable (s : Sched) (t : TaskId) (s' : Sched) : Prop :=
  if (s.status t).isRunning then s' = s else osiTaskStatusSet s t .idle = .ok s'

theorem MakesRunnable.rethreaded {s s' : Sched} (h : MakesRunnable s t s') :
    Rethreaded { s with status := s'.status } s' := by
  unfold MakesRunnable at h
  split_ifs at h
  · rw [h]
  · rw [Rethreaded, osiTaskStatusSet_rethreaded h]

/-- The scheduler is entered with the fields `s`, unless a task is scheduled already. -/
def Reschedules (k : Kernel) (s : Sched) (k' : Kernel) : Prop :=
  k.scheduled = none ∧ osiSchedule { k with toSched := s } = .ok k' ∨
    k.scheduled ≠ none ∧ k' = { k with toSched := s }

/-- What `osi_dispatch_or_queue` does: `t` joins the run queue when it has to wait for a task of
higher priority, and is dispatched otherwise. -/
theorem osiDispatchOrQueue_cases (h : osiDispatchOrQueue k t = .ok k') :
    (runqueueHasHigherPriority k.toSched t = .ok true ∧
      ∃ s, MakesRunnable k.toSched t s ∧ Reschedules k s k') ∨
    runqueueHasHigherPriority k.toSched t = .ok false ∧ osiDispatch k t = .ok k' := by
  simp only [osiDispatchOrQueue, bind_eq_ok] at h
  obtain ⟨higher, hh, h⟩ := h
  cases higher with
  | false =>
    rw [if_neg (by decide)] at h
    exact .inr ⟨hh, h⟩
  | true =>
    rw [if_pos rfl] at h
    have hs : ∃ s, MakesRunnable k.toSched t s ∧
        (if s.scheduled = none then osiSchedule { k with toSched := s }
          else .ok { k with toSched := s }) = .ok k' := by
      unfold MakesRunnable
      by_cases hr : (k.status t).isRunning
      · rw [if_neg (not_not.2 hr)] at h
        exact ⟨k.toSched, by rw [if_pos hr], h⟩
      · rw [if_pos hr, bind_eq_ok] at h
        obtain ⟨s, hs, h⟩ := h
        exact ⟨s, by rwa [if_neg hr], h⟩
    obtain ⟨s, hs, h⟩ := hs
    have hsched : s.scheduled = k.scheduled := hs.rethreaded.scheduled
    refine .inl ⟨hh, s, hs, ?_⟩
    rw [hsched] at h
    split_ifs at h with hn
    · exact .inl ⟨hn, h⟩
    · exact .inr ⟨hn, (Except.ok.inj h).symm⟩

theorem Reschedules.of_ite {s : Sched} {site : Site} (hs : s.scheduled = k.scheduled)
    (h : (if s.scheduled = none then do
        let k ← osiSchedule { k with toSched := s }
        osAssert site (k.scheduled ≠ none)
        osAssert site (k.scheduled ≠ k.running)
        return k
      else do
        let k ← (.ok { k with toSched := s } : Except Stop Kernel)
        osAssert site (k.scheduled ≠ none)
        osAssert site (k.scheduled ≠ k.running)
        return k) = .ok k') :
    Reschedules k s k' ∧ k'.scheduled ≠ none := by
  rw [hs] at h
  split_ifs at h with hn <;> simp only [bind_eq_ok, osAssert_eq_ok, pure_eq_ok] at h
  · obtain ⟨k₁, h₁, _, hn', _, -, rfl⟩ := h
    exact ⟨.inl ⟨hn, h₁⟩, hn'⟩
  · obtain ⟨k₁, h₁, _, hn', _, -, rfl⟩ := h
    cases h₁
    exact ⟨.inr ⟨hn, rfl⟩, hn'⟩

theorem svcDelay_cases (h : svcDelay k ms = .ok k') :
    ∃ running delay s, k.running = some running ∧ k.scheduled ≠ some running ∧
      osiTaskStatusSet { k.toSched with delay := update k.delay running delay } running .wait =
        .ok s ∧ Reschedules k s k' ∧ k'.scheduled ≠ none := by
  rw [svcDelay_eq] at h
  split at h
  · cases h
  · rename_i running hr
    simp only [bind_eq_ok, osAssert_eq_ok] at h
    obtain ⟨_, hne, _, -, s, hs, h⟩ := h
    have hres := Reschedules.of_ite (osiTaskStatusSet_rethreaded hs).scheduled h
    exact ⟨running, _, s, hr, hne, hs, hres⟩

theorem svcAbort_cases (h : svcAbort k = .ok k') :
    ∃ running s, k.running = some running ∧
      osiTaskStatusSet k.toSched running .aborted = .ok s ∧ Reschedules k s k' ∧
      k'.scheduled ≠ none := by
  simp only [svcAbort, bind_eq_ok, Kernel.self_eq_ok] at h
  obtain ⟨running, hr, s, hs, h⟩ := h
  exact ⟨running, s, hr, hs, Reschedules.of_ite (osiTaskStatusSet_rethreaded hs).scheduled h⟩

end Osh
