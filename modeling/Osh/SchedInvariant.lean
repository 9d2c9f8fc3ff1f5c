import Osh.Lib.Ordered
import Osh.TaskQueueSpec

namespace Osh
open Function (update)
open Lib

variable {s s' : Sched} {t : TaskId} {l m r w : List TaskId}

/-- The run queue is the list `r` of runnable tasks by priority, the wait queue the list `w` of
all waiting tasks by deadline. -/
structure Queues (s : Sched) (r w : List TaskId) : Prop extends Lists s r w where
  sorted : r.Pairwise fun a b => s.priority b ≤ s.priority a
  ordered : w.Pairwise fun a b => s.delay a ≤ s.delay b
  runnable : ∀ t ∈ r, (s.status t).isRunning
  waiting : ∀ t, t ∈ w ↔ s.status t = .wait

/-- No runnable task is missing from the run queue, and only queued tasks have a link. -/
structure Complete (s : Sched) (r w : List TaskId) : Prop where
  mem_run : ∀ t, (s.status t).isRunning → t ∈ r
  unlinked : ∀ t, t ∉ r → t ∉ w → s.nrp t = none

theorem insertByPriority_sorted {priority : TaskId → Nat}
    (h : r.Pairwise fun a b => priority b ≤ priority a) :
    (insertByPriority priority t r).Pairwise fun a b => priority b ≤ priority a :=
  pairwise_orderedInsert (fun _ _ h => Nat.le_of_lt h) (fun _ _ h => Nat.not_lt.1 h)
    (fun _ _ _ h h' => h'.trans h) h

theorem insertByDelay_ordered {delay : TaskId → Nat}
    (h : w.Pairwise fun a b => delay a ≤ delay b) :
    (insertByDelay delay t w).Pairwise fun a b => delay a ≤ delay b :=
  pairwise_orderedInsert (fun _ _ h => Nat.le_of_lt h) (fun _ _ h => Nat.not_lt.1 h)
    (fun _ _ _ h h' => h.trans h') h

theorem mem_insertByPriority {priority : TaskId → Nat} {x : TaskId} :
    x ∈ insertByPriority priority t r ↔ x = t ∨ x ∈ r :=
  List.mem_orderedInsert _

theorem mem_insertByDelay {delay : TaskId → Nat} {x : TaskId} :
    x ∈ insertByDelay delay t w ↔ x = t ∨ x ∈ w :=
  List.mem_orderedInsert _

namespace Queues
variable (hq : Queues s r w)
include hq

theorem nodup_run : r.Nodup := hq.run.nodup

theorem nodup_wait : w.Nodup := hq.wait.nodup

theorem notMem_wait (h : (s.status t).isRunning) : t ∉ w := by
  rw [hq.waiting]
  intro he
  rw [he] at h
  cases h

theorem notMem_run (h : ¬ (s.status t).isRunning) : t ∉ r := fun ht => h (hq.runnable t ht)

theorem not_wait (ht : t ∈ r) : s.status t ≠ .wait := by
  have hrun := hq.runnable t ht
  intro he
  rw [he] at hrun
  cases hrun

end Queues

theorem Lists.setStatus (hl : Lists s r w) (new : TaskStatus) :
    Lists { s with status := update s.status t new } r w :=
  ⟨hl.run, hl.wait, hl.disjoint⟩

theorem osiTaskStatusSet_wait (h : osiTaskStatusSet s t .wait = .ok s') (hq : Queues s r w)
    (ht : s.status t ≠ .wait) :
    Queues s' (r.erase t) (insertByDelay s.delay t w) ∧
      Relinked (r ++ t :: w) { s with status := update s.status t .wait } s' ∧
      (Complete s r w → Complete s' (r.erase t) (insertByDelay s.delay t w)) := by
  simp only [osiTaskStatusSet, bind_eq_ok] at h
  obtain ⟨s₁, h₁, h₂⟩ := h
  obtain ⟨hl₁, hr₁, -⟩ := runqueueRemove_lists h₁ (hq.toLists.setStatus .wait)
  have hnr : t ∉ r.erase t := hq.nodup_run.not_mem_erase
  have htw : t ∉ w := fun hw => ht ((hq.waiting t).1 hw)
  obtain ⟨hl₂, hr₂⟩ := waitqueueAdd_lists h₂ hl₁ hnr htw
  have hr := hr₁.trans hr₂
  rw [hr₁.delay] at hl₂
  have hstatus : s'.status = update s.status t .wait := hr.status
  refine ⟨⟨hl₂, ?_, ?_, ?_, ?_⟩, hr, fun hc => ⟨?_, ?_⟩⟩
  · rw [hr.priority]
    exact hq.sorted.sublist List.erase_sublist
  · rw [hr.delay]
    exact insertByDelay_ordered hq.ordered
  · intro x hx
    rw [hstatus, Function.update_of_ne (ne_of_mem_of_not_mem hx hnr)]
    exact hq.runnable x (List.mem_of_mem_erase hx)
  · intro x
    rw [mem_insertByDelay, hstatus, hq.waiting, Function.update_apply]
    split_ifs with hx <;> simp [hx]
  · intro x hx
    rw [hstatus, Function.update_apply] at hx
    split_ifs at hx with he
    · cases hx
    · exact (List.mem_erase_of_ne he).2 (hc.mem_run x hx)
  · intro x hx hx'
    rw [mem_insertByDelay, not_or] at hx'
    have hxr : x ∉ r := fun hm => hx ((List.mem_erase_of_ne hx'.1).2 hm)
    rw [hr.frame x (by simp [hxr, hx'])]
    exact hc.unlinked x hxr hx'.2

theorem osiTaskStatusSet_stopped {new : TaskStatus} (h : osiTaskStatusSet s t new = .ok s')
    (hnew : new = .finished ∨ new = .panic ∨ new = .aborted) (hq : Queues s r w)
    (ht : s.status t ≠ .wait) :
    Queues s' (r.erase t) w ∧ Relinked r { s with status := update s.status t new } s' ∧
      (Complete s r w → Complete s' (r.erase t) w) := by
  have h₁ : runqueueRemove { s with status := update s.status t new } t = .ok s' := by
    rcases hnew with rfl | rfl | rfl <;> exact h
  obtain ⟨hl, hr, hn⟩ := runqueueRemove_lists h₁ (hq.toLists.setStatus new)
  have hnr : t ∉ r.erase t := hq.nodup_run.not_mem_erase
  have hstatus : s'.status = update s.status t new := hr.status
  refine ⟨⟨hl, ?_, ?_, ?_, ?_⟩, hr, fun hc => ⟨?_, ?_⟩⟩
  · rw [hr.priority]
    exact hq.sorted.sublist List.erase_sublist
  · rw [hr.delay]
    exact hq.ordered
  · intro x hx
    rw [hstatus, Function.update_of_ne (ne_of_mem_of_not_mem hx hnr)]
    exact hq.runnable x (List.mem_of_mem_erase hx)
  · intro x
    rw [hstatus, hq.waiting, Function.update_apply]
    split_ifs with hx
    · subst hx
      rcases hnew with rfl | rfl | rfl <;> simp [ht]
    · rfl
  · intro x hx
    rw [hstatus, Function.update_apply] at hx
    split_ifs at hx with he
    · rcases hnew with rfl | rfl | rfl <;> cases hx
    · exact (List.mem_erase_of_ne he).2 (hc.mem_run x hx)
  · intro x hx hx'
    by_cases hxr : x ∈ r
    · obtain rfl : x = t := by_contra fun he => hx ((List.mem_erase_of_ne he).2 hxr)
      exact hn hxr
    · rw [hr.frame x hxr]
      exact hc.unlinked x hxr hx'

theorem osiTaskStatusSet_suspended (h : osiTaskStatusSet s t .suspended = .ok s')
    (hq : Queues s r w) :
    Queues s' (r.erase t) (w.erase t) ∧
      Relinked (w ++ r) { s with status := update s.status t .suspended } s' ∧
      (Complete s r w → Complete s' (r.erase t) (w.erase t)) := by
  simp only [osiTaskStatusSet, bind_eq_ok] at h
  obtain ⟨s₁, h₁, h₂⟩ := h
  obtain ⟨hl₁, hr₁, hn₁⟩ := waitqueueRemove_lists h₁ (hq.toLists.setStatus .suspended)
  obtain ⟨hl₂, hr₂, hn₂⟩ := runqueueRemove_lists h₂ hl₁
  have hnr : t ∉ r.erase t := hq.nodup_run.not_mem_erase
  have hr := hr₁.trans hr₂
  have hstatus : s'.status = update s.status t .suspended := hr.status
  refine ⟨⟨hl₂, ?_, ?_, ?_, ?_⟩, hr, fun hc => ⟨?_, ?_⟩⟩
  · rw [hr.priority]
    exact hq.sorted.sublist List.erase_sublist
  · rw [hr.delay]
    exact hq.ordered.sublist List.erase_sublist
  · intro x hx
    rw [hstatus, Function.update_of_ne (ne_of_mem_of_not_mem hx hnr)]
    exact hq.runnable x (List.mem_of_mem_erase hx)
  · intro x
    rw [hq.nodup_wait.mem_erase_iff, hstatus, hq.waiting, Function.update_apply]
    split_ifs with hx <;> simp [hx]
  · intro x hx
    rw [hstatus, Function.update_apply] at hx
    split_ifs at hx with he
    · cases hx
    · exact (List.mem_erase_of_ne he).2 (hc.mem_run x hx)
  · intro x hx hx'
    by_cases he : x = t
    · subst he
      by_cases hxr : x ∈ r
      · exact hn₂ hxr
      · rw [hr₂.frame x hxr]
        by_cases hxw : x ∈ w
        · exact hn₁ hxw
        · rw [hr₁.frame x hxw]
          exact hc.unlinked x hxr hxw
    · rw [List.mem_erase_of_ne he] at hx hx'
      rw [hr.frame x (by simp [hx, hx'])]
      exact hc.unlinked x hx hx'

theorem osiTaskStatusSet_idle (h : osiTaskStatusSet s t .idle = .ok s') (hq : Queues s r w)
    (ht : t ∉ r) :
    Queues s' (insertByPriority s.priority t r) (w.erase t) ∧
      Relinked (w ++ t :: r) { s with status := update s.status t .idle } s' ∧
      (Complete s r w → Complete s' (insertByPriority s.priority t r) (w.erase t)) := by
  have hs : ∃ s₁, Lists s₁ r (w.erase t) ∧
      Relinked w { s with status := update s.status t .idle } s₁ ∧ runqueueAdd s₁ t = .ok s' := by
    by_cases hw : s.status t = .wait
    · simp only [osiTaskStatusSet, if_pos hw, bind_eq_ok] at h
      obtain ⟨s₁, h₁, h₂⟩ := h
      obtain ⟨hl, hr, -⟩ := waitqueueRemove_lists h₁ (hq.toLists.setStatus .idle)
      exact ⟨s₁, hl, hr, h₂⟩
    · simp only [osiTaskStatusSet, if_neg hw] at h
      have htw : t ∉ w := fun hm => hw ((hq.waiting t).1 hm)
      refine ⟨_, ?_, ⟨rfl, fun _ _ => rfl⟩, h⟩
      rw [List.erase_of_not_mem htw]
      exact hq.toLists.setStatus .idle
  obtain ⟨s₁, hl₁, hr₁, h₂⟩ := hs
  have hnw : t ∉ w.erase t := hq.nodup_wait.not_mem_erase
  obtain ⟨hl₂, hr₂⟩ := runqueueAdd_lists h₂ hl₁ ht hnw
  rw [hr₁.priority] at hl₂
  have hr := hr₁.trans hr₂
  have hstatus : s'.status = update s.status t .idle := hr.status
  refine ⟨⟨hl₂, ?_, ?_, ?_, ?_⟩, hr, fun hc => ⟨?_, ?_⟩⟩
  · rw [hr.priority]
    exact insertByPriority_sorted hq.sorted
  · rw [hr.delay]
    exact hq.ordered.sublist List.erase_sublist
  · intro x hx
    rw [hstatus, Function.update_apply]
    split_ifs with he
    · rfl
    · exact hq.runnable x ((mem_insertByPriority.1 hx).resolve_left he)
  · intro x
    rw [hq.nodup_wait.mem_erase_iff, hstatus, hq.waiting, Function.update_apply]
    split_ifs with hx <;> simp [hx]
  · intro x hx
    rw [hstatus, Function.update_apply] at hx
    rw [mem_insertByPriority]
    split_ifs at hx with he
    · exact .inl he
    · exact .inr (hc.mem_run x hx)
  · intro x hx hx'
    rw [mem_insertByPriority, not_or] at hx
    rw [List.mem_erase_of_ne hx.1] at hx'
    rw [hr.frame x (by simp [hx, hx'])]
    exact hc.unlinked x hx.2 hx'

/-- A task of the run queue that is made idle cuts the queue off behind itself. -/
theorem osiTaskStatusSet_idle_mem (h : osiTaskStatusSet s t .idle = .ok s')
    (hq : Queues s (l ++ t :: m) w) :
    Queues s' (l ++ [t]) w ∧
      s' = { s with status := update s.status t .idle, nrp := update s.nrp t none } := by
  have hw : s.status t ≠ .wait := by
    have ht := hq.runnable t (by simp)
    intro he
    rw [he] at ht
    cases ht
  simp only [osiTaskStatusSet, if_neg hw] at h
  have hsorted := hq.sorted
  rw [List.pairwise_append] at hsorted
  obtain ⟨hl, hs'⟩ := runqueueAdd_mem h (hq.toLists.setStatus .idle) fun x hx =>
    hsorted.2.2 x hx t List.mem_cons_self
  have hsub : (l ++ [t]).Sublist (l ++ t :: m) :=
    (List.Sublist.refl l).append (by simp)
  have hstatus : s'.status = update s.status t .idle := by rw [hs']
  refine ⟨⟨hl, ?_, ?_, ?_, ?_⟩, hs'⟩
  · rw [hs']
    exact hq.sorted.sublist hsub
  · rw [hs']
    exact hq.ordered
  · intro x hx
    rw [hstatus, Function.update_apply]
    split_ifs
    · rfl
    · exact hq.runnable x (hsub.subset hx)
  · intro x
    rw [hstatus, hq.waiting, Function.update_apply]
    split_ifs with hx <;> simp [hx, hw]

end Osh
