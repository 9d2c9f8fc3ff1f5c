import Osh.ScheduleTotal

namespace Osh
open Function (update)
open Lib

variable {s s' : Sched} {t : TaskId} {r w l m : List TaskId}

structure HasQueues (s : Sched) (r w : List TaskId) : Prop where
  run : Chain s.nrp s.runqueue r
  wait : Chain s.nrp s.waitqueue w

/-- An idle task of the run queue that is made idle once more cuts the queue off behind itself, and
nothing else changes. -/
theorem osiTaskStatusSet_again (hq : Queues s (l ++ t :: m) w) (hb : (l ++ t :: m).length ≤ s.bound)
    (hst : s.status t = .idle) :
    ∃ s', osiTaskStatusSet s t .idle = .ok s' ∧ HasQueues s' (l ++ [t]) w := by
  have hs : { s with status := update s.status t .idle } = s := by
    rw [← hst, Function.update_eq_self]
  obtain ⟨s', h⟩ : ∃ s', runqueueAdd s t = .ok s' := by
    apply runqueueAdd_total_of_chain hq.run.truncate
    · simp only [List.length_append, List.length_cons, List.length_nil] at hb ⊢
      omega
    · rw [hst]
      decide
  have h' : osiTaskStatusSet s t .idle = .ok s' := by
    simp only [osiTaskStatusSet, hst, reduceCtorEq, if_false, ok_bind, hs, h]
  obtain ⟨hq', -⟩ := osiTaskStatusSet_idle_mem h' hq
  exact ⟨s', h', hq'.run, hq'.wait⟩

/-- Making an idle task of the run queue idle once more leaves the two queues as they are exactly
if it is the last one of the run queue. -/
theorem osiTaskStatusSet_again_iff (hq : Queues s r w) (hc : ∀ x ∈ r, x ∈ s.tasks) (ht : t ∈ r)
    (hst : s.status t = .idle) :
    (∃ s', osiTaskStatusSet s t .idle = .ok s' ∧ HasQueues s' r w) ↔ r.getLast? = some t := by
  have hb := Sched.length_le_bound hq.nodup_run hc
  obtain ⟨l, m, rfl⟩ := List.append_of_mem ht
  obtain ⟨s', h, hq'⟩ := osiTaskStatusSet_again hq hb hst
  constructor
  · rintro ⟨s₁, h₁, hq₁⟩
    cases h.symm.trans h₁
    rw [hq₁.run.unique hq'.run, List.getLast?_concat]
  · intro hl
    cases m with
    | nil => exact ⟨s', h, hq'⟩
    | cons b m =>
      have hlast : (b :: m).getLast? = some t := by
        simpa [List.getLast?_append, List.getLast?_cons] using hl
      have hn := hq.nodup_run
      rw [List.nodup_middle, List.nodup_cons] at hn
      exact absurd (List.mem_append_right l (List.mem_of_getLast? hlast)) hn.1

set_option maxRecDepth 10000 in
theorem osiTaskStatusSet_again_last : ∃ (k : Kernel) (s' : Sched), k.running = some 1 ∧
    k.status 0 = .idle ∧ osiTaskStatusSet k.toSched 0 .idle = .ok s' ∧ HasQueues s' [1, 0] [] := by
  obtain ⟨k, hk, hr, hst, ⟨h0, h1, h2⟩, hw⟩ :=
    (Boot.simple [0, 16] (by simp)).exists_after (fun _ _ => True)
      (fun k => k.running = some 1 ∧ k.status 0 = .idle ∧
        (k.runqueue = some 1 ∧ k.nrp 1 = some 0 ∧ k.nrp 0 = none) ∧ k.waitqueue = none)
      [.schedule, .contextSwitch] (by decide)
  obtain ⟨⟨r, w, hq, -⟩, -⟩ := reach_queued (c := False) hk fun hc => hc.elim
  have hrun : Chain k.nrp k.runqueue [1, 0] := by simp [h0, h1, h2]
  obtain rfl := hq.run.unique hrun
  obtain rfl := chain_none.1 (hw ▸ hq.wait)
  have hc : ∀ x ∈ [1, 0], x ∈ k.tasks := fun x hx =>
    (reach_ready hk).used x (hq.used (List.mem_append_left _ hx))
  obtain ⟨s', h, hq'⟩ := (osiTaskStatusSet_again_iff hq hc (by simp) hst).2 rfl
  exact ⟨k, s', hr, hst, h, hq'⟩

set_option maxRecDepth 10000 in
/-- A reader whose wait timed out stands before the idle task when the lock is released to it: the
idle task drops out of the run queue. -/
theorem not_osiTaskStatusSet_again : ∃ (k : Kernel) (r w : List TaskId) (t : TaskId),
    machine.Reach (fun _ _ => True) k ∧ Queues k.toSched r w ∧ (∀ x ∈ r, x ∈ k.tasks) ∧ t ∈ r ∧
    k.status t = .idle ∧ (Act.svc (.rwlockRelease 0)).GrantsReader k.toObjects t ∧
    ∃ s', osiTaskStatusSet k.toSched t .idle = .ok s' ∧ ¬ HasQueues s' r w := by
  obtain ⟨k, hk, hst, ⟨h0, h1, h2, h3⟩, ⟨hw, hw'⟩, hn, hb, hc⟩ :=
    (Boot.simple [0, 16, 16, 16] (by simp)).exists_after (fun _ _ => True)
      (fun k => k.status 2 = .idle ∧
        (k.runqueue = some 1 ∧ k.nrp 1 = some 2 ∧ k.nrp 2 = some 0 ∧ k.nrp 0 = none) ∧
        (k.waitqueue = some 3 ∧ k.nrp 3 = none) ∧ k.nextWriter 0 = none ∧
        k.blocked (.rwlock 0) = some 2 ∧ k.c 2 = desiredRead)
      [.schedule, .contextSwitch, .svc (.rwlockAcquireWrite 0 0), .systick, .contextSwitch,
        .svc (.rwlockAcquireRead 0 1), .contextSwitch, .clock 1 0, .systick, .contextSwitch,
        .svc (.delay uint32Max), .contextSwitch] (by decide)
  obtain ⟨⟨r, w, hq, -⟩, -⟩ := reach_queued (c := False) hk fun hc => hc.elim
  have hrun : Chain k.nrp k.runqueue [1, 2, 0] := by simp [h0, h1, h2, h3]
  obtain rfl := hq.run.unique hrun
  have hcr : ∀ x ∈ [1, 2, 0], x ∈ k.tasks := fun x hx =>
    (reach_ready hk).used x (hq.used (List.mem_append_left _ hx))
  obtain ⟨s', h, hq'⟩ := osiTaskStatusSet_again (l := [1]) (t := 2) (m := [0]) hq
    (Sched.length_le_bound hq.nodup_run hcr) hst
  refine ⟨k, _, w, 2, hk, hq, hcr, by simp, hst, ⟨hn, [], hb, by simp, hc⟩, s', h, fun hq₁ => ?_⟩
  have he := hq₁.run.unique hq'.run
  simp at he

end Osh
