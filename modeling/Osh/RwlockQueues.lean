import Osh.QueueRuns

namespace Osh
open Function (update)
open Lib

variable {k k' : Kernel} {s s' : Sched} {t : TaskId} {l : RwlockId} {r w : List TaskId}

/-- `osg.runqueue` and `osg.waitqueue` hold what they held in `r` and `w`, except that the tasks
that `gone` describes moved from the wait queue to the run queue. -/
structure Moved (s' : Sched) (r w : List TaskId) (gone : TaskId → Prop) (r' w' : List TaskId) :
    Prop where
  queues : Queues s' r' w'
  mem_run : ∀ x, x ∈ r' ↔ x ∈ r ∨ gone x
  mem_wait : ∀ x, x ∈ w' ↔ x ∈ w ∧ ¬ gone x

def Sched.Expired (s : Sched) (t : TaskId) : Prop :=
  s.status t = .wait ∧ s.delay t ≠ uint32Max ∧ s.delay t ≤ s.uptime

theorem wakeExpired_moved (h : wakeExpired s = .ok s') (hq : Queues s r w) :
    ∃ woken : List TaskId, (∀ x ∈ woken, s.Expired x) ∧
      ∃ r' w', Moved s' r w (· ∈ woken) r' w' := by
  rcases wakeLoop_spec h hq.wait with rfl | ⟨t, ht, hd, hu, hs⟩
  · exact ⟨[], by simp, r, w, hq, by simp, by simp⟩
  · have htw := (hq.waiting t).1 ht
    obtain ⟨hq', -, -⟩ := osiTaskStatusSet_idle hs hq (hq.notMem_run (by rw [htw]; decide))
    refine ⟨[t], by simpa [Sched.Expired] using ⟨htw, hd, hu⟩, _, _, hq', fun x => ?_, fun x => ?_⟩
    · rw [mem_insertByPriority, List.mem_singleton]
      tauto
    · rw [hq.nodup_wait.mem_erase_iff, List.mem_singleton]
      tauto

theorem osiSchedule_moved (h : osiSchedule k = .ok k') (hq : Queues k.toSched r w) :
    ∃ woken : List TaskId, (∀ x ∈ woken, k.Expired x) ∧
      ∃ r' w', Moved k'.toSched r w (· ∈ woken) r' w' := by
  rcases osiSchedule_cases h with rfl | ⟨running, s, new, -, -, -, hw, hn, hd⟩
  · exact ⟨[], by simp, r, w, hq, by simp, by simp⟩
  · obtain ⟨woken, hx, r', w', hm⟩ := wakeExpired_moved hw hq
    refine ⟨woken, hx, r', w', ?_⟩
    rcases hd with ⟨-, rfl⟩ | ⟨t, rfl, hd⟩
    · exact hm
    · obtain ⟨running', o, s', -, hne, -, hs, rfl⟩ := hd
      obtain ⟨hq', -⟩ := dispatchSwitch_queues hs hm.queues hne
      have ht : s.status t ≠ .wait := by
        have hrun := findNewTask_running hn
        intro he
        rw [he] at hrun
        cases hrun
      simp only [dispatchRun, dispatchWait, if_neg ht] at hq'
      exact ⟨hq', hm.mem_run, hm.mem_wait⟩

theorem Reschedules.moved (h : Reschedules k s k') (hq : Queues s r w) :
    ∃ woken : List TaskId, (∀ x ∈ woken, s.Expired x) ∧
      ∃ r' w', Moved k'.toSched r w (· ∈ woken) r' w' := by
  rcases h with ⟨-, h⟩ | ⟨-, rfl⟩
  · exact osiSchedule_moved (k := { k with toSched := s }) h hq
  · exact ⟨[], by simp, r, w, hq, by simp, by simp⟩

theorem Moved.of_mem {gone : TaskId → Prop} {r' w' : List TaskId} (hm : Moved s' r w gone r' w')
    (ht : t ∈ r) (hd : t ∉ w) : Moved s' r w (fun x => x = t ∨ gone x) r' w' where
  queues := hm.queues
  mem_run x := by
    rw [hm.mem_run]
    constructor
    · rintro (hx | hx)
      · exact .inl hx
      · exact .inr (.inr hx)
    · rintro (hx | rfl | hx)
      · exact .inl hx
      · exact .inl ht
      · exact .inr hx
  mem_wait x := by
    rw [hm.mem_wait, not_or]
    exact and_congr_right fun hx => ⟨fun hn => ⟨fun he => hd (he ▸ hx), hn⟩, And.right⟩

theorem Moved.of_idle {woken r' w' : List TaskId} {m : Sched} (hq : Queues s r w)
    (hw : ∀ x ∈ woken, m.Expired x) (ht : t ∉ r)
    (hset : osiTaskStatusSet s t .idle = .ok m)
    (hm : Moved s' (insertByPriority s.priority t r) (w.erase t) (· ∈ woken) r' w') :
    (∀ x ∈ woken, s.Expired x) ∧ Moved s' r w (fun x => x = t ∨ x ∈ woken) r' w' := by
  obtain ⟨-, hsr, -⟩ := osiTaskStatusSet_idle hset hq ht
  have hstatus : m.status = update s.status t .idle := hsr.status
  refine ⟨fun x hx => ?_, hm.queues, fun x => ?_, fun x => ?_⟩
  · obtain ⟨hst, hd, hu⟩ := hw x hx
    rw [hstatus, Function.update_apply] at hst
    split_ifs at hst
    rw [hsr.delay] at hd hu
    rw [hsr.rest.uptime] at hu
    exact ⟨hst, hd, hu⟩
  · rw [hm.mem_run, mem_insertByPriority]
    tauto
  · rw [hm.mem_wait, hq.nodup_wait.mem_erase_iff]
    tauto

theorem Dispatches.moved (h : Dispatches k t k') (hq : Queues k.toSched r w)
    (ht : t ∈ r ∨ k.status t = .wait) :
    ∃ r' w', Moved k'.toSched r w (· = t) r' w' := by
  obtain ⟨running, o, s, -, hne, -, hs, rfl⟩ := h
  obtain ⟨hq', -⟩ := dispatchSwitch_queues hs hq hne
  refine ⟨_, _, hq', fun x => ?_, fun x => ?_⟩
  · rw [mem_dispatchRun]
    constructor
    · rintro (hx | ⟨-, hx⟩)
      · exact .inl hx
      · exact .inr hx
    · rintro (hx | rfl)
      · exact .inl hx
      · exact ht.imp_right fun ht => ⟨ht, rfl⟩
  · rw [mem_dispatchWait hq.nodup_wait]
    refine and_congr_right fun hxw => not_congr ⟨And.right, fun hxt => ⟨?_, hxt⟩⟩
    exact (hq.waiting t).1 (hxt ▸ hxw)

/-- A hand-over moves `t` to the run queue, if `t` is there already, or waits, or has to wait for
its turn. -/
theorem osiDispatchOrQueue_moved (h : osiDispatchOrQueue k t = .ok k') (hq : Queues k.toSched r w)
    (hr : k.status t = .wait → k.running ≠ some t)
    (ht : t ∈ r ∨ k.status t = .wait ∨
      ¬ (k.status t).isRunning ∧ ∃ x ∈ r, k.priority x > k.priority t) :
    ∃ woken : List TaskId, (∀ x ∈ woken, k.Expired x) ∧
      ∃ r' w', Moved k'.toSched r w (fun x => x = t ∨ x ∈ woken) r' w' := by
  rcases osiDispatchOrQueue_cases h with ⟨-, s, hs, hsched⟩ | ⟨hh, hd⟩
  · unfold MakesRunnable at hs
    split_ifs at hs with hrun
    · subst hs
      obtain ⟨woken, hx, r', w', hm⟩ := hsched.moved hq
      have htr : t ∈ r := by
        rcases ht with ht | ht | ht
        · exact ht
        · rw [ht] at hrun
          cases hrun
        · exact absurd hrun ht.1
      exact ⟨woken, hx, r', w', hm.of_mem htr (hq.disjoint t htr)⟩
    · have htr : t ∉ r := hq.notMem_run hrun
      obtain ⟨hq', -, -⟩ := osiTaskStatusSet_idle hs hq htr
      obtain ⟨woken, hx, r', w', hm⟩ := hsched.moved hq'
      obtain ⟨hx', hm'⟩ := hm.of_idle hq hx htr hs
      exact ⟨woken, hx', r', w', hm'⟩
  · have hhigh : ¬ ∃ x ∈ r, k.priority x > k.priority t := fun hx => by
      cases (runqueueHasHigherPriority_spec hh hq).2 hx
    have ht' : t ∈ r ∨ k.status t = .wait := ht.imp_right fun h => h.resolve_right (hhigh ·.2)
    refine ⟨[], by simp, ?_⟩
    simp only [List.not_mem_nil, or_false]
    rcases osiDispatch_eq_ok.1 hd with ⟨hrt, rfl⟩ | hd
    · have htr : t ∈ r := ht'.resolve_right fun hw => hr hw hrt
      have hm : Moved k'.toSched r w (fun _ => False) r w := ⟨hq, by simp, by simp⟩
      exact ⟨r, w, by simpa using hm.of_mem htr (hq.disjoint t htr)⟩
    · exact hd.moved hq ht'

/-- The tasks that a release of `l` lets in. -/
def Objects.Grants (o : Objects) (l : RwlockId) (t : TaskId) : Prop :=
  o.nextWriter l = some t ∨
    o.nextWriter l = none ∧ ∃ pre, FirstReader o (o.blocked (.rwlock l)) pre t

/-- Against `k` the run queue gained the tasks that a release of `l` lets in and expired tasks that
the scheduler woke, the wait queue lost these, and both are still in order. -/
def KeepsLists (k : Kernel) (l : RwlockId) (s' : Sched) : Prop :=
  ∀ r w, Chain k.nrp k.runqueue r → Chain k.nrp k.waitqueue w →
    ∃ r' w' woken : List TaskId, Chain s'.nrp s'.runqueue r' ∧ Chain s'.nrp s'.waitqueue w' ∧
      r'.Nodup ∧ w'.Nodup ∧ (r'.Pairwise fun a b => s'.priority b ≤ s'.priority a) ∧
      (∀ x ∈ woken, k.Expired x) ∧
      (∀ x, x ∈ r' ↔ x ∈ r ∨ k.Grants l x ∨ x ∈ woken) ∧
      ∀ x, x ∈ w' ↔ x ∈ w ∧ ¬ (k.Grants l x ∨ x ∈ woken)

/-- A writer that is let in is in the run queue, or waits, or is put behind a task of higher
priority; a reader that is let in has no task behind it in the run queue. -/
def ReleaseSafe (k : Kernel) (l : RwlockId) : Prop :=
  ∀ r, Chain k.nrp k.runqueue r →
    (∀ t, k.nextWriter l = some t → t ∈ r ∨ k.status t = .wait ∨
      ¬ (k.status t).isRunning ∧ ∃ x ∈ r, k.priority x > k.priority t) ∧
    ∀ t, (Act.svc (.rwlockRelease l)).GrantsReader k.toObjects t → t ∈ r → k.nrp t = none

theorem Moved.keepsLists {gone : TaskId → Prop} {r' w' : List TaskId}
    (hm : Moved s' r w gone r' w') (woken : List TaskId) (hq : Queues k.toSched r w)
    (hx : ∀ x ∈ woken, k.Expired x) (hg : ∀ x, gone x ↔ k.Grants l x ∨ x ∈ woken) :
    KeepsLists k l s' := by
  intro r₁ w₁ hr₁ hw₁
  obtain rfl := hr₁.unique hq.run
  obtain rfl := hw₁.unique hq.wait
  refine ⟨r', w', woken, hm.queues.run, hm.queues.wait, hm.queues.nodup_run, hm.queues.nodup_wait,
    hm.queues.sorted, hx, fun x => ?_, fun x => ?_⟩
  · rw [hm.mem_run, hg]
  · rw [hm.mem_wait, hg]

theorem Objects.Grants.of_reader {o : Objects}
    (h : (Act.svc (.rwlockRelease l)).GrantsReader o t) : o.Grants l t :=
  .inr h

section Grants
variable {o : Objects} {x : TaskId} {pre : List TaskId}

theorem Objects.grants_of_writer (hw : o.nextWriter l = some t) : o.Grants l x ↔ x = t := by
  simp only [Objects.Grants, hw, Option.some.injEq, reduceCtorEq, false_and, or_false]
  exact eq_comm

theorem Objects.grants_of_reader (hw : o.nextWriter l = none)
    (hf : FirstReader o (o.blocked (.rwlock l)) pre t) : o.Grants l x ↔ x = t := by
  simp only [Objects.Grants, hw, reduceCtorEq, true_and, false_or]
  constructor
  · rintro ⟨pre', hf'⟩
    exact hf'.unique hf
  · rintro rfl
    exact ⟨pre, hf⟩

theorem Objects.not_grants_of_free (hb : o.blocked (.rwlock l) = none) : ¬ o.Grants l x := by
  rintro (ht | ⟨-, pre, hf⟩)
  · rw [(Objects.nextWriter_eq_some.1 ht).1] at hb
    cases hb
  · have hnil : x ∈ [] := hf.mem (m := []) hb
    cases hnil

theorem Objects.not_grants_of_skip (hw : o.nextWriter l = none)
    (hp : Chain o.nblocked (o.blocked (.rwlock l)) pre) (hx : ∀ y ∈ pre, o.c y ≠ desiredRead) :
    ¬ o.Grants l x := by
  rintro (ht | ⟨-, pre', hf⟩)
  · rw [hw] at ht
    cases ht
  · exact hx x (hf.mem hp) hf.reads

end Grants

theorem keepsLists_of_no_grant (hq : Queues k.toSched r w) (hn : ∀ t, ¬ k.Grants l t) :
    KeepsLists k l k.toSched ↔ ReleaseSafe k l := by
  have hm : Moved k.toSched r w (fun _ => False) r w := ⟨hq, by simp, by simp⟩
  apply iff_of_true (hm.keepsLists [] hq (by simp) (by simpa using hn))
  exact fun _ _ => ⟨fun t ht => absurd (.inl ht) (hn t), fun t ht => absurd (.of_reader ht) (hn t)⟩

theorem osiDispatchOrQueue_notMem {r' : List TaskId} (h : osiDispatchOrQueue k t = .ok k')
    (hq : Queues k.toSched r w) (htr : t ∉ r) (htw : k.status t ≠ .wait)
    (hh : ¬ (k.status t).isRunning → ¬ ∃ x ∈ r, k.priority x > k.priority t)
    (hr' : Chain k'.nrp k'.runqueue r') : t ∉ r' := by
  rcases osiDispatchOrQueue_cases h with ⟨hhigh, s, hs, hsched⟩ | ⟨-, hd⟩
  · have hx := (runqueueHasHigherPriority_spec hhigh hq).1 rfl
    have hrun : (k.status t).isRunning := by
      by_contra hrun
      exact hh hrun hx
    rw [MakesRunnable, if_pos hrun] at hs
    subst hs
    obtain ⟨woken, hw, r₁, w₁, hm⟩ := hsched.moved hq
    rw [hr'.unique hm.queues.run, hm.mem_run]
    rintro (ht | ht)
    · exact htr ht
    · exact htw (hw t ht).1
  · rcases osiDispatch_eq_ok.1 hd with ⟨-, rfl⟩ | hd
    · rwa [hr'.unique hq.run]
    · obtain ⟨running, o, s, -, hne, -, hs, rfl⟩ := hd
      obtain ⟨hq', -⟩ := dispatchSwitch_queues hs hq hne
      rw [hr'.unique hq'.run, mem_dispatchRun]
      rintro (ht | ⟨ht, -⟩)
      · exact htr ht
      · exact htw ht

theorem keepsLists_write {o : Objects} (hq : Queues k.toSched r w)
    (hr : k.status t = .wait → k.running ≠ some t) (hw : k.nextWriter l = some t)
    (h : osiDispatchOrQueue { k with toObjects := o } t = .ok k') :
    KeepsLists k l k'.toSched ↔ ReleaseSafe k l := by
  have hg : ∀ x, k.Grants l x ↔ x = t := fun x => Objects.grants_of_writer hw
  constructor
  · intro hk r₁ hr₁
    obtain rfl := hr₁.unique hq.run
    constructor
    · intro t' ht'
      cases hw.symm.trans ht'
      by_contra hns
      simp only [not_or, not_and] at hns
      obtain ⟨r', w', woken, hr', -, -, -, -, -, hmem, -⟩ := hk _ _ hq.run hq.wait
      refine osiDispatchOrQueue_notMem (k := { k with toObjects := o }) h hq hns.1 hns.2.1 hns.2.2
        hr' ?_
      exact (hmem t).2 (.inr (.inl ((hg t).2 rfl)))
    · intro t' ht'
      rw [Act.GrantsReader, hw] at ht'
      cases ht'.1
  · intro hs
    obtain ⟨woken, hx, r', w', hm⟩ := osiDispatchOrQueue_moved (k := { k with toObjects := o }) h hq
      hr ((hs r hq.run).1 t hw)
    exact hm.keepsLists woken hq hx fun x => by rw [hg]

theorem keepsLists_read {pre : List TaskId} (hq : Queues k.toSched r w)
    (hw : k.nextWriter l = none) (hf : FirstReader k.toObjects (k.blocked (.rwlock l)) pre t)
    (h : osiTaskStatusSet k.toSched t .idle = .ok s') :
    KeepsLists k l s' ↔ ReleaseSafe k l := by
  have hg : ∀ x, k.Grants l x ↔ x = t := fun x => Objects.grants_of_reader hw hf
  have hread : ∀ x, (Act.svc (.rwlockRelease l)).GrantsReader k.toObjects x → x = t := fun x hx =>
    (hg x).1 (.of_reader hx)
  by_cases htr : t ∈ r
  · obtain ⟨x, y, rfl⟩ := List.append_of_mem htr
    obtain ⟨hq', hs'⟩ := osiTaskStatusSet_idle_mem h hq
    obtain ⟨_, -, -, hy⟩ := hq.run.split
    have hny : t ∉ x ++ y := by
      have hn := hq.nodup_run
      simp only [List.nodup_append, List.nodup_cons, List.mem_cons] at hn
      rw [List.mem_append, not_or]
      exact ⟨fun hx => hn.2.2 t hx t (.inl rfl) rfl, hn.2.1.1⟩
    constructor
    · intro hk r₁ hr₁
      obtain rfl := hr₁.unique hq.run
      constructor
      · exact fun t' ht' => absurd (hw.symm.trans ht') (by simp)
      · intro t' ht' _
        obtain rfl := hread t' ht'
        obtain ⟨r', w', woken, hr', -, -, -, -, -, hmem, -⟩ := hk _ _ hq.run hq.wait
        obtain rfl := hr'.unique hq'.run
        cases y with
        | nil => exact hy
        | cons z y =>
          -- `z` stood behind the reader, and is not in the list that was cut off
          have hz := (hmem z).2 (.inl (by simp))
          have hn := hq.nodup_run
          simp only [List.nodup_append, List.nodup_cons, List.mem_cons] at hn
          rw [List.mem_append, List.mem_singleton] at hz
          rcases hz with hz | rfl
          · exact absurd rfl (hn.2.2 z hz z (.inr (.inl rfl)))
          · exact absurd (.inl rfl) hn.2.1.1
    · intro hs
      have hnone := (hs _ hq.run).2 t ⟨hw, pre, hf⟩ htr
      obtain rfl := chain_none.1 (hnone ▸ hy)
      have hm : Moved s' (x ++ [t]) w (· ∈ []) (x ++ [t]) w := ⟨hq', by simp, by simp⟩
      exact (hm.of_mem htr (hq.disjoint t htr)).keepsLists [] hq (by simp) fun x => by rw [hg]
  · obtain ⟨hq', -, -⟩ := osiTaskStatusSet_idle h hq htr
    have hm : Moved s' (insertByPriority k.priority t r) (w.erase t) (· ∈ [])
        (insertByPriority k.priority t r) (w.erase t) := ⟨hq', by simp, by simp⟩
    obtain ⟨-, hm'⟩ := hm.of_idle hq (by simp) htr h
    apply iff_of_true (hm'.keepsLists [] hq (by simp) fun x => by rw [hg])
    intro r₁ hr₁
    obtain rfl := hr₁.unique hq.run
    constructor
    · exact fun t' ht' => absurd (hw.symm.trans ht') (by simp)
    · intro t' ht' htr'
      exact absurd (hread t' ht' ▸ htr') htr

/-- In every state, a release of a read-write lock keeps the two lists exactly if it is safe. -/
theorem rwlockRelease_keepsLists_iff (h : machine.Reach (fun _ _ => True) k)
    (hs : machine.step k (.svc (.rwlockRelease l)) k') :
    KeepsLists k l k'.toSched ↔ ReleaseSafe k l := by
  obtain ⟨⟨r, w, hq, -⟩, hn⟩ := reach_queued (c := False) h fun hc => hc.elim
  obtain ⟨he, hr⟩ := hs
  simp only [Act.run, svcHandler, Svc.call, bind_eq_ok, pure_eq_ok, Prod.mk.injEq,
    Prod.exists] at hr
  obtain ⟨caller, hcaller, k₁, status, value, ⟨k₂, st, hc, rfl, -, -⟩, rfl⟩ := hr
  obtain ⟨-, task, -, -, -, hc⟩ := osiRwlockRelease_cases hc
  cases hc with
  | free hb => exact keepsLists_of_no_grant hq fun t => Objects.not_grants_of_free hb
  | write hw hd =>
    have hk := keepsLists_write hq (fun hst hrun => ?_) hw hd
    · exact hk
    · exact hn.status _ ((next_of_none he).trans hrun) hst
  | read hw hf hset => exact keepsLists_read hq hw hf hset
  | skip hw hb hp hx =>
    exact keepsLists_of_no_grant hq fun t => Objects.not_grants_of_skip hw hp hx

set_option maxRecDepth 10000 in
theorem keepsLists_waiting_reader : ∃ k k' : Kernel,
    k.status 2 = .wait ∧ k'.status 2 = .idle ∧ KeepsLists k 0 k'.toSched := by
  obtain ⟨k, k', hk, hs, ⟨hst, h0, h1, h2, hw, hb, hc⟩, hst'⟩ :=
    (Boot.simple [0, 16, 16] (by simp)).exists_step (fun _ _ => True)
    (fun k => k.status 2 = .wait ∧ k.runqueue = some 1 ∧ k.nrp 1 = some 0 ∧ k.nrp 0 = none ∧
      k.nextWriter 0 = none ∧ k.blocked (.rwlock 0) = some 2 ∧ k.c 2 = desiredRead)
    (fun k' => k'.status 2 = .idle)
    [.schedule, .contextSwitch, .svc (.rwlockAcquireWrite 0 0), .systick, .contextSwitch,
      .svc (.rwlockAcquireRead 0 uint32Max), .contextSwitch] (.svc (.rwlockRelease 0)) (by decide)
  refine ⟨k, k', hst, hst', (rwlockRelease_keepsLists_iff hk hs).2 ?_⟩
  intro r hr
  have hc2 : Chain k.nrp k.runqueue [1, 0] := by simp [h0, h1, h2]
  constructor
  · exact fun t ht => absurd (hw.symm.trans ht) (by simp)
  · rintro t ⟨_, pre, hf⟩ ht
    obtain rfl : t = 2 := hf.unique (⟨hb, by simp, hc⟩ : FirstReader _ _ [] 2)
    rw [hr.unique hc2] at ht
    simp at ht

set_option maxRecDepth 10000 in
/-- A reader whose wait timed out is let in while it is in the run queue, and the idle task behind
it drops out. -/
theorem not_keepsLists_timed_out_reader : ∃ k k' : Kernel,
    machine.Reach (fun _ _ => True) k ∧ machine.step k (.svc (.rwlockRelease 0)) k' ∧
      ¬ KeepsLists k 0 k'.toSched := by
  obtain ⟨k, k', hk, hs, ⟨h0, h1, h2, h3, hw, hw'⟩, h0', h1', h2'⟩ :=
    (Boot.simple [0, 16, 16, 16] (by simp)).exists_step (fun _ _ => True)
    (fun k => k.runqueue = some 1 ∧ k.nrp 1 = some 2 ∧ k.nrp 2 = some 0 ∧ k.nrp 0 = none ∧
      k.waitqueue = some 3 ∧ k.nrp 3 = none)
    (fun k' => k'.runqueue = some 1 ∧ k'.nrp 1 = some 2 ∧ k'.nrp 2 = none)
    [.schedule, .contextSwitch, .svc (.rwlockAcquireWrite 0 0), .systick, .contextSwitch,
      .svc (.rwlockAcquireRead 0 1), .contextSwitch, .clock 1 0, .systick, .contextSwitch,
      .svc (.delay uint32Max), .contextSwitch] (.svc (.rwlockRelease 0)) (by decide)
  refine ⟨k, k', hk, hs, fun hkeep => ?_⟩
  obtain ⟨r', w', woken, hr', -, -, -, -, -, hmem, -⟩ := hkeep [1, 2, 0] [3]
    (by simp [h0, h1, h2, h3]) (by simp [hw, hw'])
  have hc : Chain k'.nrp k'.runqueue [1, 2] := by simp [h0', h1', h2']
  have h := (hmem 0).2 (.inl (by simp))
  rw [hr'.unique hc] at h
  simp at h

end Osh
