import Osh.RwlockQueues
import Osh.RwlockRuns
import Osh.ScheduleTotal

namespace Osh
open Function (update)
open Lib

variable {k k' : Kernel} {s s' : Sched} {o : Objects} {a : Act} {l : RwlockId} {t x : TaskId}
  {m r w : List TaskId} {ok : Kernel → Act → Prop}

section Wakes

def Objects.readersIn (o : Objects) (m : List TaskId) : List TaskId :=
  m.filter fun t => o.c t = desiredRead

def Objects.writersIn (o : Objects) (m : List TaskId) : List TaskId :=
  m.filter fun t => o.c t = desiredWrite

/-- Between `k` and `k'` every task on the blocked list `m` of `l` that wished to read was let in,
and the others kept their order. -/
structure WakesReaders (k : Kernel) (l : RwlockId) (m : List TaskId) (k' : Kernel) : Prop where
  blocked : ∃ m', Chain k'.nblocked (k'.blocked (.rwlock l)) m' ∧
    (∀ t ∈ m', k'.c t ≠ desiredRead) ∧ k'.writersIn m' = k.writersIn m
  readers : (k'.rwlock l).readers = (k.rwlock l).readers - 1 + (k.readersIn m).length
  granted : ∀ t ∈ k.readersIn m, (k'.regs t).r0 = Status.success.code

theorem RwlockStep.readers_lt (h : RwlockStep k l k' a) (hb : (k.rwlock l).readers < 2 ^ 16) :
    (k'.rwlock l).readers < 2 ^ 16 := by
  have hdrop : (k.rwlock l).drop.readers < 2 ^ 16 := Nat.lt_of_le_of_lt (Nat.sub_le _ 1) hb
  have hadd (rwlock : Rwlock) : rwlock.addReader.readers < 2 ^ 16 :=
    Nat.mod_lt _ (Nat.two_pow_pos 16)
  cases h with
  | other _ hl | refuseRead _ _ hl | refuseWrite _ _ hl =>
    rw [hl]
    exact hb
  | read _ _ hl | grantRead _ _ _ _ _ hl =>
    rw [hl]
    exact hadd _
  | write _ _ hl =>
    rw [hl]
    exact hb
  | drop _ _ _ _ _ hl | grantWrite _ _ _ _ hl =>
    rw [hl]
    exact hdrop

theorem reach_readers_lt (hr : machine.Reach ok k) (hok : ∀ k a, ok k a → a.RestartsFree k)
    (l : RwlockId) : (k.rwlock l).readers < 2 ^ 16 := by
  induction hr with
  | init h =>
    obtain ⟨b, hb⟩ := h
    rw [(b.start_unused hb).rwlock]
    exact Nat.two_pow_pos 16
  | step hr ha hs ih =>
    obtain ⟨hf, hn⟩ := reach_flagged hr
    obtain ⟨L, hi⟩ := reach_blocked hr hok
    exact (Act.rwlockStep hs hf hn hi l).readers_lt ih

theorem rwlockRelease_releases (hs : machine.step k (.svc (.rwlockRelease l)) k') :
    ∃ r k₁ regs, k.running = some r ∧ RwlockReleases k l k₁ ∧
      k' = { k₁ with regs := update k₁.regs r regs } ∧ regs.r0 = Status.success.code := by
  obtain ⟨-, h⟩ := hs
  simp only [Act.run, svcHandler, Svc.call, bind_eq_ok, pure_eq_ok, Prod.exists,
    Prod.mk.injEq] at h
  obtain ⟨r, hr, k₁, _, _, ⟨_, status, h, rfl, rfl, rfl⟩, rfl⟩ := h
  obtain ⟨rfl, -, -, -, -, hc⟩ := osiRwlockRelease_cases h
  exact ⟨r, _, _, Kernel.self_eq_ok.1 hr, hc, rfl, rfl⟩

theorem readersIn_eq_nil : o.readersIn m = [] ↔ ∀ t ∈ m, o.c t ≠ desiredRead := by
  simp [Objects.readersIn]

theorem readersIn_split {pre post : List TaskId} (hpre : ∀ x ∈ pre, o.c x ≠ desiredRead)
    (ht : o.c t = desiredRead) : o.readersIn (pre ++ t :: post) = t :: o.readersIn post := by
  have hnil : o.readersIn pre = [] := readersIn_eq_nil.2 hpre
  rw [Objects.readersIn] at hnil
  rw [Objects.readersIn, List.filter_append, hnil, List.nil_append,
    List.filter_cons_of_pos (by simpa using ht)]
  rfl

theorem wakesReaders_of_skip (hm : Chain k.nblocked (k.blocked (.rwlock l)) m)
    (hx : ∀ t ∈ m, k.c t ≠ desiredRead) {regs : TaskId → StackedRegs} :
    WakesReaders k l m { k with toObjects := { k.dropRwlock l with regs := regs } } := by
  have hnil : k.readersIn m = [] := readersIn_eq_nil.2 hx
  constructor
  · exact ⟨m, hm, hx, rfl⟩
  · rw [hnil]
    simp [Objects.dropRwlock, Objects.setRwlock, Rwlock.drop]
  · rw [hnil]
    simp

theorem wakesReaders_of_read {pre post : List TaskId}
    (hm : Chain k.nblocked (k.blocked (.rwlock l)) (pre ++ t :: post))
    (hpre : ∀ x ∈ pre, k.c x ≠ desiredRead) (ht : k.c t = desiredRead)
    (hb : (k.rwlock l).readers < 2 ^ 16)
    (hm' : Chain k'.nblocked (k'.blocked (.rwlock l)) (pre ++ post))
    (hc' : k'.c = update k.c t desiredNone) (hl : k'.rwlock l = (k.rwlock l).drop.addReader)
    (hregs : (k'.regs t).r0 = Status.success.code) :
    WakesReaders k l (pre ++ t :: post) k' ↔ k.readersIn post = [] := by
  have htm : t ∉ pre ++ post := (List.nodup_cons.1 (List.perm_middle.nodup_iff.1 hm.nodup)).1
  have hc {y : TaskId} (hy : y ∈ pre ++ post) : k'.c y = k.c y := by
    rw [hc']
    exact Function.update_of_ne (ne_of_mem_of_not_mem hy htm) _ _
  have hreaders : k.readersIn (pre ++ t :: post) = t :: k.readersIn post :=
    readersIn_split hpre ht
  constructor
  · intro h
    obtain ⟨m', hchain, hx, -⟩ := h.blocked
    rw [hchain.unique hm'] at hx
    apply readersIn_eq_nil.2
    intro y hy
    have hy' : y ∈ pre ++ post := List.mem_append_right _ hy
    rw [← hc hy']
    exact hx y hy'
  · intro hnil
    refine ⟨⟨pre ++ post, hm', fun y hy => ?_, ?_⟩, ?_, ?_⟩
    · rw [hc hy]
      rcases List.mem_append.1 hy with hy | hy
      · exact hpre y hy
      · exact readersIn_eq_nil.1 hnil y hy
    · have hw : k.writersIn (pre ++ t :: post) = k.writersIn (pre ++ post) := by
        have ht' : ¬ k.c t = desiredWrite := by
          rw [ht]
          decide
        simp [Objects.writersIn, ht']
      rw [hw]
      apply List.filter_congr
      intro y hy
      rw [hc hy]
    · rw [hreaders, hnil, hl]
      change ((k.rwlock l).readers - 1 + 1) % 2 ^ 16 = (k.rwlock l).readers - 1 + 1
      exact Nat.mod_eq_of_lt (by omega)
    · rw [hreaders, hnil]
      simpa using hregs

/-- A release that hands the lock to no writer wakes every waiting reader exactly if there is at
most one. -/
theorem rwlockRelease_wakesReaders_iff (h : machine.Reach (fun k a => a.RestartsFree k) k)
    (hs : machine.step k (.svc (.rwlockRelease l)) k') (hw : k.nextWriter l = none)
    (hm : Chain k.nblocked (k.blocked (.rwlock l)) m) :
    WakesReaders k l m k' ↔ (k.readersIn m).length ≤ 1 := by
  obtain ⟨r, k₁, regs, hr, hc, rfl, hregs⟩ := rwlockRelease_releases hs
  cases hc with
  | free hb =>
    obtain rfl : m = [] := chain_none.1 (hb ▸ hm)
    apply iff_of_true (wakesReaders_of_skip hm (by simp))
    simp [Objects.readersIn]
  | write hw' => cases hw.symm.trans hw'
  | skip _ _ hp hx =>
    obtain rfl := hm.unique hp
    apply iff_of_true (wakesReaders_of_skip hm hx)
    rw [readersIn_eq_nil.2 hx]
    exact Nat.zero_le 1
  | @read pre t s _ hf hset =>
    obtain ⟨post, rfl⟩ := hm.eq_append hf.path
    have hlen : (k.readersIn (pre ++ t :: post)).length ≤ 1 ↔ k.readersIn post = [] := by
      rw [readersIn_split hf.skipped hf.reads, List.length_cons, ← List.length_eq_zero_iff]
      omega
    rw [hlen]
    apply wakesReaders_of_read hm hf.skipped hf.reads
    · exact reach_readers_lt h (fun _ _ ha => ha) l
    · simpa [Objects.grantRead, Objects.dropRwlock, Objects.setRwlock, Objects.unlink,
        Objects.setStackedReturn] using hm.unlink
    · simp [Objects.grantRead, Objects.dropRwlock, Objects.setRwlock, Objects.unlink,
        Objects.setStackedReturn]
    · simp [Objects.grantRead, Objects.dropRwlock, Objects.setRwlock, Objects.unlink,
        Objects.setStackedReturn]
    · by_cases htr : t = r
      · simp [htr, hregs]
      · simp [Objects.grantRead, Objects.setStackedReturn, htr]

set_option maxRecDepth 10000 in
theorem wakesReaders_one : ∃ k k' : Kernel,
    k.c 2 = desiredRead ∧ WakesReaders k 0 [2] k' ∧ (k'.rwlock 0).readers = 1 := by
  obtain ⟨k, k', hk, hs, ⟨hw, hb, hn, hc⟩, hr⟩ := (Boot.simple [0, 16, 16] (by simp)).exists_step
    (fun _ a => ¬ a.restarts)
    (fun k => k.nextWriter 0 = none ∧ k.blocked (.rwlock 0) = some 2 ∧ k.nblocked 2 = none ∧
      k.c 2 = desiredRead) (fun k' => (k'.rwlock 0).readers = 1)
    [.schedule, .contextSwitch, .svc (.rwlockAcquireWrite 0 0), .systick, .contextSwitch,
      .svc (.rwlockAcquireRead 0 uint32Max), .contextSwitch] (.svc (.rwlockRelease 0)) (by decide)
  have hm : Chain k.nblocked (k.blocked (.rwlock 0)) [2] := by simp [hb, hn]
  have hk' : machine.Reach (fun k a => a.RestartsFree k) k := hk.mono fun _ _ => .of_not_restarts
  exact ⟨k, k', hc, (rwlockRelease_wakesReaders_iff hk' hs hw hm).2 (List.length_filter_le _ _), hr⟩

set_option maxRecDepth 10000 in
/-- The second of two readers is still on the list when the writer has released the lock. -/
theorem not_wakesReaders_two : ∃ k k' : Kernel,
    machine.Reach (fun k a => a.RestartsFree k) k ∧ machine.step k (.svc (.rwlockRelease 0)) k' ∧
      k.nextWriter 0 = none ∧ Chain k.nblocked (k.blocked (.rwlock 0)) [2, 3] ∧
        ¬ WakesReaders k 0 [2, 3] k' := by
  obtain ⟨k, k', hk, hs, ⟨hw, hb, hn, hn'⟩, hb', hn₃, hc⟩ :=
    (Boot.simple [0, 16, 16, 16] (by simp)).exists_step (fun _ a => ¬ a.restarts)
    (fun k => k.nextWriter 0 = none ∧ k.blocked (.rwlock 0) = some 2 ∧ k.nblocked 2 = some 3 ∧
      k.nblocked 3 = none)
    (fun k' => k'.blocked (.rwlock 0) = some 3 ∧ k'.nblocked 3 = none ∧ k'.c 3 = desiredRead)
    [.schedule, .contextSwitch, .svc (.rwlockAcquireWrite 0 0), .systick, .contextSwitch,
      .svc (.rwlockAcquireRead 0 uint32Max), .contextSwitch, .systick, .contextSwitch,
      .svc (.rwlockAcquireRead 0 uint32Max), .contextSwitch] (.svc (.rwlockRelease 0)) (by decide)
  refine ⟨k, k', hk.mono fun _ _ => .of_not_restarts, hs, hw, by simp [hb, hn, hn'], fun h => ?_⟩
  obtain ⟨m', hm', hx, -⟩ := h.blocked
  have hm₃ : Chain k'.nblocked (k'.blocked (.rwlock 0)) [3] := by simp [hb', hn₃]
  rw [hm'.unique hm₃] at hx
  exact hx 3 (by simp) hc

end Wakes

section Preempts

/-- The scheduler does not go below a running task that can go on. -/
theorem osiSchedule_next (h : osiSchedule k = .ok k') (hq : Queues k.toSched r w)
    (hr : k.running = some x) (hx : k.status x = .active) (hs : k.scheduled = none) :
    k'.priority = k.priority ∧ ∃ n, k'.next = some n ∧ k.priority x ≤ k.priority n := by
  rcases osiSchedule_cases h with rfl | ⟨running, s, new, hr', -, -, hw, hn, hd⟩
  · exact ⟨rfl, x, (next_of_none hs).trans hr, le_rfl⟩
  · cases hr.symm.trans hr'
    have hs' := wakeLoop_rethreaded hw
    have hp : s.priority = k.priority := hs'.priority
    have hrun : (s.status x).isRunning := by
      rcases wakeExpired_status (c := False) ⟨r, w, hq, False.elim⟩ hw x with hst | ⟨hwait, -⟩
      · rw [hst, hx]
        rfl
      · cases hx.symm.trans hwait
    rcases hd with ⟨-, rfl⟩ | ⟨t, rfl, hd⟩
    · exact ⟨hp, x, (next_of_none (hs'.scheduled.trans hs)).trans (hs'.running.trans hr), le_rfl⟩
    · refine ⟨hd.priority.trans hp, t, next_of_scheduled hd.scheduled, ?_⟩
      rw [← hp]
      exact findNewTask_priority hn hrun

theorem osiDispatchOrQueue_next (h : osiDispatchOrQueue k t = .ok k') (hq : Queues k.toSched r w)
    (hr : k.running = some x) (hx : k.status x = .active) (hs : k.scheduled = none)
    (htop : ∀ y, (k.status y).isRunning → k.priority y ≤ k.priority x) :
    k'.priority = k.priority ∧ ∃ n, k'.next = some n ∧ k.priority t ≤ k.priority n := by
  rcases osiDispatchOrQueue_cases h with ⟨hh, s, hset, hsched⟩ | ⟨-, hd⟩
  · obtain ⟨y, hy, hlt⟩ := (runqueueHasHigherPriority_spec hh hq).1 rfl
    have htx : k.priority t ≤ k.priority x := hlt.le.trans (htop y (hq.runnable y hy))
    rcases hsched with ⟨-, hk'⟩ | ⟨hne, -⟩
    · have hqueued : Queued False k.toSched := ⟨r, w, hq, False.elim⟩
      obtain ⟨r', w', hq', -⟩ := hqueued.makesRunnable hset
      have hs' := hset.rethreaded
      have hp : s.priority = k.priority := hs'.priority
      have hst : s.status x = .active := by
        unfold MakesRunnable at hset
        split_ifs at hset with hrun
        · rw [hset, hx]
        · have hxt : x ≠ t := by
            rintro rfl
            rw [hx] at hrun
            exact hrun rfl
          have hst : s.status = update k.status t .idle := (osiTaskStatusSet_rethreaded hset).status
          rw [hst, Function.update_of_ne hxt, hx]
      obtain ⟨hp', n, hn, hle⟩ := osiSchedule_next (k := { k with toSched := s }) hk' hq'
        (hs'.running.trans hr) hst (hs'.scheduled.trans hs)
      refine ⟨hp'.trans hp, n, hn, ?_⟩
      change s.priority x ≤ s.priority n at hle
      rw [hp] at hle
      exact htx.trans hle
    · exact absurd hs hne
  · rcases osiDispatch_eq_ok.1 hd with ⟨hrt, rfl⟩ | hd
    · exact ⟨rfl, t, (next_of_none hs).trans hrt, le_rfl⟩
    · exact ⟨hd.priority, t, next_of_scheduled hd.scheduled, le_rfl⟩

/-- Where the running task is of the top priority, the task that runs next after a release is not
below the tasks that got the lock exactly if the reader among them is not above the running task. -/
theorem rwlockRelease_preempts_iff {c : TaskId} (h : machine.Reach (fun _ _ => True) k)
    (hs : machine.step k (.svc (.rwlockRelease l)) k') (hr : k.running = some c)
    (hc : k.status c = .active)
    (htop : ∀ y, (k.status y).isRunning → k.priority y ≤ k.priority c) :
    (∃ n, k'.next = some n ∧ ∀ t, k.Grants l t → k'.priority t ≤ k'.priority n) ↔
      ∀ t, (Act.svc (.rwlockRelease l)).GrantsReader k.toObjects t →
        k.priority t ≤ k.priority c := by
  obtain ⟨⟨r, w, hq, -⟩, -⟩ := reach_queued (c := False) h fun hc => hc.elim
  have hsched : k.scheduled = none := hs.1
  obtain ⟨r₀, k₁, regs, hr₀, hrel, rfl, -⟩ := rwlockRelease_releases hs
  have hnone (hn : ∀ t, ¬ k.Grants l t) {k' : Kernel} (hk' : k'.toSched = k.toSched) :
      (∃ n, k'.next = some n ∧ ∀ t, k.Grants l t → k'.priority t ≤ k'.priority n) ↔
        ∀ t, (Act.svc (.rwlockRelease l)).GrantsReader k.toObjects t →
          k.priority t ≤ k.priority c := by
    refine iff_of_true ⟨c, ?_, fun t ht => absurd ht (hn t)⟩ fun t ht =>
      absurd (.of_reader ht) (hn t)
    rw [hk']
    exact (next_of_none hsched).trans hr
  cases hrel with
  | free hb => exact hnone (fun t => Objects.not_grants_of_free hb) rfl
  | skip hw hb hp hx => exact hnone (fun t => Objects.not_grants_of_skip hw hp hx) rfl
  | @write t _ hw hd =>
    obtain ⟨hp, n, hn, hle⟩ := osiDispatchOrQueue_next hd hq hr hc hsched htop
    refine iff_of_true ⟨n, hn, fun t' ht' => ?_⟩ fun t' ht' => ?_
    · obtain rfl := (Objects.grants_of_writer hw).1 ht'
      simp only [hp]
      exact hle
    · cases hw.symm.trans ht'.1
  | @read pre t s hw hf hset =>
    have hs' := osiTaskStatusSet_rethreaded hset
    have hp : s.priority = k.priority := hs'.priority
    have hnext : s.next = some c :=
      (next_of_none (hs'.scheduled.trans hsched)).trans (hs'.running.trans hr)
    constructor
    · rintro ⟨n, hn, hle⟩ t' ht'
      cases hnext.symm.trans hn
      have ht := hle t' (.of_reader ht')
      change s.priority t' ≤ s.priority c at ht
      rwa [hp] at ht
    · intro hread
      refine ⟨c, hnext, fun t' ht' => ?_⟩
      obtain rfl := (Objects.grants_of_reader hw hf).1 ht'
      change s.priority t' ≤ s.priority c
      rw [hp]
      exact hread t' ⟨hw, pre, hf⟩

theorem reach_top {c : TaskId} (h : machine.Reach ok k)
    (htop : ∀ y ∈ k.tasks, (k.status y).isRunning → k.priority y ≤ k.priority c) :
    ∀ y, (k.status y).isRunning → k.priority y ≤ k.priority c := by
  intro y hy
  refine htop y ((reach_ready (h.mono fun _ _ _ => trivial)).used y (.inr (.inr fun he => ?_))) hy
  rw [he] at hy
  cases hy

set_option maxRecDepth 10000 in
theorem rwlockRelease_preempts_writer : ∃ k k' : Kernel, k.running = some 2 ∧
    k.nextWriter 0 = some 1 ∧ k.priority 2 < k.priority 1 ∧
      ∃ n, k'.next = some n ∧ ∀ t, k.Grants 0 t → k'.priority t ≤ k'.priority n := by
  obtain ⟨k, k', hk, hs, ⟨hr, hc, hw, hlt, htop⟩, -⟩ :=
    (Boot.simple [0, 32, 16] (by simp)).exists_step (fun _ _ => True)
    (fun k => k.running = some 2 ∧ k.status 2 = .active ∧ k.nextWriter 0 = some 1 ∧
      k.priority 2 < k.priority 1 ∧
        ∀ y ∈ k.tasks, (k.status y).isRunning → k.priority y ≤ k.priority 2)
    (fun _ => True)
    [.schedule, .contextSwitch, .svc (.delay 5), .contextSwitch, .svc (.rwlockAcquireWrite 0 0),
      .clock 5 0, .systick, .contextSwitch, .svc (.rwlockAcquireWrite 0 uint32Max),
      .contextSwitch] (.svc (.rwlockRelease 0)) (by decide)
  refine ⟨k, k', hr, hw, hlt, (rwlockRelease_preempts_iff hk hs hr hc (reach_top hk htop)).2 ?_⟩
  intro t ht
  cases hw.symm.trans ht.1

set_option maxRecDepth 10000 in
/-- A reader above the writer that lets it in has to wait for the next run of the scheduler. -/
theorem not_preempts_reader : ∃ (k k' : Kernel) (c t : TaskId),
    machine.Reach (fun _ _ => True) k ∧ machine.step k (.svc (.rwlockRelease 0)) k' ∧
      k.running = some c ∧ k.status c = .active ∧
        (∀ y, (k.status y).isRunning → k.priority y ≤ k.priority c) ∧ k.Grants 0 t ∧
          ∀ n, k'.next = some n → k'.priority n < k'.priority t := by
  obtain ⟨k, k', hk, hs, ⟨hr, hc, hw, ⟨hb, hd⟩, htop⟩, hn, hlt⟩ :=
    (Boot.simple [0, 32, 16] (by simp)).exists_step (fun _ _ => True)
    (fun k => k.running = some 2 ∧ k.status 2 = .active ∧ k.nextWriter 0 = none ∧
      (k.blocked (.rwlock 0) = some 1 ∧ k.c 1 = desiredRead) ∧
        ∀ y ∈ k.tasks, (k.status y).isRunning → k.priority y ≤ k.priority 2)
    (fun k => k.next = some 2 ∧ k.priority 2 < k.priority 1)
    [.schedule, .contextSwitch, .svc (.delay 5), .contextSwitch, .svc (.rwlockAcquireWrite 0 0),
      .clock 5 0, .systick, .contextSwitch, .svc (.rwlockAcquireRead 0 uint32Max),
      .contextSwitch] (.svc (.rwlockRelease 0)) (by decide)
  refine ⟨k, k', 2, 1, hk, hs, hr, hc, reach_top hk htop, ?_, fun n hn' => ?_⟩
  · exact .inr ⟨hw, [], hb, by simp, hd⟩
  · cases hn.symm.trans hn'
    exact hlt

end Preempts

end Osh
