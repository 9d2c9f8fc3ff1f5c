import Osh.MutexRuns
import Osh.RwlockRuns

namespace Osh
open Function (update)
open Lib

variable {k k' : Kernel} {t : TaskId} {m : MutexId} {l : RwlockId} {a : Act}
  {L : Waitable → List TaskId}

/-- An acquire by the owner of a mutex and a read acquire that succeeds count without a wrap. -/
structure Act.Counts (k k' : Kernel) (a : Act) : Prop where
  level : ∀ m timeout r, a = .svc (.mutexAcquire m timeout) → k.running = some r →
    (k.mutex m).owner = some r →
      (k'.regs r).r0 = Status.success.code ∧ (k'.mutex m).level = (k.mutex m).level + 1 ∨
        (k'.regs r).r0 = Status.error.code ∧ k'.mutex m = k.mutex m
  readers : ∀ l timeout r, a = .svc (.rwlockAcquireRead l timeout) → k.running = some r →
    (k'.regs r).r0 = Status.success.code → (k'.rwlock l).readers = (k.rwlock l).readers + 1

/-- The counter that an acquire increases is not at the end of its 16 bits. -/
structure Act.InRange (k : Kernel) (a : Act) : Prop where
  level : ∀ m timeout, a = .svc (.mutexAcquire m timeout) → (k.mutex m).owner = k.running →
    (k.mutex m).level + 1 < 2 ^ 16
  readers : ∀ l timeout, a = .svc (.rwlockAcquireRead l timeout) → (k.rwlock l).writers = 0 →
    (k.rwlock l).readers + 1 < 2 ^ 16

theorem MutexStep.bound (h : MutexStep k m k' a) (hb : (k.mutex m).level < 2 ^ 16) :
    (k'.mutex m).level < 2 ^ 16 := by
  cases h with
  | other _ hm | full _ _ _ hm | refuse _ _ _ hm =>
    rw [hm]
    exact hb
  | acquire _ _ hm | free _ _ _ _ hm | grant _ _ _ _ hm =>
    simp [hm]
  | again _ _ _ hm =>
    rw [hm]
    exact Nat.mod_lt _ (Nat.two_pow_pos 16)
  | nested _ _ _ hm =>
    rw [hm]
    exact Nat.lt_of_le_of_lt (Nat.sub_le _ _) hb

theorem MutexStep.level_iff {timeout : Nat} {r : TaskId}
    (h : MutexStep k m k' (.svc (.mutexAcquire m timeout))) (hr : k.running = some r)
    (ho : (k.mutex m).owner = some r) (hfree : (k.mutex m).owner = none ↔ (k.mutex m).level = 0)
    (hb : (k.mutex m).level < 2 ^ 16) :
    ((k'.regs r).r0 = Status.success.code ∧ (k'.mutex m).level = (k.mutex m).level + 1 ∨
        (k'.regs r).r0 = Status.error.code ∧ k'.mutex m = k.mutex m) ↔
      (k.mutex m).level + 1 < 2 ^ 16 := by
  cases h with
  | other ht => exact absurd rfl ht
  | acquire _ hl => cases ho.symm.trans (hfree.2 hl)
  | full _ hl =>
    rw [hl] at hb
    exact absurd hb (by decide)
  | refuse hr' _ ho' => exact absurd (ho.trans (hr.symm.trans hr')) ho'
  | again hr' hl _ hm hs =>
    cases hr.symm.trans hr'
    rw [hm, hs]
    constructor
    · rintro (⟨-, hlevel⟩ | ⟨he, -⟩)
      · have hlt := Nat.mod_lt ((k.mutex m).level + 1) (Nat.two_pow_pos 16)
        exact hlevel ▸ hlt
      · cases he
    · intro hlt
      exact .inl ⟨rfl, Nat.mod_eq_of_lt hlt⟩

theorem RwlockStep.readers_iff {timeout : Nat} {r : TaskId}
    (h : RwlockStep k l k' (.svc (.rwlockAcquireRead l timeout))) (hr : k.running = some r) :
    ((k'.regs r).r0 = Status.success.code → (k'.rwlock l).readers = (k.rwlock l).readers + 1) ↔
      ((k.rwlock l).writers = 0 → (k.rwlock l).readers + 1 < 2 ^ 16) := by
  cases h with
  | other ht => exact absurd rfl ht
  | read hr' hw hl hs =>
    cases hr.symm.trans hr'
    rw [hl, hs]
    have hlt := Nat.mod_lt ((k.rwlock l).readers + 1) (Nat.two_pow_pos 16)
    constructor
    · intro h _
      exact h rfl ▸ hlt
    · intro h _
      exact Nat.mod_eq_of_lt (h hw)
  | refuseRead hr' hw hl hs =>
    cases hr.symm.trans hr'
    rw [hs]
    exact iff_of_true (fun h => by cases h) fun h => absurd h hw

theorem Act.counts_iff (hs : machine.step k a k') (hf : Flagged k.toObjects) (hn : NextFree k)
    (hi : BlockedInv k.toObjects L) (hlevel : ∀ m, (k.mutex m).level < 2 ^ 16)
    (hfree : ∀ m, (k.mutex m).owner = none ↔ (k.mutex m).level = 0) :
    a.Counts k k' ↔ a.InRange k := by
  have hcaller {call : Svc} (ha : a = .svc call) : ∃ r, k.running = some r := by
    subst ha
    have hr := hs.2
    simp only [Act.run, svcHandler, bind_eq_ok, Kernel.self_eq_ok] at hr
    obtain ⟨r, hr, -⟩ := hr
    exact ⟨r, hr⟩
  constructor
  · intro h
    constructor
    · intro m timeout ha ho
      obtain ⟨r, hr⟩ := hcaller ha
      have hm := Act.mutexStep hs hf hn hi m
      rw [ha] at hm
      rw [hr] at ho
      exact (hm.level_iff hr ho (hfree m) (hlevel m)).1 (h.level m timeout r ha hr ho)
    · intro l timeout ha
      obtain ⟨r, hr⟩ := hcaller ha
      have hl := rwlockAcquireRead_step (ha ▸ hs) hf hn
      exact (hl.readers_iff hr).1 (h.readers l timeout r ha hr)
  · intro h
    constructor
    · intro m timeout r ha hr ho
      have hm := Act.mutexStep hs hf hn hi m
      rw [ha] at hm
      exact (hm.level_iff hr ho (hfree m) (hlevel m)).2 (h.level m timeout ha (ho.trans hr.symm))
    · intro l timeout r ha hr
      have hl := rwlockAcquireRead_step (ha ▸ hs) hf hn
      exact (hl.readers_iff hr).2 (h.readers l timeout ha)

abbrev lockMachine : System (Kernel × MutexHistory × RwlockHistory) Act :=
  machine.withHistory (.start, .start) fun h k a k' => (h.1.record k a k', h.2.record k a k')

/-- A step restarts no blocked task, stays in the range of the counters, and releases a read-write
lock only for a task that holds it. -/
structure Act.CounterSafe (p : Kernel × MutexHistory × RwlockHistory) (a : Act) : Prop where
  restarts : a.RestartsFree p.1
  range : a.InRange p.1
  holds : ∀ l t, a = .svc (.rwlockRelease l) → p.1.running = some t →
    0 < (p.2.2.holds l t).reads ∨ 0 < (p.2.2.holds l t).writes

variable {h : MutexHistory × RwlockHistory}

theorem lockMachine_mutex (hr : lockMachine.Reach (fun p a => a.CounterSafe p) (k, h)) :
    mutexMachine.Reach (fun p a => a.MutexSafe p.1) (k, h.1) :=
  hr.map_history rfl (fun _ _ _ _ => rfl) fun _ _ _ _ ha => ⟨ha.restarts, ha.range.level⟩

theorem lockMachine_rwlock (hr : lockMachine.Reach (fun p a => a.CounterSafe p) (k, h)) :
    rwlockMachine.Reach (fun p a => a.RwlockSafe p) (k, h.2) := by
  refine hr.map_history rfl (fun _ _ _ _ => rfl) fun k h a hr ha => ?_
  refine ⟨ha.restarts, fun l timeout he => ?_, ha.holds⟩
  have hc := ((reach_rwlockInv hr).2 l).counted
  rw [RwlockHistory.outstanding, ← hc.readers]
  rcases hc.exclusive with hw | hz
  · exact ha.range.readers l timeout he hw
  · rw [hz]
    decide

theorem reach_level {ok : Kernel → Act → Prop} (hr : machine.Reach ok k)
    (hok : ∀ k a, ok k a → a.RestartsFree k) (m : MutexId) : (k.mutex m).level < 2 ^ 16 := by
  induction hr with
  | init h =>
    obtain ⟨b, hb⟩ := h
    rw [(b.start_unused hb).mutex]
    exact Nat.two_pow_pos 16
  | step hr ha hs ih =>
    obtain ⟨hf, hn⟩ := reach_flagged hr
    obtain ⟨L, hi⟩ := reach_blocked hr hok
    exact (Act.mutexStep hs hf hn hi m).bound ih

/-- The counters of the locks are exact, so that a mutex of level 0 has been released as often as
it was acquired, at most one task holds it, and no writer is let in beside a reader, for as long as
no acquire leaves the range of its counter, and no longer. -/
theorem counters_of_reach (hr : lockMachine.Reach (fun p a => a.CounterSafe p) (k, h)) :
    (∀ m, ((k.mutex m).level = 0 → ∀ t, h.1.acquires m t = h.1.releases m t) ∧
      ∀ t t', h.1.acquires m t ≠ h.1.releases m t → h.1.acquires m t' ≠ h.1.releases m t' →
        t = t') ∧
    (∀ l, 0 < h.2.outstanding k l → (k.rwlock l).writers = 0) ∧
    ∀ a k', machine.step k a k' → (a.Counts k k' ↔ a.InRange k) := by
  obtain ⟨-, hm⟩ := reach_mutexInv (lockMachine_mutex hr)
  obtain ⟨-, hl⟩ := reach_rwlockInv (lockMachine_rwlock hr)
  have hreach : machine.Reach (fun k a => a.RestartsFree k) k :=
    hr.forget.mono fun _ _ ⟨_, ha⟩ => ha.restarts
  obtain ⟨hf, hn⟩ := reach_flagged hreach
  obtain ⟨L, hi⟩ := reach_blocked hreach fun _ _ h => h
  refine ⟨fun m => ⟨fun hz t => ?_, fun t t' ht ht' => ?_⟩, fun l ho => ?_, fun a k' hs => ?_⟩
  · by_contra hne
    cases ((hm m).free.2 hz).symm.trans ((hm m).owner_of_ne hne)
  · exact Option.some.inj (((hm m).owner_of_ne ht).symm.trans ((hm m).owner_of_ne ht'))
  · have hc := (hl l).counted
    rw [RwlockHistory.outstanding, ← hc.readers] at ho
    exact hc.exclusive.resolve_right ho.ne'
  · exact Act.counts_iff hs hf hn hi (reach_level hreach fun _ _ h => h) fun m => (hm m).free

set_option maxRecDepth 10000 in
theorem counters_after_nested : ∃ (k : Kernel) (h : MutexHistory × RwlockHistory),
    (k.mutex 0).level = 2 ∧ h.1.acquires 0 1 ≠ h.1.releases 0 1 ∧
      ∀ k', machine.step k (.svc (.mutexAcquire 0 0)) k' →
        (Act.svc (.mutexAcquire 0 0)).Counts k k' := by
  obtain ⟨k, hk, hl, ho⟩ := (Boot.simple [0, 16] (by simp)).exists_after
    (fun k a => ¬ a.restarts ∧ (a.target = none ∨ a.target = some (.mutex 0)) ∧
      (k.mutex 0).level + 1 < 2 ^ 16)
    (fun k => (k.mutex 0).level = 2 ∧ (k.mutex 0).owner = some 1)
    [.schedule, .contextSwitch, .svc (.mutexAcquire 0 0), .svc (.mutexAcquire 0 0)] (by decide)
  have hhist : ∃ h, lockMachine.Reach (fun p a => a.CounterSafe p) (k, h) := by
    refine hk.exists_history fun k _ a _ ⟨hra, ht, hlt⟩ => ⟨.of_not_restarts hra, ⟨?_, ?_⟩, ?_⟩
    · rintro m timeout rfl -
      rcases ht with ht | ht <;> cases ht
      exact hlt
    · rintro l timeout rfl
      rcases ht with ht | ht <;> cases ht
    · rintro l t rfl
      rcases ht with ht | ht <;> cases ht
  obtain ⟨h, hh⟩ := hhist
  have hcount := counters_of_reach hh
  refine ⟨k, h, hl, fun he => ?_, fun k' hs => (hcount.2.2 _ _ hs).2 ⟨?_, nofun⟩⟩
  · have hlevel := ((reach_mutexInv (lockMachine_mutex hh)).2 0).acquired ho
    omega
  · rintro m timeout he -
    cases he
    omega

structure Owns (k : Kernel) (m : MutexId) (r : TaskId) (level : Nat) : Prop where
  scheduled : k.scheduled = none
  running : k.running = some r
  owner : (k.mutex m).owner = some r
  level : (k.mutex m).level = level
  pointer : k.taskMutex r = none

theorem Owns.again {r : TaskId} {level : Nat} (h : Owns k m r level) (hz : level ≠ 0)
    (hb : level < 2 ^ 16) : ∃ k', machine.step k (.svc (.mutexAcquire m 0)) k' ∧
      Owns k' m r ((level + 1) % 2 ^ 16) ∧ (k'.regs r).r0 = Status.success.code := by
  obtain ⟨hs, hr, ho, hl, hp⟩ := h
  have hmax : level ≠ uint32Max := by
    rintro rfl
    exact absurd hb (by decide)
  let k' : Kernel := { k with
    mutex := update k.mutex m { k.mutex m with level := ((k.mutex m).level + 1) % 2 ^ 16 }
    regs := update k.regs r ⟨Status.success.code, (k.regs r).r1⟩ }
  have hrun : (Act.svc (.mutexAcquire m 0)).run k = .ok k' := by
    simp [Act.run, svcHandler, Svc.call, osiMutexAcquire, Kernel.self_eq_ok.2 hr, ok_bind,
      osAssert, hp, ho, hl, hz, hmax, k']
  refine ⟨k', ⟨hs, hrun⟩, ⟨hs, hr, ?_, ?_, hp⟩, ?_⟩
  · simp [k', ho]
  · simp [k', hl]
  · simp [k']

set_option maxRecDepth 10000 in
theorem exists_owns {n : Nat} (hn : n + 1 < 2 ^ 16) :
    ∃ k, machine.Reach (fun _ a => ¬ a.restarts ∧ ¬ a.suspends) k ∧ Owns k 0 1 (n + 1) := by
  induction n with
  | zero =>
    obtain ⟨k, hk, hs, hr, ho, hl, hp⟩ := (Boot.simple [0, 16] (by simp)).exists_after
      (fun _ a => ¬ a.restarts ∧ ¬ a.suspends)
      (fun k => k.scheduled = none ∧ k.running = some 1 ∧ (k.mutex 0).owner = some 1 ∧
        (k.mutex 0).level = 1 ∧ k.taskMutex 1 = none)
      [.schedule, .contextSwitch, .svc (.mutexAcquire 0 0)] (by decide)
    exact ⟨k, hk, hs, hr, ho, hl, hp⟩
  | succ n ih =>
    obtain ⟨k, hk, h⟩ := ih (Nat.lt_of_succ_lt hn)
    obtain ⟨k', hstep, h', -⟩ := h.again (Nat.succ_ne_zero n) (Nat.lt_of_succ_lt hn)
    rw [Nat.mod_eq_of_lt hn] at h'
    exact ⟨k', .step hk ⟨by simp [Act.restarts], by simp [Act.suspends]⟩ hstep, h'⟩

/-- The 65536th nested acquire of a mutex is reported as successful and leaves it at level 0. -/
theorem not_counts_after_wrap : ∃ k k' : Kernel,
    machine.Reach (fun _ a => ¬ a.restarts ∧ ¬ a.suspends) k ∧
    machine.step k (.svc (.mutexAcquire 0 0)) k' ∧ k.running = some 1 ∧
    (k.mutex 0).owner = some 1 ∧ (k'.regs 1).r0 = Status.success.code ∧
    (k'.mutex 0).level = 0 ∧ ¬ (Act.svc (.mutexAcquire 0 0)).Counts k k' := by
  obtain ⟨k, hk, h⟩ := exists_owns (n := 2 ^ 16 - 2) (by decide)
  obtain ⟨k', hs, h', hr0⟩ := h.again (by decide) (by decide)
  have hz : (k'.mutex 0).level = 0 := h'.level
  refine ⟨k, k', hk, hs, h.running, h.owner, hr0, hz, fun hc => ?_⟩
  rcases hc.level 0 0 1 rfl h.running h.owner with ⟨-, hl⟩ | ⟨he, -⟩
  · rw [hz] at hl
    exact absurd hl (Nat.succ_ne_zero _).symm
  · cases hr0.symm.trans he

end Osh
