import Osh.CreatedTasks
import Osh.FixedRun
import Osh.Lib.Count
import Osh.WaitHistory

namespace Osh
open Function (update)
open Lib

variable {k k' k₁ : Kernel} {t r : TaskId} {l : RwlockId} {a : Act} {L : Waitable → List TaskId}
  {timeout : Nat}

inductive RwlockStep (k : Kernel) (l : RwlockId) (k' : Kernel) : Act → Prop
  | other {a : Act} (ha : a.target ≠ some (.rwlock l)) (hl : k'.rwlock l = k.rwlock l) :
    RwlockStep k l k' a
  | read {r : TaskId} {timeout : Nat} (hr : k.running = some r) (hw : (k.rwlock l).writers = 0)
    (hl : k'.rwlock l = (k.rwlock l).addReader) (hs : (k'.regs r).r0 = Status.success.code)
    (hx : ∀ x ≠ r, k'.regs x = k.regs x) (hz : k'.flags r = 0) :
    RwlockStep k l k' (.svc (.rwlockAcquireRead l timeout))
  | write {r : TaskId} {timeout : Nat} (hr : k.running = some r)
    (hf : (k.rwlock l).readers = 0 ∧ (k.rwlock l).writers = 0)
    (hl : k'.rwlock l = (k.rwlock l).addWriter r) (hs : (k'.regs r).r0 = Status.success.code)
    (hx : ∀ x ≠ r, k'.regs x = k.regs x) (hz : k'.flags r = 0) :
    RwlockStep k l k' (.svc (.rwlockAcquireWrite l timeout))
  | refuseRead {r : TaskId} {timeout : Nat} (hr : k.running = some r)
    (hw : (k.rwlock l).writers ≠ 0) (hl : k'.rwlock l = k.rwlock l)
    (hs : (k'.regs r).r0 = Status.errorTo.code) (hx : ∀ x ≠ r, k'.regs x = k.regs x)
    (hc : k'.flags r ≠ 0 → k'.c r = desiredRead) :
    RwlockStep k l k' (.svc (.rwlockAcquireRead l timeout))
  | refuseWrite {r : TaskId} {timeout : Nat} (hr : k.running = some r)
    (hf : ¬ ((k.rwlock l).readers = 0 ∧ (k.rwlock l).writers = 0))
    (hl : k'.rwlock l = k.rwlock l) (hs : (k'.regs r).r0 = Status.errorTo.code)
    (hx : ∀ x ≠ r, k'.regs x = k.regs x) (hc : k'.flags r ≠ 0 → k'.c r = desiredWrite) :
    RwlockStep k l k' (.svc (.rwlockAcquireWrite l timeout))
  | drop {r : TaskId} (hr : k.running = some r)
    (hh : (k.rwlock l).readers > 0 ∨ (k.rwlock l).writers = 1)
    (hw : (k.rwlock l).writers > 0 → (k.rwlock l).writer = some r)
    (hn : k.nextWriter l = none) (hp : ∀ x, k.OnList (.rwlock l) x → k.c x ≠ desiredRead)
    (hl : k'.rwlock l = (k.rwlock l).drop) (hs : (k'.regs r).r0 = Status.success.code)
    (hx : ∀ x ≠ r, k'.regs x = k.regs x) (hz : k'.flags r = 0) :
    RwlockStep k l k' (.svc (.rwlockRelease l))
  | grantWrite {r t : TaskId} (hr : k.running = some r)
    (hh : (k.rwlock l).readers > 0 ∨ (k.rwlock l).writers = 1)
    (hw : (k.rwlock l).writers > 0 → (k.rwlock l).writer = some r)
    (hn : k.nextWriter l = some t) (hl : k'.rwlock l = (k.rwlock l).drop.addWriter t)
    (hb' : ¬ k'.OnList (.rwlock l) t) (hs : (k'.regs r).r0 = Status.success.code)
    (hst : (k'.regs t).r0 = Status.success.code) (hx : ∀ x ≠ r, x ≠ t → k'.regs x = k.regs x)
    (hz : k'.flags r = 0) : RwlockStep k l k' (.svc (.rwlockRelease l))
  | grantRead {r t : TaskId} {pre : List TaskId} (hr : k.running = some r)
    (hh : (k.rwlock l).readers > 0 ∨ (k.rwlock l).writers = 1)
    (hw : (k.rwlock l).writers > 0 → (k.rwlock l).writer = some r)
    (hn : k.nextWriter l = none) (hf : FirstReader k.toObjects (k.blocked (.rwlock l)) pre t)
    (hl : k'.rwlock l = (k.rwlock l).drop.addReader)
    (hb' : ¬ k'.OnList (.rwlock l) t) (hs : (k'.regs r).r0 = Status.success.code)
    (hst : (k'.regs t).r0 = Status.success.code) (hx : ∀ x ≠ r, x ≠ t → k'.regs x = k.regs x)
    (hz : k'.flags r = 0) : RwlockStep k l k' (.svc (.rwlockRelease l))

theorem rwlockAcquireRead_step (hs : machine.step k (.svc (.rwlockAcquireRead l timeout)) k')
    (hf : Flagged k.toObjects) (hn : NextFree k) :
    RwlockStep k l k' (.svc (.rwlockAcquireRead l timeout)) := by
  obtain ⟨he, h⟩ := hs
  simp only [Act.run, svcHandler, Svc.call, bind_eq_ok, pure_eq_ok, Prod.exists,
    Prod.mk.injEq] at h
  obtain ⟨r, hr, k₁, _, _, ⟨_, status, h, rfl, rfl, rfl⟩, rfl⟩ := h
  replace hr := Kernel.self_eq_ok.1 hr
  obtain ⟨task, hrun, hc⟩ := osiRwlockAcquireRead_cases h
  obtain rfl : task = r := Option.some.inj (hrun.symm.trans hr)
  have hz : k.flags task = 0 := hn _ ((next_of_none he).trans hr)
  cases hc with
  | free hw =>
    exact .read hr hw (by simp [Objects.setRwlock]) (by simp)
      (fun x hx => Function.update_of_ne hx _ _) hz
  | busy hw =>
    exact .refuseRead hr hw rfl (by simp) (fun x hx => Function.update_of_ne hx _ _)
      fun h => absurd hz h
  | blocks hw hb =>
    obtain ⟨hfr, hregs, hne⟩ := block_framed (k := { k with c := update k.c task desiredRead })
      hr he hb (hf.of_same ⟨rfl, rfl, rfl, rfl, rfl, rfl, rfl⟩) hz
    refine .refuseRead hr hw (hfr.rwlock l (by simp)) (by simp) (fun x hx => ?_) fun _ =>
      (hfr.c task hne).trans (Function.update_self ..)
    exact (Function.update_of_ne hx _ _).trans (congrFun hregs x)

theorem rwlockAcquireWrite_step (hs : machine.step k (.svc (.rwlockAcquireWrite l timeout)) k')
    (hf : Flagged k.toObjects) (hn : NextFree k) :
    RwlockStep k l k' (.svc (.rwlockAcquireWrite l timeout)) := by
  obtain ⟨he, h⟩ := hs
  simp only [Act.run, svcHandler, Svc.call, bind_eq_ok, pure_eq_ok, Prod.exists,
    Prod.mk.injEq] at h
  obtain ⟨r, hr, k₁, _, _, ⟨_, status, h, rfl, rfl, rfl⟩, rfl⟩ := h
  replace hr := Kernel.self_eq_ok.1 hr
  obtain ⟨task, hrun, hc⟩ := osiRwlockAcquireWrite_cases h
  obtain rfl : task = r := Option.some.inj (hrun.symm.trans hr)
  have hz : k.flags task = 0 := hn _ ((next_of_none he).trans hr)
  cases hc with
  | free hw =>
    exact .write hr hw (by simp [Objects.setRwlock]) (by simp)
      (fun x hx => Function.update_of_ne hx _ _) hz
  | busy hw =>
    exact .refuseWrite hr hw rfl (by simp) (fun x hx => Function.update_of_ne hx _ _)
      fun h => absurd hz h
  | blocks hw hb =>
    obtain ⟨hfr, hregs, hne⟩ := block_framed (k := { k with c := update k.c task desiredWrite })
      hr he hb (hf.of_same ⟨rfl, rfl, rfl, rfl, rfl, rfl, rfl⟩) hz
    refine .refuseWrite hr hw (hfr.rwlock l (by simp)) (by simp) (fun x hx => ?_) fun _ =>
      (hfr.c task hne).trans (Function.update_self ..)
    exact (Function.update_of_ne hx _ _).trans (congrFun hregs x)

theorem rwlockRelease_step (hs : machine.step k (.svc (.rwlockRelease l)) k')
    (hf : Flagged k.toObjects) (hn : NextFree k) (hi : BlockedInv k.toObjects L) :
    RwlockStep k l k' (.svc (.rwlockRelease l)) := by
  obtain ⟨he, h⟩ := hs
  simp only [Act.run, svcHandler, Svc.call, bind_eq_ok, pure_eq_ok, Prod.exists,
    Prod.mk.injEq] at h
  obtain ⟨r, hr, k₁, _, _, ⟨_, status, h, rfl, rfl, rfl⟩, rfl⟩ := h
  replace hr := Kernel.self_eq_ok.1 hr
  obtain ⟨rfl, task, hrun, hh, hw, hc⟩ := osiRwlockRelease_cases h
  obtain rfl : task = r := Option.some.inj (hrun.symm.trans hr)
  have hz : k.flags task = 0 := hn _ ((next_of_none he).trans hr)
  have hnext {t : TaskId} (ht : k.OnList (.rwlock l) t) : t ≠ task := fun he' =>
    hi.next_ne hn (hi.mem_iff.2 ht) (he' ▸ (next_of_none he).trans hr)
  cases hc with
  | free hb =>
    refine .drop hr hh hw ?_ (fun x hx => absurd hx (Objects.not_onList hb))
      (by simp [Objects.dropRwlock, Objects.setRwlock]) (by simp)
      (fun x hx => Function.update_of_ne hx _ _) hz
    simp [Objects.nextWriter, hb]
  | skip hnw hb hp hx =>
    refine .drop hr hh hw hnw (fun x hx' => ?_) (by simp [Objects.dropRwlock, Objects.setRwlock])
      (by simp) (fun x hx => Function.update_of_ne hx _ _) hz
    have hm := hi.mem_iff.2 hx'
    rw [(hi.lists.chain (.rwlock l)).unique hp] at hm
    exact hx x hm
  | @write t _ hnw hd =>
    have hb := (Objects.nextWriter_eq_some.1 hnw).1
    have hne := hnext (Objects.onList_of_blocked hb)
    have hq : Quiet (some (.rwlock l)) (fun x => x = t) (k.unlink (.rwlock l) none t)
      ((k.dropRwlock l).grantWrite l t) := (Quiet.setRwlock _).unlink.trans (.grantWrite rfl)
    obtain ⟨-, hb', hregs, hflags, hframe⟩ :=
      (osiDispatchOrQueue_switched hd).handed_head hb hq hf hn hi
    refine .grantWrite hr hh hw hnw ?_ hb' (by simp) ?_ (fun x hx hxt => ?_) (hflags _ hz)
    · apply (hframe.rwlock l (by simp)).trans
      simp [Objects.grantWrite, Objects.setRwlock, Objects.setStackedReturn, Objects.dropRwlock]
    · simp only [Function.update_of_ne hne]
      rw [hregs]
      simp [Objects.grantWrite, Objects.setStackedReturn]
    · simp only [Function.update_of_ne hx]
      rw [hregs]
      exact hq.regs x hxt
  | @read pre t s hnw hfr hset =>
    have hne := hnext ⟨pre, hfr.path⟩
    obtain ⟨post, hL⟩ := (hi.lists.chain (.rwlock l)).eq_append hfr.path
    have hq : Quiet (some (.rwlock l)) (fun x => x = t) (k.unlink (.rwlock l) pre.getLast? t)
      ((k.dropRwlock l).grantRead l pre.getLast? t) :=
      (Quiet.setRwlock _).unlink.trans (.grantRead rfl)
    have hset' := osiTaskStatusSet_rethreaded hset
    have hsw : Switched { k with toObjects := (k.dropRwlock l).grantRead l pre.getLast? t }
        { toSched := s, toObjects := (k.dropRwlock l).grantRead l pre.getLast? t } :=
      .same rfl hset'.running hset'.scheduled
    obtain ⟨hb', -, hflags, -⟩ := hsw.handed hq hL hf hn hi
    refine .grantRead hr hh hw hnw hfr ?_ hb' (by simp) ?_ (fun x hx hxt => ?_) (hflags _ hz)
    · simp [Objects.grantRead, Objects.setRwlock, Objects.setStackedReturn, Objects.dropRwlock]
    · simp only [Function.update_of_ne hne]
      simp [Objects.grantRead, Objects.setStackedReturn]
    · simp only [Function.update_of_ne hx]
      exact hq.regs x hxt

theorem Act.rwlockStep (hs : machine.step k a k') (hf : Flagged k.toObjects) (hn : NextFree k)
    (hi : BlockedInv k.toObjects L) (l : RwlockId) : RwlockStep k l k' a := by
  by_cases ha : a.target = some (.rwlock l)
  · cases a <;> simp only [Act.target, reduceCtorEq, Option.some.injEq] at ha
    case svc call =>
      cases call <;> simp only [Svc.target, reduceCtorEq, Option.some.injEq,
        Waitable.rwlock.injEq] at ha
      case rwlockAcquireRead l' timeout =>
        subst ha
        exact rwlockAcquireRead_step hs hf hn
      case rwlockAcquireWrite l' timeout =>
        subst ha
        exact rwlockAcquireWrite_step hs hf hn
      case rwlockRelease l' =>
        subst ha
        exact rwlockRelease_step hs hf hn hi
  · exact .other ha (((Act.run_waits hs.1 hs.2).framed hf hn).1.rwlock l ha)

def Act.Hands (k : Kernel) (t : TaskId) (a : Act) : Prop :=
  a.grantee k.toObjects = some t ∨ a.GrantsReader k.toObjects t

theorem RwlockStep.handed (hl : RwlockStep k l k' a) (ha : a.target = some (.rwlock l))
    (ht : a.Hands k t) : (k'.regs t).r0 = Status.success.code ∧ ¬ k'.OnList (.rwlock l) t := by
  cases hl with
  | other ha' => exact absurd ha ha'
  | read | write | refuseRead | refuseWrite =>
    rcases ht with ht | ht
    · cases ht
    · exact ht.elim
  | drop hr hh hw hn hp =>
    rcases ht with ht | ⟨-, pre, hf⟩
    · cases hn.symm.trans ht
    · exact absurd hf.reads (hp t ⟨pre, hf.path⟩)
  | grantWrite hr hh hw hn hl hb' hs hst =>
    rcases ht with ht | ⟨hn', -⟩
    · cases hn.symm.trans ht
      exact ⟨hst, hb'⟩
    · cases hn.symm.trans hn'
  | grantRead hr hh hw hn hf hl hb' hs hst =>
    rcases ht with ht | ⟨-, pre, hf'⟩
    · cases hn.symm.trans ht
    · cases hf.unique hf'
      exact ⟨hst, hb'⟩

def Wants (l : RwlockId) (call : Option Svc) (c : Nat) : Prop :=
  (∃ timeout, call = some (.rwlockAcquireRead l timeout)) ∧ c = desiredRead ∨
    (∃ timeout, call = some (.rwlockAcquireWrite l timeout)) ∧ c = desiredWrite

theorem RwlockStep.refused (hl : RwlockStep k l k' a) (ha : a.target = some (.rwlock l))
    (hs : a.Sleeps k k' t) :
    (k'.regs t).r0 = Status.errorTo.code ∧ Wants l a.call? (k'.c t) := by
  obtain ⟨-, hr, hz⟩ := hs
  cases hl with
  | other ha' => exact absurd ha ha'
  | refuseRead hr' _ _ hs' _ hc =>
    cases hr.symm.trans hr'
    exact ⟨hs', .inl ⟨⟨_, rfl⟩, hc hz⟩⟩
  | refuseWrite hr' _ _ hs' _ hc =>
    cases hr.symm.trans hr'
    exact ⟨hs', .inr ⟨⟨_, rfl⟩, hc hz⟩⟩
  | read hr' _ _ _ _ hz' | write hr' _ _ _ _ hz' | drop hr' _ _ _ _ _ _ _ hz'
  | grantWrite hr' _ _ _ _ _ _ _ _ hz' | grantRead hr' _ _ _ _ _ _ _ _ _ hz' =>
    cases hr.symm.trans hr'
    exact absurd hz' hz

/-- How often a task holds a lock for reading and for writing. -/
structure Holds where
  reads : Nat
  writes : Nat

/-- What a task holds of `l` when a call of it is reported as successful. -/
def Holds.after (l : RwlockId) (held : Holds) : Option Svc → Holds
  | some (.rwlockAcquireRead l' _) =>
    if l' = l then { held with reads := held.reads + 1 } else held
  | some (.rwlockAcquireWrite l' _) =>
    if l' = l then { held with writes := held.writes + 1 } else held
  | some (.rwlockRelease l') =>
    if l' ≠ l then held
    else if held.writes = 0 then { held with reads := held.reads - 1 }
    else { held with writes := held.writes - 1 }
  | _ => held

/-- What the tasks hold of the locks by the reports they got, and whether a task was handed the
lock that it waits for. -/
structure RwlockHistory extends WaitHistory where
  holds : RwlockId → TaskId → Holds
  granted : TaskId → Prop

def RwlockHistory.start : RwlockHistory where
  toWaitHistory := .start
  holds _ _ := ⟨0, 0⟩
  granted _ := False

def RwlockHistory.record (h : RwlockHistory) (k : Kernel) (a : Act) (k' : Kernel) :
    RwlockHistory where
  toWaitHistory := h.toWaitHistory.record k a k'
  holds l t := (h.holds l t).after l (a.succeeds k k' h.toWaitHistory t)
  granted t := ¬ a.Sleeps k k' t ∧ (a.Hands k t ∨ h.granted t)

/-- The read holds of `l` that are not released yet. -/
def RwlockHistory.outstanding (h : RwlockHistory) (k : Kernel) (l : RwlockId) : Nat :=
  (k.tasks.map fun t => (h.holds l t).reads).sum

/-- A step restarts no task on a blocked list, keeps the read holds of a lock countable in 16 bits,
and releases a lock only for a task that holds it. -/
def Act.RwlockSafe (p : Kernel × RwlockHistory) (a : Act) : Prop :=
  a.RestartsFree p.1 ∧
  (∀ l timeout, a = .svc (.rwlockAcquireRead l timeout) → p.2.outstanding p.1 l + 1 < 2 ^ 16) ∧
  ∀ l t, a = .svc (.rwlockRelease l) → p.1.running = some t →
    0 < (p.2.holds l t).reads ∨ 0 < (p.2.holds l t).writes

variable {h : RwlockHistory}

theorem Holds.after_of_target {held : Holds} {call : Option Svc}
    (hc : call.bind Svc.target ≠ some (.rwlock l)) : held.after l call = held := by
  unfold Holds.after
  split
  case h_1 l' _ | h_2 l' _ =>
    refine if_neg fun he => hc ?_
    rw [← he]
    rfl
  case h_3 l' =>
    refine if_pos fun he => hc ?_
    rw [← he]
    rfl
  case h_4 => rfl

structure Counted (tasks : List TaskId) (lock : Rwlock) (held : TaskId → Holds) : Prop where
  writers : lock.writers = if lock.writer = none then 0 else 1
  exclusive : lock.writers = 0 ∨ lock.readers = 0
  bound : lock.readers < 2 ^ 16
  readers : lock.readers = (tasks.map fun t => (held t).reads).sum
  writes : ∀ t, (held t).writes = if lock.writer = some t then 1 else 0

namespace Counted
variable {tasks : List TaskId} {lock : Rwlock} {held held' : TaskId → Holds}
  (hc : Counted tasks lock held)
include hc

theorem writer_none (hz : lock.writers = 0) : lock.writer = none := by
  by_contra hne
  have hw := hc.writers
  rw [if_neg hne] at hw
  omega

theorem addReader (hz : lock.writers = 0) (hb : lock.readers + 1 < 2 ^ 16) (hn : tasks.Nodup)
    (hr : r ∈ tasks) (hheld : held' r = { held r with reads := (held r).reads + 1 })
    (hoff : ∀ x ≠ r, held' x = held x) : Counted tasks lock.addReader held' := by
  have hsum := sum_map_of_eq_off (f := fun t => (held t).reads) (g := fun t => (held' t).reads)
    hn hr fun x hx => congrArg Holds.reads (hoff x hx)
  have hreaders : lock.addReader.readers = lock.readers + 1 := Nat.mod_eq_of_lt hb
  constructor
  · exact hc.writers
  · exact .inl hz
  · exact by omega
  · have hrd := hc.readers
    simp only [hheld] at hsum
    omega
  · intro t
    have hwt := hc.writes t
    by_cases ht : t = r
    · rw [ht] at hwt ⊢
      rw [hheld]
      exact hwt
    · rw [hoff t ht]
      exact hwt

theorem addWriter (hz : lock.writers = 0) (hrd : lock.readers = 0) (hn : tasks.Nodup)
    (hr : r ∈ tasks) (hheld : held' r = { held r with writes := (held r).writes + 1 })
    (hoff : ∀ x ≠ r, held' x = held x) : Counted tasks (lock.addWriter r) held' := by
  have hsum := sum_map_of_eq_off (f := fun t => (held t).reads) (g := fun t => (held' t).reads)
    hn hr fun x hx => congrArg Holds.reads (hoff x hx)
  have hnone := hc.writer_none hz
  constructor
  · exact by simp [Rwlock.addWriter, hz]
  · exact .inr hrd
  · exact hc.bound
  · have hreaders := hc.readers
    simp only [hheld] at hsum
    simp only [Rwlock.addWriter]
    omega
  · intro t
    have hwt := hc.writes t
    rw [hnone, if_neg (by simp)] at hwt
    by_cases ht : t = r
    · subst ht
      simp [hheld, hwt, Rwlock.addWriter]
    · simp [hoff t ht, hwt, Rwlock.addWriter, Ne.symm ht]

theorem drop (hw : lock.writers > 0 → lock.writer = some r)
    (hpos : 0 < (held r).reads ∨ 0 < (held r).writes) (hn : tasks.Nodup) (hr : r ∈ tasks)
    (hheld : held' r = (held r).after l (some (.rwlockRelease l)))
    (hoff : ∀ x ≠ r, held' x = held x) :
    Counted tasks lock.drop held' ∧ lock.drop.writers = 0 ∧ lock.drop.readers + 1 < 2 ^ 16 := by
  have hsum := sum_map_of_eq_off (f := fun t => (held t).reads) (g := fun t => (held' t).reads)
    hn hr fun x hx => congrArg Holds.reads (hoff x hx)
  have hbound := hc.bound
  have hrd := hc.readers
  by_cases hz : lock.writers = 0
  · have hnone := hc.writer_none hz
    have hwr (x : TaskId) : (held x).writes = 0 := by simp [hc.writes x, hnone]
    have hr' : held' r = { held r with reads := (held r).reads - 1 } := by
      simp [hheld, Holds.after, hwr r]
    have hposr : 0 < (held r).reads := by
      have hwr := hwr r
      omega
    simp only [hr'] at hsum
    refine ⟨⟨by simp [Rwlock.drop, hz, hnone], .inl (by simp [Rwlock.drop, hz]), ?_, ?_,
      fun t => ?_⟩, by simp [Rwlock.drop, hz], ?_⟩
    · simp only [Rwlock.drop]
      omega
    · simp only [Rwlock.drop]
      omega
    · by_cases ht : t = r
      · rw [ht, hr']
        simp [Rwlock.drop, hz, hnone, hwr r]
      · rw [hoff t ht]
        simp [Rwlock.drop, hz, hnone, hwr t]
    · simp only [Rwlock.drop]
      omega
  · have ho := hw (by omega)
    have hone : lock.writers = 1 := by simpa [ho] using hc.writers
    have hzero : lock.readers = 0 := hc.exclusive.resolve_left hz
    have hwr : (held r).writes = 1 := by simp [hc.writes r, ho]
    have hr' : held' r = { held r with writes := 0 } := by simp [hheld, Holds.after, hwr]
    simp only [hr'] at hsum
    refine ⟨⟨by simp [Rwlock.drop, hone], .inl (by simp [Rwlock.drop, hone]), ?_, ?_, fun t => ?_⟩,
      by simp [Rwlock.drop, hone], ?_⟩
    · simp only [Rwlock.drop]
      omega
    · simp only [Rwlock.drop]
      omega
    · by_cases ht : t = r
      · rw [ht, hr']
        simp [Rwlock.drop, hone]
      · rw [hoff t ht, hc.writes t, ho]
        simp [Rwlock.drop, hone, Ne.symm ht]
    · simp only [Rwlock.drop]
      omega

end Counted

theorem RwlockHistory.holds_same (hr : k.running = some r) (ht : t ≠ r)
    (hx : k'.regs t = k.regs t) : (h.record k a k').holds l t = h.holds l t := by
  have hcall : ¬ (a.isCall ∧ k.running = some t) := fun hc =>
    ht (Option.some.inj (hc.2.symm.trans hr))
  change (h.holds l t).after l _ = _
  rw [Act.succeeds_same hcall hx]
  rfl

theorem RwlockHistory.holds_caller {call : Svc} (hr : k.running = some r)
    (hs : (k'.regs r).r0 = Status.success.code) :
    (h.record k (.svc call) k').holds l r = (h.holds l r).after l (some call) := by
  change (h.holds l r).after l _ = _
  rw [Act.succeeds_caller hr, if_pos hs]

theorem RwlockHistory.holds_refused {call : Svc} (hr : k.running = some r)
    (hs : (k'.regs r).r0 = Status.errorTo.code) (hx : ∀ x ≠ r, k'.regs x = k.regs x) :
    (h.record k (.svc call) k').holds l = h.holds l := by
  funext t
  by_cases ht : t = r
  · subst ht
    change (h.holds l t).after l _ = _
    rw [Act.succeeds_caller hr, if_neg (by rw [hs]; decide)]
    rfl
  · exact RwlockHistory.holds_same hr ht (hx t ht)

theorem RwlockHistory.holds_other (hw : Waits k h.toWaitHistory L) (hs : machine.step k a k')
    (hf : Flagged k.toObjects) (hn : NextFree k) (ha : a.target ≠ some (.rwlock l)) :
    (h.record k a k').holds l t = h.holds l t := by
  apply Holds.after_of_target
  intro hc
  obtain ⟨call, hsucc, hc⟩ := Option.bind_eq_some_iff.1 hc
  exact ha ((hw.target_of_succeeds hs hf hn hsucc (by simp [hc])).trans hc)

/-- The lock, the holds of the tasks and the results in the frames of the tasks that blocked on it
agree. -/
structure RwlockInv (k : Kernel) (h : RwlockHistory) (l : RwlockId) : Prop where
  counted : Counted k.tasks (k.rwlock l) (h.holds l)
  wants : ∀ t, k.OnList (.rwlock l) t → Wants l (h.asleep t) (k.c t)
  waits : ∀ t, k.OnList (.rwlock l) t → 0 < (k.rwlock l).readers ∨ 0 < (k.rwlock l).writers
  result : ∀ t, h.pending t = some (.rwlock l) →
    h.granted t ∧ (k.regs t).r0 = Status.success.code ∧ ¬ k.OnList (.rwlock l) t ∨
      ¬ h.granted t ∧ (k.regs t).r0 = Status.errorTo.code

namespace RwlockInv
variable (hi : RwlockInv k h l)
include hi

theorem not_granted (hw : Waits k h.toWaitHistory L) (hl : k.OnList (.rwlock l) t) :
    ¬ h.granted t ∧ (k.regs t).r0 = Status.errorTo.code := by
  rcases hi.result t (hw.pending_of_onList hl) with ⟨-, -, hn⟩ | hres
  · exact absurd hl hn
  · exact hres

/-- When a release hands the lock to `t`, the caller gives up one hold and `t` holds what it waits
for. -/
theorem holds_handed (hw : Waits k h.toWaitHistory L)
    (hs : machine.step k (.svc (.rwlockRelease l)) k') (hr : k.running = some r)
    (hl : k.OnList (.rwlock l) t) (hs' : (k'.regs r).r0 = Status.success.code)
    (hst : (k'.regs t).r0 = Status.success.code)
    (hx : ∀ x ≠ r, x ≠ t → k'.regs x = k.regs x) :
    let held := update (h.holds l) r ((h.holds l r).after l (some (.rwlockRelease l)))
    let held' := (h.record k (.svc (.rwlockRelease l)) k').holds l
    held' t = (held t).after l (h.asleep t) ∧ ∀ x ≠ t, held' x = held x := by
  have hcall : ¬ ((Act.svc (.rwlockRelease l)).isCall ∧ k.running = some t) := fun hc =>
    hw.not_calls hs.1 hc.1 (by simp [hw.pending_of_onList hl]) hc.2
  have htr : t ≠ r := by
    rintro rfl
    exact hcall ⟨rfl, hr⟩
  have hr0 : (k.regs t).r0 ≠ Status.success.code := by
    rw [(hi.not_granted hw hl).2]
    decide
  constructor
  · rw [Function.update_of_ne htr]
    change (h.holds l t).after l _ = _
    rw [Act.succeeds_asleep hcall id hr0 hst]
  · intro x hxt
    by_cases hxr : x = r
    · subst hxr
      rw [Function.update_self]
      exact RwlockHistory.holds_caller hr hs'
    · rw [Function.update_of_ne hxr]
      exact RwlockHistory.holds_same hr hxr (hx x hxr hxt)

theorem counted_step (hl : RwlockStep k l k' a) (hs : machine.step k a k')
    (hf : Flagged k.toObjects) (hn : NextFree k) (hw : Waits k h.toWaitHistory L) (hc : Created k)
    (ha : a.RwlockSafe (k, h)) : Counted k'.tasks (k'.rwlock l) ((h.record k a k').holds l) := by
  have hcount := hi.counted
  have hmem {x : TaskId} (hx : k.running = some x) : x ∈ k.tasks := hc.used x (.inl hx)
  rw [(Act.run_effect hs.2).tasks]
  cases hl with
  | other ha hl =>
    have he : (h.record k a k').holds l = h.holds l := funext fun t =>
      RwlockHistory.holds_other hw hs hf hn ha
    rw [hl, he]
    exact hcount
  | @read r _ hr hz hl hs' hx =>
    rw [hl]
    refine hcount.addReader hz ?_ hc.nodup (hmem hr) ?_ fun x hxr =>
      RwlockHistory.holds_same hr hxr (hx x hxr)
    · rw [hcount.readers]
      exact ha.2.1 _ _ rfl
    · rw [RwlockHistory.holds_caller hr hs']
      exact if_pos rfl
  | @write r _ hr hz hl hs' hx =>
    rw [hl]
    refine hcount.addWriter hz.2 hz.1 hc.nodup (hmem hr) ?_ fun x hxr =>
      RwlockHistory.holds_same hr hxr (hx x hxr)
    rw [RwlockHistory.holds_caller hr hs']
    exact if_pos rfl
  | @refuseRead r _ hr _ hl hs' hx | @refuseWrite r _ hr _ hl hs' hx =>
    rw [hl, RwlockHistory.holds_refused hr hs' hx]
    exact hcount
  | @drop r hr hh hwr _ _ hl hs' hx =>
    rw [hl]
    exact (hcount.drop (l := l) hwr (ha.2.2 _ _ rfl hr) hc.nodup (hmem hr)
      (RwlockHistory.holds_caller hr hs') fun x hxr => RwlockHistory.holds_same hr hxr (hx x hxr)).1
  | @grantWrite r t hr hh hwr hnw hl hb' hs' hst hx =>
    rw [hl]
    obtain ⟨hb, hrd, hcw⟩ := Objects.nextWriter_eq_some.1 hnw
    have hlist := Objects.onList_of_blocked hb
    have hmid := hcount.drop (l := l) hwr (ha.2.2 _ _ rfl hr) hc.nodup (hmem hr)
      (Function.update_self ..) fun x hxr => Function.update_of_ne hxr ..
    obtain ⟨ht, hoff⟩ := hi.holds_handed hw hs hr hlist hs' hst hx
    refine hmid.1.addWriter hmid.2.1 hrd hc.nodup (hc.mem_of_onList hw.blocked hlist) ?_ hoff
    obtain ⟨-, hcr⟩ | ⟨⟨timeout, has⟩, -⟩ := hi.wants t hlist
    · cases hcr.symm.trans hcw
    · rw [ht, has]
      exact if_pos rfl
  | @grantRead r t pre hr hh hwr _ hfr hl hb' hs' hst hx =>
    rw [hl]
    have hlist : k.OnList (.rwlock l) t := ⟨pre, hfr.path⟩
    have hmid := hcount.drop (l := l) hwr (ha.2.2 _ _ rfl hr) hc.nodup (hmem hr)
      (Function.update_self ..) fun x hxr => Function.update_of_ne hxr ..
    obtain ⟨ht, hoff⟩ := hi.holds_handed hw hs hr hlist hs' hst hx
    refine hmid.1.addReader hmid.2.1 hmid.2.2 hc.nodup (hc.mem_of_onList hw.blocked hlist) ?_ hoff
    obtain ⟨⟨timeout, has⟩, -⟩ | ⟨-, hcw⟩ := hi.wants t hlist
    · rw [ht, has]
      exact if_pos rfl
    · cases hfr.reads.symm.trans hcw

theorem wants_step (hl : RwlockStep k l k' a) (hs : machine.step k a k') (hf : Flagged k.toObjects)
    (hn : NextFree k) (hw : Waits k h.toWaitHistory L) (hok : a.RestartsFree k)
    (ht : k'.OnList (.rwlock l) t) :
    Wants l ((h.record k a k').asleep t) (k'.c t) := by
  obtain ⟨hsched, hold | ⟨hsl, ha⟩⟩ := hw.onList_step hs hf hn hok ht
  · have hp := hw.pending_of_onList hold
    have hne : h.pending t ≠ none := by simp [hp]
    have hsl : ¬ a.Sleeps k k' t := hw.not_sleeps hs.1 hne
    have hwk : ¬ a.Wakes k t := hw.not_wakes hn hok hold
    have htouch : ¬ a.Touches k t := by
      by_cases ha : a.target = some (.rwlock l)
      · exact hw.not_touches hs.1 hne hwk (fun hg => (hl.handed ha (.inl hg)).2 ht)
          fun hg => (hl.handed ha (.inr hg)).2 ht
      · exact hw.not_touches_of_ne hs.1 hp hwk ha
    have hc := ((Act.run_waits hs.1 hs.2).framed hf hn).1.c t (by
      rintro (h | h)
      · exact htouch h
      · exact hsched h)
    have hasleep : (h.record k a k').asleep t = h.asleep t := WaitHistory.asleep_record hsl hwk
    rw [hc, hasleep]
    exact hi.wants t hold
  · have hasleep : (h.record k a k').asleep t = a.call? := WaitHistory.asleep_sleeps hsl
    rw [hasleep]
    exact (hl.refused ha hsl).2

theorem waits_step (hl : RwlockStep k l k' a) (hs : machine.step k a k') (hf : Flagged k.toObjects)
    (hn : NextFree k) (hw : Waits k h.toWaitHistory L) (ha : a.RwlockSafe (k, h))
    (ht : k'.OnList (.rwlock l) t) : 0 < (k'.rwlock l).readers ∨ 0 < (k'.rwlock l).writers := by
  have hold := (hw.onList_step hs hf hn ha.1 ht).2
  have hwriters := hi.counted.writers
  have hreaders := hi.counted.readers
  have hbound := hi.counted.bound
  cases hl with
  | other hne hl =>
    rw [hl]
    exact hi.waits t (hold.resolve_right fun h => hne h.2)
  | read _ _ hl =>
    have hlt := ha.2.1 _ _ rfl
    left
    rw [hl]
    simp only [Rwlock.addReader]
    rw [RwlockHistory.outstanding, ← hreaders] at hlt
    omega
  | write _ hz hl =>
    right
    simp [hl, Rwlock.addWriter, hz.2]
  | refuseRead _ hz hl =>
    rw [hl]
    omega
  | refuseWrite _ hz hl =>
    rw [hl]
    omega
  | @drop r hr hh hwr hnw hp hl _ _ hz =>
    have hold := hold.resolve_right fun hs => by
      obtain ⟨⟨-, hr', hz'⟩, -⟩ := hs
      cases hr.symm.trans hr'
      exact hz' hz
    obtain ⟨x, hx⟩ := Option.ne_none_iff_exists'.1 fun hb => Objects.not_onList hb hold
    have hxl := Objects.onList_of_blocked hx
    have hcx : k.c x = desiredWrite := by
      rcases hi.wants x hxl with ⟨-, hc⟩ | ⟨-, hc⟩
      · exact absurd hc (hp x hxl)
      · exact hc
    have hlast : (k.rwlock l).readers - 1 ≠ 0 := fun h0 => by
      cases hnw.symm.trans (Objects.nextWriter_eq_some.2 ⟨hx, h0, hcx⟩)
    left
    rw [hl]
    exact Nat.pos_of_ne_zero hlast
  | grantWrite _ _ _ _ hl =>
    right
    rw [hl]
    simp only [Rwlock.addWriter, Rwlock.drop]
    split_ifs at hwriters ⊢ <;> simp <;> omega
  | grantRead _ _ _ _ _ hl =>
    left
    rw [hl]
    simp only [Rwlock.addReader, Rwlock.drop]
    omega

theorem result_step (hl : RwlockStep k l k' a) (hs : machine.step k a k')
    (hf : Flagged k.toObjects) (hn : NextFree k) (hw : Waits k h.toWaitHistory L)
    (hok : a.RestartsFree k) (ht : (h.record k a k').pending t = some (.rwlock l)) :
    (h.record k a k').granted t ∧ (k'.regs t).r0 = Status.success.code ∧
        ¬ k'.OnList (.rwlock l) t ∨
      ¬ (h.record k a k').granted t ∧ (k'.regs t).r0 = Status.errorTo.code := by
  change (¬ a.Sleeps k k' t ∧ (a.Hands k t ∨ h.granted t)) ∧ _ ∨
    ¬ (¬ a.Sleeps k k' t ∧ (a.Hands k t ∨ h.granted t)) ∧ _
  by_cases hsl : a.Sleeps k k' t
  · -- the call that `t` blocks in
    refine .inr ⟨fun h => h.1 hsl, ?_⟩
    have htarget : a.target = some (.rwlock l) := (WaitHistory.pending_sleeps hsl).symm.trans ht
    exact (hl.refused htarget hsl).1
  · have hwk : ¬ a.Wakes k t := fun hwk => by
      cases (WaitHistory.pending_wakes hsl hwk).symm.trans ht
    have hp : h.pending t = some (.rwlock l) := by
      rw [← WaitHistory.pending_record hsl hwk]
      exact ht
    by_cases hh : a.Hands k t
    · have htarget : a.target = some (.rwlock l) := by
        rcases hh with hg | hg
        · exact (hw.pending_of_grantee hg).2.symm.trans hp
        · exact (hw.pending_of_grantsReader hg).2.symm.trans hp
      exact .inl ⟨⟨hsl, .inl hh⟩, hl.handed htarget hh⟩
    · have hregs := ((Act.run_waits hs.1 hs.2).framed hf hn).2 t
        (hw.not_touches hs.1 (by simp [hp]) hwk (fun h => hh (.inl h)) fun h => hh (.inr h))
      rw [hregs]
      refine (hi.result t hp).imp (fun ⟨hg, hr, hnl⟩ => ⟨⟨hsl, .inr hg⟩, hr, fun hl' => hnl ?_⟩)
        fun ⟨hg, hr⟩ => ⟨fun h => hg (h.2.resolve_left hh), hr⟩
      exact (hw.onList_step hs hf hn hok hl').2.resolve_right fun h => hsl h.1

end RwlockInv

theorem RwlockInv.init (hk : machine.init k) (l : RwlockId) : RwlockInv k .start l := by
  obtain ⟨b, hb⟩ := hk
  have hu := b.start_unused hb
  have hl : k.rwlock l = osiRwlockCreate (b.rwlocks l) := by
    rw [hu.rwlock]
    rfl
  have hempty {t : TaskId} (ht : k.OnList (.rwlock l) t) : False :=
    absurd (hu.blockedInv.mem_iff.2 ht) (by simp)
  constructor
  · rw [hl]
    exact ⟨rfl, .inl rfl, Nat.two_pow_pos 16, by simp [RwlockHistory.start, osiRwlockCreate],
      fun t => rfl⟩
  · exact fun t ht => (hempty ht).elim
  · exact fun t ht => (hempty ht).elim
  · exact fun t ht => by cases ht

theorem RwlockInv.step (hi : RwlockInv k h l) (hs : machine.step k a k')
    (hw : Waiting k h.toWaitHistory) (hc : Created k) (ha : a.RwlockSafe (k, h)) :
    RwlockInv k' (h.record k a k') l := by
  obtain ⟨hf, hn, L, hw⟩ := hw
  have hl := Act.rwlockStep hs hf hn hw.blocked l
  exact ⟨hi.counted_step hl hs hf hn hw hc ha,
    fun t ht => hi.wants_step hl hs hf hn hw ha.1 ht,
    fun t ht => hi.waits_step hl hs hf hn hw ha ht,
    fun t ht => hi.result_step hl hs hf hn hw ha.1 ht⟩

abbrev rwlockMachine : System (Kernel × RwlockHistory) Act :=
  machine.withHistory .start RwlockHistory.record

theorem reach_rwlockInv (hr : rwlockMachine.Reach (fun p a => a.RwlockSafe p) (k, h)) :
    Waiting k h.toWaitHistory ∧ ∀ l, RwlockInv k h l := by
  refine hr.history_invariant
    (J := fun k h => Waiting k h.toWaitHistory ∧ ∀ l, RwlockInv k h l) ?_ ?_
  · exact fun k hk => ⟨.init hk, RwlockInv.init hk⟩
  · refine fun k h a k' hr ⟨hw, hi⟩ ha hs => ⟨hw.step hs ha.1, fun l => ?_⟩
    exact (hi l).step hs hw (reach_created hr.forget) ha

/-- The protocol of the read-write lock `l`: who holds it, who waits for it and what the tasks that
waited for it find in their frames. -/
structure RwlockProtocol (k : Kernel) (h : RwlockHistory) (l : RwlockId) : Prop where
  single : (k.rwlock l).writers ≤ 1
  exclusive : ¬ (0 < (k.rwlock l).readers ∧ 0 < (k.rwlock l).writers)
  writer : (k.rwlock l).writer ≠ none ↔ (k.rwlock l).writers = 1
  readers : (k.rwlock l).readers = h.outstanding k l
  waits : k.blocked (.rwlock l) ≠ none → 0 < (k.rwlock l).readers ∨ 0 < (k.rwlock l).writers
  wakes : ∀ k' t, machine.step k .contextSwitch k' → k'.running = some t →
    h.pending t = some (.rwlock l) → ((k'.regs t).r0 = Status.success.code ↔ h.granted t)

/-- Read-write locks keep their protocol in every run that restarts no blocked task, releases only
locks that are held and holds no lock more often than its readers count. -/
theorem rwlockProtocol_of_reach (hr : rwlockMachine.Reach (fun p a => a.RwlockSafe p) (k, h))
    (l : RwlockId) : RwlockProtocol k h l := by
  obtain ⟨-, hi⟩ := reach_rwlockInv hr
  obtain ⟨hc, -, hwaits, hresult⟩ := hi l
  have hwriters := hc.writers
  constructor
  · split_ifs at hwriters <;> omega
  · have hex := hc.exclusive
    omega
  · split_ifs at hwriters with hnone <;> simp [hwriters, hnone]
  · exact hc.readers
  · intro hb
    obtain ⟨t, ht⟩ := Option.ne_none_iff_exists'.1 hb
    exact hwaits t (Objects.onList_of_blocked ht)
  · intro k' t hs _ hp
    obtain ⟨_, hk'⟩ := hs
    cases hk'
    rcases hresult t hp with ⟨hg, hr0, -⟩ | ⟨hg, hr0⟩
    · exact iff_of_true hr0 hg
    · refine iff_of_false ?_ hg
      change (k.regs t).r0 ≠ _
      rw [hr0]
      decide

set_option maxRecDepth 10000 in
theorem rwlockProtocol_after_grant : ∃ (k : Kernel) (h : RwlockHistory),
    (k.rwlock 0).writer = some 2 ∧ (k.regs 2).r0 = Status.success.code ∧ RwlockProtocol k h 0 := by
  obtain ⟨k, hk, ho, hr0⟩ := (Boot.simple [0, 16, 16] (by simp)).exists_after
    (fun k a => ¬ a.restarts ∧ (a.target = none ∨ a.target = some (.rwlock 0)) ∧
      (k.rwlock 0).readers + 1 < 2 ^ 16 ∧
      (a = .svc (.rwlockRelease 0) → (k.rwlock 0).writer = k.running))
    (fun k => (k.rwlock 0).writer = some 2 ∧ (k.regs 2).r0 = Status.success.code)
    [.schedule, .contextSwitch, .svc (.rwlockAcquireWrite 0 0), .systick, .contextSwitch,
      .svc (.rwlockAcquireWrite 0 uint32Max), .contextSwitch, .svc (.rwlockRelease 0)] (by decide)
  have hhist : ∃ h, rwlockMachine.Reach (fun p a => a.RwlockSafe p) (k, h) := by
    apply hk.exists_history
    rintro k h a hr ⟨hra, ht, hlt, hw⟩
    have hc := ((reach_rwlockInv hr).2 0).counted
    have hreaders : (k.rwlock 0).readers = h.outstanding k 0 := hc.readers
    refine ⟨.of_not_restarts hra, ?_, ?_⟩
    · rintro l timeout rfl
      rcases ht with ht | ht <;> cases ht
      exact hreaders ▸ hlt
    · rintro l t rfl hrun
      rcases ht with ht | ht <;> cases ht
      right
      rw [hc.writes t, if_pos ((hw rfl).trans hrun)]
      exact Nat.one_pos
  obtain ⟨h, hh⟩ := hhist
  exact ⟨k, h, ho, hr0, rwlockProtocol_of_reach hh 0⟩

end Osh
