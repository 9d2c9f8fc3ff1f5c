import Osh.FixedRun
import Osh.WaitHistory

namespace Osh
open Function (update)
open Lib

variable {k k' k₁ : Kernel} {t r : TaskId} {m : MutexId} {a : Act} {L : Waitable → List TaskId}
  {timeout : Nat}

inductive MutexStep (k : Kernel) (m : MutexId) (k' : Kernel) : Act → Prop
  | other {a : Act} (ha : a.target ≠ some (.mutex m)) (hm : k'.mutex m = k.mutex m) :
    MutexStep k m k' a
  | acquire {r : TaskId} {timeout : Nat} (hr : k.running = some r) (hl : (k.mutex m).level = 0)
    (hm : k'.mutex m = { k.mutex m with owner := some r, level := 1 })
    (hs : (k'.regs r).r0 = Status.success.code) (hz : k'.flags r = 0) :
    MutexStep k m k' (.svc (.mutexAcquire m timeout))
  | again {r : TaskId} {timeout : Nat} (hr : k.running = some r) (hl : (k.mutex m).level ≠ 0)
    (ho : (k.mutex m).owner = some r)
    (hm : k'.mutex m = { k.mutex m with level := ((k.mutex m).level + 1) % 2 ^ 16 })
    (hs : (k'.regs r).r0 = Status.success.code) (hz : k'.flags r = 0) :
    MutexStep k m k' (.svc (.mutexAcquire m timeout))
  | full {r : TaskId} {timeout : Nat} (hr : k.running = some r)
    (hl : (k.mutex m).level = uint32Max) (ho : (k.mutex m).owner = some r)
    (hm : k'.mutex m = k.mutex m) (hs : (k'.regs r).r0 = Status.error.code)
    (hz : k'.flags r = 0) :
    MutexStep k m k' (.svc (.mutexAcquire m timeout))
  | refuse {r : TaskId} {timeout : Nat} (hr : k.running = some r) (hl : (k.mutex m).level ≠ 0)
    (ho : (k.mutex m).owner ≠ some r) (hm : k'.mutex m = k.mutex m)
    (hs : (k'.regs r).r0 = Status.errorTo.code) :
    MutexStep k m k' (.svc (.mutexAcquire m timeout))
  | nested {r : TaskId} (hr : k.running = some r) (hl : (k.mutex m).level > 1)
    (ho : (k.mutex m).owner = some r)
    (hm : k'.mutex m = { k.mutex m with level := (k.mutex m).level - 1 })
    (hs : (k'.regs r).r0 = Status.success.code) (hx : ∀ x ≠ r, k'.regs x = k.regs x)
    (hz : k'.flags r = 0) : MutexStep k m k' (.svc (.mutexRelease m))
  | free {r : TaskId} (hr : k.running = some r) (hl : (k.mutex m).level = 1)
    (ho : (k.mutex m).owner = some r) (hb : k.blocked (.mutex m) = none)
    (hm : k'.mutex m = { k.mutex m with owner := none, level := 0 })
    (hb' : k'.blocked (.mutex m) = none) (hs : (k'.regs r).r0 = Status.success.code)
    (hx : ∀ x ≠ r, k'.regs x = k.regs x) (hz : k'.flags r = 0) :
    MutexStep k m k' (.svc (.mutexRelease m))
  | grant {r t : TaskId} (hr : k.running = some r) (hl : (k.mutex m).level = 1)
    (ho : (k.mutex m).owner = some r) (hb : k.blocked (.mutex m) = some t)
    (hm : k'.mutex m = { k.mutex m with owner := some t, level := 1 })
    (hb' : ¬ k'.OnList (.mutex m) t) (hs : (k'.regs r).r0 = Status.success.code)
    (hst : (k'.regs t).r0 = Status.success.code) (hx : ∀ x ≠ r, x ≠ t → k'.regs x = k.regs x)
    (hz : k'.flags r = 0) : MutexStep k m k' (.svc (.mutexRelease m))

theorem mutexAcquire_step (hs : machine.step k (.svc (.mutexAcquire m timeout)) k')
    (hf : Flagged k.toObjects) (hn : NextFree k) :
    MutexStep k m k' (.svc (.mutexAcquire m timeout)) := by
  obtain ⟨he, h⟩ := hs
  simp only [Act.run, svcHandler, Svc.call, bind_eq_ok, pure_eq_ok, Prod.exists,
    Prod.mk.injEq] at h
  obtain ⟨r, hr, k₁, _, _, ⟨_, status, h, rfl, rfl, rfl⟩, rfl⟩ := h
  replace hr := Kernel.self_eq_ok.1 hr
  obtain ⟨task, hrun, hc⟩ := osiMutexAcquire_cases h
  obtain rfl : task = r := Option.some.inj (hrun.symm.trans hr)
  have hz : k.flags task = 0 := hn _ ((next_of_none he).trans hr)
  cases hc with
  | free hl =>
    exact .acquire hr hl (by simp [Objects.setMutex]) (by simp) hz
  | again hl ho =>
    exact .again hr hl ho (by simp [Objects.setMutex]) (by simp) hz
  | full hl ho => exact .full hr hl ho rfl (by simp) hz
  | busy hl ho => exact .refuse hr hl ho rfl (by simp)
  | blocks hl ho hb =>
    obtain ⟨hfr, -⟩ := block_framed hr he hb hf hz
    exact .refuse hr hl ho (hfr.mutex m (by simp)) (by simp)

theorem mutexRelease_step (hs : machine.step k (.svc (.mutexRelease m)) k')
    (hf : Flagged k.toObjects) (hn : NextFree k) (hi : BlockedInv k.toObjects L) :
    MutexStep k m k' (.svc (.mutexRelease m)) := by
  obtain ⟨he, h⟩ := hs
  simp only [Act.run, svcHandler, Svc.call, bind_eq_ok, pure_eq_ok, Prod.exists,
    Prod.mk.injEq] at h
  obtain ⟨r, hr, k₁, _, _, ⟨_, status, h, rfl, rfl, rfl⟩, rfl⟩ := h
  replace hr := Kernel.self_eq_ok.1 hr
  obtain ⟨rfl, task, hrun, hpos, hc⟩ := osiMutexRelease_cases h
  obtain rfl : task = r := Option.some.inj (hrun.symm.trans hr)
  have hz : k.flags task = 0 := hn _ ((next_of_none he).trans hr)
  cases hc with
  | nested hl ho =>
    exact .nested hr (by omega) ho (by simp [Objects.setMutex]) (by simp)
      (fun x hx => Function.update_of_ne hx _ _) hz
  | free hl ho hb =>
    exact .free hr hl ho hb (by simp [Objects.setMutex]) hb (by simp)
      (fun x hx => Function.update_of_ne hx _ _) hz
  | @grant t _ hl ho hb hw hd =>
    have hq : Quiet (some (.mutex m)) (fun x => x = t) (k.unlink (.mutex m) none t)
      (k.grantMutex m t) := .grantMutex rfl
    obtain ⟨hnext, hb', hregs, hflags, hfr⟩ :=
      (osiDispatchOrQueue_switched hd).handed_head hb hq hf hn hi
    have hne : t ≠ task := fun he' => hnext (he' ▸ (next_of_none he).trans hr)
    refine .grant hr hl ho hb ?_ hb' (by simp) ?_ (fun x hx hxt => ?_) (hflags _ hz)
    · apply (hfr.mutex m (by simp)).trans
      simp [Objects.grantMutex, Objects.setMutex, Objects.unlink, Objects.setStackedReturn]
    · simp only [Function.update_of_ne hne]
      rw [hregs]
      simp [Objects.grantMutex, Objects.setStackedReturn]
    · simp only [Function.update_of_ne hx]
      rw [hregs]
      exact hq.regs x hxt

theorem Act.mutexStep (hs : machine.step k a k') (hf : Flagged k.toObjects) (hn : NextFree k)
    (hi : BlockedInv k.toObjects L) (m : MutexId) : MutexStep k m k' a := by
  by_cases ha : a.target = some (.mutex m)
  · cases a <;> simp only [Act.target, reduceCtorEq, Option.some.injEq] at ha
    case svc call =>
      cases call <;> simp only [Svc.target, reduceCtorEq, Option.some.injEq,
        Waitable.mutex.injEq] at ha
      case mutexAcquire m' timeout =>
        subst ha
        exact mutexAcquire_step hs hf hn
      case mutexRelease m' =>
        subst ha
        exact mutexRelease_step hs hf hn hi
  · exact .other ha (((Act.run_waits hs.1 hs.2).framed hf hn).1.mutex m ha)

/-- A successful acquire of `m` by `t`: its call returns so, or `t` is blocked and a release by
another task stores it in the frame of `t`. -/
def Act.Acquires (k k' : Kernel) (m : MutexId) (t : TaskId) : Act → Prop
  | .svc (.mutexAcquire m' _) =>
    m' = m ∧ k.running = some t ∧ (k'.regs t).r0 = Status.success.code
  | .svc (.mutexRelease m') => m' = m ∧ k.running ≠ some t ∧
      (k.regs t).r0 ≠ Status.success.code ∧ (k'.regs t).r0 = Status.success.code
  | _ => False

instance : Decidable (a.Acquires k k' m t) := by
  unfold Act.Acquires
  split <;> infer_instance

def Act.Releases (k k' : Kernel) (m : MutexId) (t : TaskId) : Act → Prop
  | .svc (.mutexRelease m') =>
    m' = m ∧ k.running = some t ∧ (k'.regs t).r0 = Status.success.code
  | _ => False

instance : Decidable (a.Releases k k' m t) := by
  unfold Act.Releases
  split <;> infer_instance

theorem Act.target_of_acquires (h : a.Acquires k k' m t) : a.target = some (.mutex m) := by
  unfold Act.Acquires at h
  split at h
  · exact congrArg _ (congrArg _ h.1)
  · exact congrArg _ (congrArg _ h.1)
  · exact h.elim

theorem Act.target_of_releases (h : a.Releases k k' m t) : a.target = some (.mutex m) := by
  unfold Act.Releases at h
  split at h
  · exact congrArg _ (congrArg _ h.1)
  · exact h.elim

structure MutexHistory extends WaitHistory where
  acquires : MutexId → TaskId → Nat
  releases : MutexId → TaskId → Nat

def MutexHistory.start : MutexHistory where
  toWaitHistory := .start
  acquires _ _ := 0
  releases _ _ := 0

def MutexHistory.record (h : MutexHistory) (k : Kernel) (a : Act) (k' : Kernel) :
    MutexHistory where
  toWaitHistory := h.toWaitHistory.record k a k'
  acquires m t := h.acquires m t + if a.Acquires k k' m t then 1 else 0
  releases m t := h.releases m t + if a.Releases k k' m t then 1 else 0

/-- A step restarts no task on a blocked list and nests no mutex deeper than its level counts. -/
def Act.MutexSafe (k : Kernel) (a : Act) : Prop :=
  a.RestartsFree k ∧ ∀ m timeout, a = .svc (.mutexAcquire m timeout) →
    (k.mutex m).owner = k.running → (k.mutex m).level + 1 < 2 ^ 16

variable {h : MutexHistory}

/-- The mutex, the counts of its acquires and releases and the results in the frames of the tasks
that blocked on it agree. -/
structure MutexInv (k : Kernel) (h : MutexHistory) (m : MutexId) : Prop where
  free : (k.mutex m).owner = none ↔ (k.mutex m).level = 0
  held : ∀ t, h.acquires m t =
    h.releases m t + if (k.mutex m).owner = some t then (k.mutex m).level else 0
  waits : ∀ t, k.OnList (.mutex m) t → (k.mutex m).owner ≠ none
  result : ∀ t, h.pending t = some (.mutex m) →
    (k.mutex m).owner = some t ∧ (k.regs t).r0 = Status.success.code ∧ ¬ k.OnList (.mutex m) t ∨
      (k.mutex m).owner ≠ some t ∧ (k.regs t).r0 = Status.errorTo.code

namespace MutexInv
variable (hi : MutexInv k h m)
include hi

theorem acquired {t : TaskId} (ht : (k.mutex m).owner = some t) :
    h.acquires m t = h.releases m t + (k.mutex m).level := by
  have hheld := hi.held t
  rwa [if_pos ht] at hheld

theorem owner_of_ne {t : TaskId} (ht : h.acquires m t ≠ h.releases m t) :
    (k.mutex m).owner = some t := by
  by_contra ho
  have hheld := hi.held t
  rw [if_neg ho] at hheld
  exact ht hheld

theorem free_step (hm : MutexStep k m k' a) (ha : a.MutexSafe k) :
    (k'.mutex m).owner = none ↔ (k'.mutex m).level = 0 := by
  have hfree := hi.free
  cases hm with
  | other _ hm | full _ _ _ hm | refuse _ _ _ hm =>
    rw [hm]
    exact hfree
  | acquire _ _ hm | free _ _ _ _ hm | grant _ _ _ _ hm => simp [hm]
  | again hr _ ho hm =>
    have hlt := ha.2 _ _ rfl (ho.trans hr.symm)
    simp only [hm, ho, reduceCtorEq, false_iff]
    omega
  | nested _ hl ho hm =>
    simp only [hm, ho, reduceCtorEq, false_iff]
    omega

theorem not_granted {h' : WaitHistory} (hh : h.toWaitHistory = h') (hw : Waits k h' L)
    (hb : k.OnList (.mutex m) t) :
    (k.mutex m).owner ≠ some t ∧ (k.regs t).r0 = Status.errorTo.code := by
  have hp : h.pending t = some (.mutex m) := by
    rw [hh]
    exact hw.pending_of_onList hb
  rcases hi.result t hp with ⟨-, -, hl⟩ | hres
  · exact absurd hb hl
  · exact hres

theorem held_step (hm : MutexStep k m k' a) (ha : a.MutexSafe k)
    (hw : Waits k h.toWaitHistory L) (t : TaskId) :
    (h.record k a k').acquires m t = (h.record k a k').releases m t +
      if (k'.mutex m).owner = some t then (k'.mutex m).level else 0 := by
  have hheld := hi.held t
  have hfree := hi.free
  change h.acquires m t + _ = h.releases m t + _ + _
  cases hm with
  | other ht hm =>
    have hacq : ¬ a.Acquires k k' m t := fun h => ht (Act.target_of_acquires h)
    have hrel : ¬ a.Releases k k' m t := fun h => ht (Act.target_of_releases h)
    rw [if_neg hacq, if_neg hrel, hm]
    exact hheld
  | @acquire r _ hr hl hm hs =>
    have ho := hfree.2 hl
    simp only [ho, reduceCtorEq, if_false] at hheld
    by_cases ht : r = t
    · subst ht
      simp [Act.Acquires, Act.Releases, hr, hm, hs, hheld]
    · simp [Act.Acquires, Act.Releases, hr, hm, ht, hheld]
  | @again r _ hr hl ho hm hs =>
    have hlt := ha.2 _ _ rfl (ho.trans hr.symm)
    simp only [ho] at hheld
    by_cases ht : r = t
    · subst ht
      simp only [if_true] at hheld
      simp [Act.Acquires, Act.Releases, hr, hm, hs, ho, hheld]
      omega
    · simp_all [Act.Acquires, Act.Releases]
  | @full r _ hr hl ho hm hs | @refuse r _ hr hl ho hm hs =>
    have hacq : ¬ (k.running = some t ∧ (k'.regs t).r0 = Status.success.code) := by
      rintro ⟨hr', h⟩
      cases hr.symm.trans hr'
      rw [hs] at h
      cases h
    simpa [Act.Acquires, Act.Releases, hm, hacq] using hheld
  | @nested r hr hl ho hm hs hx =>
    simp only [ho] at hheld
    by_cases ht : r = t
    · subst ht
      simp only [if_true] at hheld
      simp [Act.Acquires, Act.Releases, hr, hm, hs, ho, hheld]
      omega
    · have hregs := hx t (Ne.symm ht)
      simp_all [Act.Acquires, Act.Releases]
  | @free r hr hl ho _ hm _ hs hx =>
    simp only [ho] at hheld
    by_cases ht : r = t
    · subst ht
      simp [Act.Acquires, Act.Releases, hr, hm, hs, hheld, hl]
    · have hregs := hx t (Ne.symm ht)
      simp_all [Act.Acquires, Act.Releases]
  | @grant r y hr hl ho hb hm hb' hs hst hx =>
    have hy := hi.not_granted rfl hw (Objects.onList_of_blocked hb)
    have hry : r ≠ y := fun he => hy.1 (he ▸ ho)
    have hne : (k.regs y).r0 ≠ Status.success.code := by
      rw [hy.2]
      decide
    simp only [ho] at hheld
    by_cases ht : r = t
    · subst ht
      simp [Act.Acquires, Act.Releases, hr, hm, hs, hheld, hl, Ne.symm hry]
    · by_cases hty : y = t
      · subst hty
        simp [Act.Acquires, Act.Releases, hr, hm, hst, hne, hry, hheld]
      · have hregs := hx t (Ne.symm ht) (Ne.symm hty)
        simp_all [Act.Acquires, Act.Releases]

theorem waits_step (hm : MutexStep k m k' a) (hs : machine.step k a k') (hf : Flagged k.toObjects)
    (hn : NextFree k) (hw : Waits k h.toWaitHistory L) (hok : a.RestartsFree k)
    (ht : k'.OnList (.mutex m) t) : (k'.mutex m).owner ≠ none := by
  obtain ⟨L₁, hL, hw'⟩ := hw.step hs hf hn hok
  have hmem := (mem_without.1 (hw'.blocked.mem_iff.2 ht)).1
  have hold (ha : a.target ≠ some (.mutex m)) : (k.mutex m).owner ≠ none := by
    rcases hL.mem hmem with h | ⟨-, ht', -⟩
    · exact hi.waits t (hw.blocked.mem_iff.1 h)
    · exact absurd ht' ha
  cases hm with
  | other ha hm =>
    rw [hm]
    exact hold ha
  | acquire _ _ hm | grant _ _ _ _ hm => simp [hm]
  | again _ _ ho hm | full _ _ ho hm | nested _ _ ho hm => simp [hm, ho]
  | refuse _ hl _ hm =>
    rw [hm]
    exact fun h => hl (hi.free.1 h)
  | free _ _ _ _ _ hb' => exact absurd ht (Objects.not_onList hb')

theorem result_step (hm : MutexStep k m k' a) (hs : machine.step k a k') (hf : Flagged k.toObjects)
    (hn : NextFree k) (hw : Waits k h.toWaitHistory L) (hok : a.RestartsFree k)
    (ht : (h.record k a k').pending t = some (.mutex m)) :
    (k'.mutex m).owner = some t ∧ (k'.regs t).r0 = Status.success.code ∧
        ¬ k'.OnList (.mutex m) t ∨
      (k'.mutex m).owner ≠ some t ∧ (k'.regs t).r0 = Status.errorTo.code := by
  obtain ⟨L₁, hL, hw'⟩ := hw.step hs hf hn hok
  by_cases hsl : a.Sleeps k k' t
  · -- the call that `t` blocks in
    obtain ⟨hc, hr, hz⟩ := hsl
    have hsl : a.Sleeps k k' t := ⟨hc, hr, hz⟩
    have htarget : a.target = some (.mutex m) := (WaitHistory.pending_sleeps hsl).symm.trans ht
    cases hm with
    | other ha => exact absurd htarget ha
    | refuse hr' hl ho hm hs' =>
      cases hr.symm.trans hr'
      exact .inr ⟨by rwa [hm], hs'⟩
    | acquire hr' _ _ _ hz' | again hr' _ _ _ _ hz' | full hr' _ _ _ _ hz' =>
      cases hr.symm.trans hr'
      exact absurd hz' hz
    | nested hr' _ _ _ _ _ hz' | free hr' _ _ _ _ _ _ _ hz' | grant hr' _ _ _ _ _ _ _ _ hz' =>
      cases hr.symm.trans hr'
      exact absurd hz' hz
  · have hwk : ¬ a.Wakes k t := fun hwk => by
      cases (WaitHistory.pending_wakes hsl hwk).symm.trans ht
    have hp : h.pending t = some (.mutex m) := by
      rw [← WaitHistory.pending_record hsl hwk]
      exact ht
    have hres := hi.result t hp
    have hne : h.pending t ≠ none := by simp [hp]
    have hregs (hg : a.grantee k.toObjects ≠ some t) (hr : ¬ a.GrantsReader k.toObjects t) :
        k'.regs t = k.regs t :=
      ((Act.run_waits hs.1 hs.2).framed hf hn).2 t (hw.not_touches hs.1 hne hwk hg hr)
    have hlist : k'.OnList (.mutex m) t → k.OnList (.mutex m) t := fun hl => by
      rcases hL.mem (mem_without.1 (hw'.blocked.mem_iff.2 hl)).1 with h | ⟨hc, -, hr⟩
      · exact hw.blocked.mem_iff.1 h
      · exact absurd hr (hw.not_calls hs.1 hc hne)
    cases hm with
    | other ha hm =>
      rw [hm, ((Act.run_waits hs.1 hs.2).framed hf hn).2 t
        (hw.not_touches_of_ne hs.1 hp hwk ha)]
      exact hres.imp_left fun ⟨ho, hr, hl⟩ => ⟨ho, hr, fun hl' => hl (hlist hl')⟩
    | acquire hr hl hm =>
      have hrt := hw.not_calls (t := t) hs.1 rfl hne
      have hfree := hi.free.2 hl
      rw [hregs (fun h => by cases h) id, hm]
      refine .inr ⟨fun he => hrt (hr.trans he), ?_⟩
      rcases hres with ⟨ho, -⟩ | ⟨-, hr0⟩
      · cases hfree.symm.trans ho
      · exact hr0
    | again _ _ _ hm | full _ _ _ hm | refuse _ _ _ hm =>
      rw [hregs (fun h => by cases h) id, hm]
      exact hres.imp_left fun ⟨ho, hr, hl⟩ => ⟨ho, hr, fun hl' => hl (hlist hl')⟩
    | nested hr hl ho hm _ hx =>
      have hrt := hw.not_calls (t := t) hs.1 rfl hne
      rw [hx t fun he => hrt (he ▸ hr), hm]
      exact hres.imp_left fun ⟨ho, hr, hl⟩ => ⟨ho, hr, fun hl' => hl (hlist hl')⟩
    | free hr _ ho _ hm _ _ hx =>
      have hrt := hw.not_calls (t := t) hs.1 rfl hne
      rw [hx t fun he => hrt (he ▸ hr), hm]
      refine .inr ⟨by simp, ?_⟩
      rcases hres with ⟨ho', -⟩ | ⟨-, hr0⟩
      · exact absurd (hr.trans (ho.symm.trans ho')) hrt
      · exact hr0
    | @grant r y hr _ ho hb hm hb' _ hst hx =>
      have hrt := hw.not_calls (t := t) hs.1 rfl hne
      by_cases hty : t = y
      · subst hty
        exact .inl ⟨by rw [hm], hst, hb'⟩
      · rw [hx t (fun he => hrt (he ▸ hr)) hty, hm]
        refine .inr ⟨fun he => hty (Option.some.inj he).symm, ?_⟩
        rcases hres with ⟨ho', -⟩ | ⟨-, hr0⟩
        · exact absurd (hr.trans (ho.symm.trans ho')) hrt
        · exact hr0

end MutexInv

theorem MutexInv.init (hk : machine.init k) (m : MutexId) : MutexInv k .start m := by
  obtain ⟨b, hb⟩ := hk
  have hu := b.start_unused hb
  have hm : k.mutex m = osiMutexCreate (b.mutexes m) := by
    rw [hu.mutex]
    rfl
  refine ⟨by simp [hm, osiMutexCreate], fun t => by simp [hm, osiMutexCreate, MutexHistory.start],
    fun t ht => ?_, fun t ht => by cases ht⟩
  exact absurd (hu.blockedInv.mem_iff.2 ht) (by simp)

theorem MutexInv.step (hi : MutexInv k h m) (hs : machine.step k a k')
    (hw : Waiting k h.toWaitHistory) (ha : a.MutexSafe k) : MutexInv k' (h.record k a k') m := by
  obtain ⟨hf, hn, L, hw⟩ := hw
  have hm := Act.mutexStep hs hf hn hw.blocked m
  exact ⟨hi.free_step hm ha, hi.held_step hm ha hw,
    fun t ht => hi.waits_step hm hs hf hn hw ha.1 ht,
    fun t ht => hi.result_step hm hs hf hn hw ha.1 ht⟩

abbrev mutexMachine : System (Kernel × MutexHistory) Act :=
  machine.withHistory .start MutexHistory.record

theorem reach_mutexInv (hr : mutexMachine.Reach (fun p a => a.MutexSafe p.1) (k, h)) :
    Waiting k h.toWaitHistory ∧ ∀ m, MutexInv k h m := by
  refine hr.history_invariant
    (J := fun k h => Waiting k h.toWaitHistory ∧ ∀ m, MutexInv k h m) ?_ ?_
  · exact fun k hk => ⟨.init hk, MutexInv.init hk⟩
  · exact fun k h a k' _ ⟨hw, hi⟩ ha hs => ⟨hw.step hs ha.1, fun m => (hi m).step hs hw ha⟩

/-- The protocol of the mutex `m`: who owns it, who waits for it, whom the last release hands it
to, and what the tasks that waited for it find in their frames. -/
structure MutexProtocol (k : Kernel) (h : MutexHistory) (m : MutexId) : Prop where
  free : (k.mutex m).owner = none ↔ (k.mutex m).level = 0
  level : ∀ t, (k.mutex m).owner = some t →
    ((k.mutex m).level : Int) = h.acquires m t - h.releases m t
  single : ∀ t, h.acquires m t ≠ h.releases m t → (k.mutex m).owner = some t
  waits : k.blocked (.mutex m) ≠ none → (k.mutex m).owner ≠ none
  handsOver : ∀ k', machine.step k (.svc (.mutexRelease m)) k' → (k.mutex m).level = 1 →
    k.blocked (.mutex m) ≠ none → ∃ t, k.OnList (.mutex m) t ∧
      (∀ x, k.OnList (.mutex m) x → x ≠ t → h.since t < h.since x) ∧
      (k'.mutex m).owner = some t ∧ (k'.mutex m).level = 1
  wakes : ∀ k' t, machine.step k .contextSwitch k' → k'.running = some t →
    h.pending t = some (.mutex m) →
      ((k'.regs t).r0 = Status.success.code ↔ (k'.mutex m).owner = some t) ∧
      ((k'.regs t).r0 = Status.success.code ∨ (k'.regs t).r0 = Status.errorTo.code) ∧
      ¬ k'.OnList (.mutex m) t

/-- Mutexes keep their protocol in every run that restarts no blocked task and nests no mutex deeper
than its level counts. -/
theorem mutexProtocol_of_reach (hr : mutexMachine.Reach (fun p a => a.MutexSafe p.1) (k, h))
    (m : MutexId) : MutexProtocol k h m := by
  obtain ⟨⟨hf, hn, L, hw⟩, hi⟩ := reach_mutexInv hr
  have hi := hi m
  refine ⟨hi.free, fun t ht => ?_, fun t => hi.owner_of_ne, fun hb => ?_, fun k' hs hl hb => ?_,
    fun k' t hs hrun hp => ?_⟩
  · have hheld := hi.acquired ht
    omega
  · obtain ⟨t, ht⟩ := Option.ne_none_iff_exists'.1 hb
    exact hi.waits t (Objects.onList_of_blocked ht)
  · cases Act.mutexStep hs hf hn hw.blocked m with
    | other ha => exact absurd rfl ha
    | nested _ hl' => omega
    | free _ _ _ hb' => exact absurd hb' hb
    | @grant r t _ _ _ hb' hm =>
      refine ⟨t, Objects.onList_of_blocked hb', fun x hx hxt => ?_, by rw [hm], by rw [hm]⟩
      exact hw.first hb' hx hxt
  · obtain ⟨_, hk'⟩ := hs
    cases hk'
    have hres := hi.result t hp
    have hnot : ¬ k.OnList (.mutex m) t := fun hl =>
      hw.blocked.notMem (hn t (next_of_scheduled hrun)) _ (hw.blocked.mem_iff.2 hl)
    rcases hres with ⟨ho, hr0, -⟩ | ⟨ho, hr0⟩
    · exact ⟨iff_of_true hr0 ho, .inl hr0, hnot⟩
    · refine ⟨iff_of_false ?_ ho, .inr hr0, hnot⟩
      change (k.regs t).r0 ≠ _
      rw [hr0]
      decide

set_option maxRecDepth 10000 in
theorem mutexProtocol_after_grant : ∃ (k : Kernel) (h : MutexHistory),
    (k.mutex 0).owner = some 2 ∧ (k.regs 2).r0 = Status.success.code ∧ MutexProtocol k h 0 := by
  obtain ⟨k, hk, ho, hr0⟩ := (Boot.simple [0, 16, 16] (by simp)).exists_after
    (fun k a => ¬ a.restarts ∧ (a.target = none ∨ a.target = some (.mutex 0)) ∧
      (k.mutex 0).level + 1 < 2 ^ 16)
    (fun k => (k.mutex 0).owner = some 2 ∧ (k.regs 2).r0 = Status.success.code)
    [.schedule, .contextSwitch, .svc (.mutexAcquire 0 0), .systick, .contextSwitch,
      .svc (.mutexAcquire 0 uint32Max), .contextSwitch, .svc (.mutexRelease 0)] (by decide)
  have hhist : ∃ h, mutexMachine.Reach (fun p a => a.MutexSafe p.1) (k, h) := by
    refine hk.exists_history fun k _ a _ ⟨hra, ht, hl⟩ => ⟨.of_not_restarts hra, ?_⟩
    rintro m timeout rfl -
    rcases ht with ht | ht <;> cases ht
    exact hl
  obtain ⟨h, hh⟩ := hhist
  exact ⟨k, h, ho, hr0, mutexProtocol_of_reach hh 0⟩

end Osh
