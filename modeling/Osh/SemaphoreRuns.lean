import Osh.CreatedTasks
import Osh.FixedRun
import Osh.WaitHistory

namespace Osh
open Function (update)
open Lib

variable {k k' k₁ : Kernel} {t r x : TaskId} {s : SemaphoreId} {a : Act}
  {L : Waitable → List TaskId} {timeout : Nat}

inductive SemaphoreStep (k : Kernel) (s : SemaphoreId) (k' : Kernel) : Act → Prop
  | other {a : Act} (ha : a.target ≠ some (.semaphore s)) (hm : k'.semaphore s = k.semaphore s) :
    SemaphoreStep k s k' a
  | take {r : TaskId} {timeout : Nat} (hr : k.running = some r) (ht : 0 < (k.semaphore s).tokens)
    (hm : k'.semaphore s = { k.semaphore s with tokens := (k.semaphore s).tokens - 1 })
    (hs : (k'.regs r).r0 = Status.success.code) (hx : ∀ x ≠ r, k'.regs x = k.regs x)
    (hz : k'.flags r = 0) : SemaphoreStep k s k' (.svc (.semaphoreAcquire s timeout))
  | refuse {r : TaskId} {timeout : Nat} (hr : k.running = some r) (ht : (k.semaphore s).tokens = 0)
    (hm : k'.semaphore s = k.semaphore s) (hs : (k'.regs r).r0 = Status.errorTo.code)
    (hx : ∀ x ≠ r, k'.regs x = k.regs x) :
    SemaphoreStep k s k' (.svc (.semaphoreAcquire s timeout))
  | put {r : TaskId} (hr : k.running = some r) (hb : k.blocked (.semaphore s) = none)
    (hm : k'.semaphore s =
      { k.semaphore s with tokens := ((k.semaphore s).tokens + 1) % 2 ^ 32 })
    (hb' : k'.blocked (.semaphore s) = none) (hs : (k'.regs r).r0 = Status.success.code)
    (hx : ∀ x ≠ r, k'.regs x = k.regs x) (hz : k'.flags r = 0) :
    SemaphoreStep k s k' (.svc (.semaphoreRelease s))
  | grant {r t : TaskId} (hr : k.running = some r) (hb : k.blocked (.semaphore s) = some t)
    (hm : k'.semaphore s = k.semaphore s) (hb' : ¬ k'.OnList (.semaphore s) t)
    (hs : (k'.regs r).r0 = Status.success.code) (hst : (k'.regs t).r0 = Status.success.code)
    (hx : ∀ x ≠ r, x ≠ t → k'.regs x = k.regs x) (hz : k'.flags r = 0) :
    SemaphoreStep k s k' (.svc (.semaphoreRelease s))

theorem semaphoreAcquire_step (hs : machine.step k (.svc (.semaphoreAcquire s timeout)) k')
    (hf : Flagged k.toObjects) (hn : NextFree k) :
    SemaphoreStep k s k' (.svc (.semaphoreAcquire s timeout)) := by
  obtain ⟨he, h⟩ := hs
  simp only [Act.run, svcHandler, Svc.call, bind_eq_ok, pure_eq_ok, Prod.exists,
    Prod.mk.injEq] at h
  obtain ⟨r, hr, k₁, _, _, ⟨_, status, h, rfl, rfl, rfl⟩, rfl⟩ := h
  replace hr := Kernel.self_eq_ok.1 hr
  obtain ⟨task, hrun, hc⟩ := osiSemaphoreAcquire_cases h
  obtain rfl : task = r := Option.some.inj (hrun.symm.trans hr)
  have hz : k.flags task = 0 := hn _ ((next_of_none he).trans hr)
  cases hc with
  | free ht =>
    exact .take hr ht (by simp [Objects.setTokens]) (by simp)
      (fun x hx => Function.update_of_ne hx _ _) hz
  | busy ht =>
    exact .refuse hr ht rfl (by simp) fun x hx => Function.update_of_ne hx _ _
  | blocks ht hb =>
    obtain ⟨hfr, hregs, -⟩ := block_framed hr he hb hf hz
    refine .refuse hr ht (hfr.semaphore s (by simp)) (by simp) fun x hx => ?_
    exact (Function.update_of_ne hx _ _).trans (congrFun hregs x)

theorem semaphoreRelease_step (hs : machine.step k (.svc (.semaphoreRelease s)) k')
    (hf : Flagged k.toObjects) (hn : NextFree k) (hi : BlockedInv k.toObjects L) :
    SemaphoreStep k s k' (.svc (.semaphoreRelease s)) := by
  obtain ⟨he, h⟩ := hs
  simp only [Act.run, svcHandler, Svc.call, bind_eq_ok, pure_eq_ok, Prod.exists,
    Prod.mk.injEq] at h
  obtain ⟨r, hr, k₁, _, _, ⟨_, status, h, rfl, rfl, rfl⟩, rfl⟩ := h
  replace hr := Kernel.self_eq_ok.1 hr
  obtain ⟨rfl, hc⟩ := osiSemaphoreRelease_cases h
  have hz : k.flags r = 0 := hn _ ((next_of_none he).trans hr)
  cases hc with
  | free hb =>
    exact .put hr hb (by simp [Objects.setTokens]) hb (by simp)
      (fun x hx => Function.update_of_ne hx _ _) hz
  | @grant t _ hb hw hd =>
    have hq : Quiet (some (.semaphore s)) (fun x => x = t) (k.unlink (.semaphore s) none t)
      (k.grantSemaphore s t) := .grantSemaphore rfl
    obtain ⟨hnext, hb', hregs, hflags, hfr⟩ :=
      (osiDispatchOrQueue_switched hd).handed_head hb hq hf hn hi
    have hne : t ≠ r := fun he' => hnext (he' ▸ (next_of_none he).trans hr)
    refine .grant hr hb (hfr.semaphore s (by simp)) hb' (by simp) ?_ (fun x hx hxt => ?_)
      (hflags _ hz)
    · simp only [Function.update_of_ne hne]
      rw [hregs]
      simp [Objects.grantSemaphore, Objects.setStackedReturn]
    · simp only [Function.update_of_ne hx]
      rw [hregs]
      exact hq.regs x hxt

theorem Act.semaphoreStep (hs : machine.step k a k') (hf : Flagged k.toObjects) (hn : NextFree k)
    (hi : BlockedInv k.toObjects L) (s : SemaphoreId) : SemaphoreStep k s k' a := by
  by_cases ha : a.target = some (.semaphore s)
  · cases a <;> simp only [Act.target, reduceCtorEq, Option.some.injEq] at ha
    case svc call =>
      cases call <;> simp only [Svc.target, reduceCtorEq, Option.some.injEq,
        Waitable.semaphore.injEq] at ha
      case semaphoreAcquire s' timeout =>
        subst ha
        exact semaphoreAcquire_step hs hf hn
      case semaphoreRelease s' =>
        subst ha
        exact semaphoreRelease_step hs hf hn hi
  · exact .other ha (((Act.run_waits hs.1 hs.2).framed hf hn).1.semaphore s ha)

def Svc.acquiresSemaphore (s : SemaphoreId) : Svc → Bool
  | .semaphoreAcquire s' _ => s' = s
  | _ => false

def Svc.releasesSemaphore (s : SemaphoreId) : Svc → Bool
  | .semaphoreRelease s' => s' = s
  | _ => false

/-- How many of the calls that `p` holds of a step reports as successful, or grants. -/
def Act.successes (k k' : Kernel) (h : WaitHistory) (a : Act) (p : Svc → Bool) : Nat :=
  k.tasks.countP fun t => (a.succeeds k k' h t).any p

structure SemaphoreHistory extends WaitHistory where
  acquires : SemaphoreId → Nat
  releases : SemaphoreId → Nat

def SemaphoreHistory.start : SemaphoreHistory where
  toWaitHistory := .start
  acquires _ := 0
  releases _ := 0

def SemaphoreHistory.record (h : SemaphoreHistory) (k : Kernel) (a : Act) (k' : Kernel) :
    SemaphoreHistory where
  toWaitHistory := h.toWaitHistory.record k a k'
  acquires s := h.acquires s + a.successes k k' h.toWaitHistory (Svc.acquiresSemaphore s)
  releases s := h.releases s + a.successes k k' h.toWaitHistory (Svc.releasesSemaphore s)

/-- A step restarts no task on a blocked list, and its release leaves the tokens countable in 32
bits. -/
def Act.SemaphoreSafe (k : Kernel) (a : Act) : Prop :=
  a.RestartsFree k ∧ ∀ s, a = .svc (.semaphoreRelease s) → k.blocked (.semaphore s) = none →
    (k.semaphore s).tokens + 1 < 2 ^ 32

section Successes
variable {h : WaitHistory} {p : Svc → Bool} {call : Svc}

theorem Act.successes_zero (hp : ∀ t, (a.succeeds k k' h t).any p = false) :
    a.successes k k' h p = 0 := by
  apply List.countP_eq_zero.2
  intro t _
  rw [hp t]
  exact Bool.false_ne_true

theorem Act.successes_one (hc : Created k) (ht : t ∈ k.tasks)
    (hp : ∀ x, (a.succeeds k k' h x).any p ↔ x = t) : a.successes k k' h p = 1 := by
  rw [← List.count_eq_one_of_mem hc.nodup ht]
  apply List.countP_congr
  intro x _
  rw [beq_iff_eq]
  exact hp x

theorem Act.succeeds_off (hr : k.running = some r) (hx : x ≠ r) (hregs : k'.regs x = k.regs x) :
    a.succeeds k k' h x = none := by
  apply Act.succeeds_same _ hregs
  intro hc
  exact hx (Option.some.inj (hc.2.symm.trans hr))

theorem Act.successes_caller (hc : Created k) (hr : k.running = some r)
    (hs : (k'.regs r).r0 = Status.success.code) (hx : ∀ x ≠ r, k'.regs x = k.regs x) :
    (Act.svc call).successes k k' h p = if p call then 1 else 0 := by
  have hcaller : (Act.svc call).succeeds k k' h r = some call := by
    rw [Act.succeeds_caller hr, if_pos hs]
  split_ifs with hp
  · apply Act.successes_one hc (hc.used r (.inl hr))
    intro x
    by_cases hxr : x = r
    · rw [hxr, hcaller]
      exact iff_of_true hp rfl
    · rw [Act.succeeds_off hr hxr (hx x hxr)]
      exact iff_of_false Bool.false_ne_true hxr
  · apply Act.successes_zero
    intro x
    by_cases hxr : x = r
    · rw [hxr, hcaller]
      exact Bool.eq_false_of_not_eq_true hp
    · rw [Act.succeeds_off hr hxr (hx x hxr)]
      rfl

theorem Act.successes_refused (hr : k.running = some r)
    (hs : (k'.regs r).r0 = Status.errorTo.code) (hx : ∀ x ≠ r, k'.regs x = k.regs x) :
    (Act.svc call).successes k k' h p = 0 := by
  apply Act.successes_zero
  intro x
  by_cases hxr : x = r
  · rw [hxr, Act.succeeds_caller hr, hs]
    rfl
  · rw [Act.succeeds_off hr hxr (hx x hxr)]
    rfl

end Successes

variable {h : SemaphoreHistory}

/-- The tasks on the list of the semaphore were refused a token, and there is none. -/
structure SemaphoreInv (k : Kernel) (h : SemaphoreHistory) (s : SemaphoreId) : Prop where
  empty : ∀ t, k.OnList (.semaphore s) t → (k.semaphore s).tokens = 0
  refused : ∀ t, k.OnList (.semaphore s) t → (k.regs t).r0 = Status.errorTo.code ∧
    ∃ timeout, h.asleep t = some (.semaphoreAcquire s timeout)

namespace SemaphoreInv
variable (hi : SemaphoreInv k h s)
include hi

/-- The release that hands a token to `t` grants the acquire that `t` sleeps in, and no other. -/
theorem granted (hw : Waits k h.toWaitHistory L) (hr : k.running = some r)
    (he : (Act.svc (.semaphoreRelease s)).Enabled k) (hl : k.OnList (.semaphore s) t)
    (hs : (k'.regs r).r0 = Status.success.code) (hst : (k'.regs t).r0 = Status.success.code)
    (hx : ∀ x ≠ r, x ≠ t → k'.regs x = k.regs x) (x : TaskId) :
    (((Act.svc (.semaphoreRelease s)).succeeds k k' h.toWaitHistory x).any
        (Svc.acquiresSemaphore s) ↔ x = t) ∧
      (((Act.svc (.semaphoreRelease s)).succeeds k k' h.toWaitHistory x).any
        (Svc.releasesSemaphore s) ↔ x = r) := by
  obtain ⟨hr0, timeout, hasleep⟩ := hi.refused t hl
  have hcall : ¬ ((Act.svc (.semaphoreRelease s)).isCall ∧ k.running = some t) := fun hc =>
    hw.not_calls he hc.1 (by simp [hw.pending_of_onList hl]) hc.2
  have htr : t ≠ r := by
    rintro rfl
    exact hcall ⟨rfl, hr⟩
  have hne : (k.regs t).r0 ≠ Status.success.code := by
    rw [hr0]
    decide
  by_cases hxt : x = t
  · rw [hxt, Act.succeeds_asleep hcall id hne hst, hasleep]
    simp [Svc.acquiresSemaphore, Svc.releasesSemaphore, htr]
  · by_cases hxr : x = r
    · rw [hxr, Act.succeeds_caller hr, if_pos hs]
      simp [Svc.acquiresSemaphore, Svc.releasesSemaphore, Ne.symm htr]
    · rw [Act.succeeds_off hr hxr (hx x hxr hxt)]
      simp [hxt, hxr]

/-- A step takes a token for each acquire that it lets succeed, and adds one for each release. -/
theorem balance (hm : SemaphoreStep k s k' a) (hs : machine.step k a k') (hf : Flagged k.toObjects)
    (hn : NextFree k) (hw : Waits k h.toWaitHistory L) (hc : Created k) (ha : a.SemaphoreSafe k) :
    (k'.semaphore s).tokens + a.successes k k' h.toWaitHistory (Svc.acquiresSemaphore s) =
      (k.semaphore s).tokens + a.successes k k' h.toWaitHistory (Svc.releasesSemaphore s) := by
  cases hm with
  | other htarget hm =>
    have hnone {p : Svc → Bool} (hp : ∀ call, p call → call.target = some (.semaphore s)) :
        a.successes k k' h.toWaitHistory p = 0 := by
      apply Act.successes_zero
      intro t
      apply Bool.eq_false_of_not_eq_true
      intro hany
      obtain ⟨call, hsucc, hpc⟩ := (Option.any_eq_true _ _).1 hany
      have hcall := hp call hpc
      exact htarget ((hw.target_of_succeeds hs hf hn hsucc (by simp [hcall])).trans hcall)
    rw [hm, hnone, hnone]
    all_goals
      intro call hp
      cases call <;> first | cases hp | exact congrArg _ (congrArg _ (of_decide_eq_true hp))
  | take hr ht hm hs' hx =>
    rw [hm, Act.successes_caller hc hr hs' hx, Act.successes_caller hc hr hs' hx]
    simp [Svc.acquiresSemaphore, Svc.releasesSemaphore]
    omega
  | refuse hr ht hm hs' hx =>
    rw [hm, Act.successes_refused hr hs' hx, Act.successes_refused hr hs' hx]
  | put hr hb hm _ hs' hx =>
    have hlt := ha.2 _ rfl hb
    rw [hm, Act.successes_caller hc hr hs' hx, Act.successes_caller hc hr hs' hx]
    simpa [Svc.acquiresSemaphore, Svc.releasesSemaphore] using hlt
  | @grant r t hr hb hm hb' hs' hst hx =>
    have hl : k.OnList (.semaphore s) t := Objects.onList_of_blocked hb
    have hg := hi.granted hw hr hs.1 hl hs' hst hx
    rw [hm, Act.successes_one hc (hc.mem_of_onList hw.blocked hl) fun x => (hg x).1,
      Act.successes_one hc (hc.used r (.inl hr)) fun x => (hg x).2]

theorem empty_step (hm : SemaphoreStep k s k' a) (hs : machine.step k a k')
    (hf : Flagged k.toObjects) (hn : NextFree k) (hw : Waits k h.toWaitHistory L)
    (hok : a.RestartsFree k) (ht : k'.OnList (.semaphore s) t) : (k'.semaphore s).tokens = 0 := by
  obtain ⟨-, hold⟩ := hw.onList_step hs hf hn hok ht
  cases hm with
  | other ha hm =>
    rw [hm]
    exact hi.empty t (hold.resolve_right fun h => ha h.2)
  | take hr htok _ _ _ hz =>
    have hold := hold.resolve_right fun h => by
      obtain ⟨⟨-, hr', hz'⟩, -⟩ := h
      cases hr.symm.trans hr'
      exact hz' hz
    have hzero := hi.empty t hold
    omega
  | refuse _ htok hm => rw [hm, htok]
  | put _ _ _ hb' => exact absurd ht (Objects.not_onList hb')
  | grant _ hb hm =>
    rw [hm]
    exact hi.empty _ (Objects.onList_of_blocked hb)

theorem refused_step (hm : SemaphoreStep k s k' a) (hs : machine.step k a k')
    (hf : Flagged k.toObjects) (hn : NextFree k) (hw : Waits k h.toWaitHistory L)
    (hok : a.RestartsFree k) (ht : k'.OnList (.semaphore s) t) :
    (k'.regs t).r0 = Status.errorTo.code ∧
      ∃ timeout, (h.record k a k').asleep t = some (.semaphoreAcquire s timeout) := by
  obtain ⟨-, hold | ⟨hsl, ha⟩⟩ := hw.onList_step hs hf hn hok ht
  · have hp := hw.pending_of_onList hold
    have hne : h.pending t ≠ none := by simp [hp]
    have hwk : ¬ a.Wakes k t := hw.not_wakes hn hok hold
    have hasleep : (h.record k a k').asleep t = h.asleep t :=
      WaitHistory.asleep_record (hw.not_sleeps hs.1 hne) hwk
    have hregs : k'.regs t = k.regs t := by
      cases hm with
      | other ha =>
        apply ((Act.run_waits hs.1 hs.2).framed hf hn).2
        exact hw.not_touches_of_ne hs.1 hp hwk ha
      | take hr _ _ _ hx | refuse hr _ _ _ hx | put hr _ _ _ _ hx =>
        exact hx t fun he => hw.not_calls hs.1 rfl hne (he ▸ hr)
      | grant hr hb _ hb' _ _ hx =>
        exact hx t (fun he => hw.not_calls hs.1 rfl hne (he ▸ hr)) fun he => hb' (he ▸ ht)
    rw [hregs, hasleep]
    exact hi.refused t hold
  · -- the acquire of this step, which blocks
    obtain ⟨-, hr, hz⟩ := id hsl
    have hasleep : (h.record k a k').asleep t = a.call? := WaitHistory.asleep_sleeps hsl
    cases hm with
    | other ha' => exact absurd ha ha'
    | refuse hr' _ _ hs' =>
      cases hr.symm.trans hr'
      exact ⟨hs', _, hasleep⟩
    | take hr' _ _ _ _ hz' | put hr' _ _ _ _ _ hz' | grant hr' _ _ _ _ _ _ hz' =>
      cases hr.symm.trans hr'
      exact absurd hz' hz

end SemaphoreInv

theorem SemaphoreInv.init (hk : machine.init k) (s : SemaphoreId) : SemaphoreInv k .start s := by
  obtain ⟨b, hb⟩ := hk
  have hempty {t : TaskId} (ht : k.OnList (.semaphore s) t) : False :=
    absurd ((b.start_unused hb).blockedInv.mem_iff.2 ht) (by simp)
  exact ⟨fun t ht => (hempty ht).elim, fun t ht => (hempty ht).elim⟩

theorem SemaphoreInv.step (hi : SemaphoreInv k h s) (hs : machine.step k a k')
    (hw : Waiting k h.toWaitHistory) (hok : a.RestartsFree k) :
    SemaphoreInv k' (h.record k a k') s := by
  obtain ⟨hf, hn, L, hw⟩ := hw
  have hm := Act.semaphoreStep hs hf hn hw.blocked s
  exact ⟨fun t ht => hi.empty_step hm hs hf hn hw hok ht,
    fun t ht => hi.refused_step hm hs hf hn hw hok ht⟩

abbrev semaphoreMachine (k₀ : Kernel) : System (Kernel × SemaphoreHistory) Act :=
  (machine.startingAt k₀).withHistory .start SemaphoreHistory.record

/-- The semaphore `s`, created with `tokens`, neither loses nor gains a token, keeps none while a
task waits for it, and hands those that are released to the tasks in the order in which they came
to wait. -/
structure ConservesTokens (k : Kernel) (h : SemaphoreHistory) (s : SemaphoreId) (tokens : Nat) :
    Prop where
  balance : (k.semaphore s).tokens + h.acquires s = tokens + h.releases s
  free : 0 < (k.semaphore s).tokens → k.blocked (.semaphore s) = none
  grants : ∀ k', machine.step k (.svc (.semaphoreRelease s)) k' →
    k.blocked (.semaphore s) ≠ none → ∃ t, k.OnList (.semaphore s) t ∧
      (∀ x, k.OnList (.semaphore s) x → x ≠ t → h.since t < h.since x) ∧
      ∀ x, ((Act.svc (.semaphoreRelease s)).succeeds k k' h.toWaitHistory x).any
        (Svc.acquiresSemaphore s) ↔ x = t

theorem semaphore_conserves {b : Boot} {k₀ : Kernel} (hb : b.start = .ok k₀)
    (hr : (semaphoreMachine k₀).Reach (fun p a => a.SemaphoreSafe p.1) (k, h)) (s : SemaphoreId) :
    ConservesTokens k h s ((b.semaphores s).tokens % 2 ^ 32) := by
  have hrun {p : Kernel × SemaphoreHistory} (hr : (semaphoreMachine k₀).Reach
      (fun p a => a.SemaphoreSafe p.1) p) : machine.Reach (fun _ _ => True) p.1 :=
    System.Reach.trans (.init ⟨b, hb⟩) (hr.forget.mono fun _ _ _ => trivial)
  have hinv : (Waiting k h.toWaitHistory ∧ SemaphoreInv k h s) ∧
      (k.semaphore s).tokens + h.acquires s =
        (b.semaphores s).tokens % 2 ^ 32 + h.releases s := by
    refine hr.history_invariant (J := fun k h => (Waiting k h.toWaitHistory ∧ SemaphoreInv k h s) ∧
      (k.semaphore s).tokens + h.acquires s =
        (b.semaphores s).tokens % 2 ^ 32 + h.releases s) ?_ ?_
    · rintro _ rfl
      refine ⟨⟨.init ⟨b, hb⟩, .init ⟨b, hb⟩ s⟩, ?_⟩
      rw [(b.start_unused hb).semaphore]
      rfl
    · intro k h a k' hr ⟨⟨hw, hi⟩, hbal⟩ ha hs
      refine ⟨⟨hw.step hs ha.1, hi.step hs hw ha.1⟩, ?_⟩
      obtain ⟨hf, hn, L, hw⟩ := hw
      have hstep := hi.balance (Act.semaphoreStep hs hf hn hw.blocked s) hs hf hn hw
        (reach_created (hrun hr)) ha
      simp only [SemaphoreHistory.record]
      omega
  obtain ⟨⟨⟨hf, hn, L, hw⟩, hi⟩, hbal⟩ := hinv
  constructor
  · exact hbal
  · intro htok
    by_contra hne
    obtain ⟨t, ht⟩ := Option.ne_none_iff_exists'.1 hne
    have hzero := hi.empty t (Objects.onList_of_blocked ht)
    omega
  · intro k' hs hb
    cases Act.semaphoreStep hs hf hn hw.blocked s with
    | other ha => exact absurd rfl ha
    | put _ hb' => exact absurd hb' hb
    | @grant r t hrun hb' hm hl' hs' hst hx =>
      have hl : k.OnList (.semaphore s) t := Objects.onList_of_blocked hb'
      exact ⟨t, hl, fun x hx hxt => hw.first hb' hx hxt,
        fun x => (hi.granted hw hrun hs.1 hl hs' hst hx x).1⟩

set_option maxRecDepth 10000 in
theorem semaphore_conserves_after_grant : ∃ (k : Kernel) (h : SemaphoreHistory),
    (k.regs 1).r0 = Status.success.code ∧ h.acquires 0 = 1 ∧
    ConservesTokens k h 0 (0 % 2 ^ 32) := by
  obtain ⟨k₀, k, h, hb, hr, hr0, hacq⟩ :=
    (Boot.simple [0, 16, 17] (by simp)).exists_recorded_from .start SemaphoreHistory.record
      (fun p a => ¬ a.restarts ∧ (a.target = none ∨ a.target = some (.semaphore 0)) ∧
        (p.1.semaphore 0).tokens + 1 < 2 ^ 32)
      (fun k h => (k.regs 1).r0 = Status.success.code ∧ h.acquires 0 = 1)
      [.schedule, .contextSwitch, .svc (.delay 3), .contextSwitch,
        .svc (.semaphoreAcquire 0 uint32Max), .contextSwitch, .clock 5 5, .systick,
        .contextSwitch, .svc (.semaphoreRelease 0)] (by decide)
  have hsafe : (semaphoreMachine k₀).Reach (fun p a => a.SemaphoreSafe p.1) (k, h) := by
    refine hr.mono fun p a ⟨hra, ht, hlt⟩ => ⟨.of_not_restarts hra, ?_⟩
    rintro s rfl -
    rcases ht with ht | ht <;> cases ht
    exact hlt
  exact ⟨k, h, hr0, hacq, semaphore_conserves hb hsafe 0⟩

end Osh
