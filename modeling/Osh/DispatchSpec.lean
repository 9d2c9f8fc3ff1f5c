import Osh.CreatedTasks

namespace Osh
open Function (update)
open Lib

variable {k k' : Kernel} {s s' : Sched} {o : Objects} {t running : TaskId} {w : Waitable}
  {l m r q : List TaskId} {L : Waitable → List TaskId} {n : Nat}

section Loops
variable {head previous first : Option TaskId} {nrp : TaskId → Option TaskId}
  {priority : TaskId → Nat}

theorem removeLoop_total (hc : Chain nrp first m) (hn : m.length ≤ n) :
    ∃ links, removeLoop t head nrp n previous first = .ok links := by
  induction m generalizing first previous n with
  | nil =>
    obtain rfl : first = none := hc
    exact ⟨_, by cases n <;> rfl⟩
  | cons b m ih =>
    obtain ⟨rfl, hb⟩ := chain_cons.1 hc
    cases n with
    | zero => simp at hn
    | succ n =>
      rw [removeLoop]
      split_ifs
      · exact ⟨_, rfl⟩
      · exact ⟨_, rfl⟩
      · exact ih hb (by simpa using hn)

theorem runqueueAddLoop_total (hc : Chain nrp first m) (hm : m ≠ []) (hn : m.length ≤ n) :
    ∃ links, runqueueAddLoop priority t head nrp n previous first = .ok links := by
  induction m generalizing first previous n with
  | nil => exact absurd rfl hm
  | cons b m ih =>
    obtain ⟨rfl, hb⟩ := chain_cons.1 hc
    cases n with
    | zero => simp at hn
    | succ n =>
      rw [runqueueAddLoop]
      split_ifs with _ _ hz
      · exact ⟨_, rfl⟩
      · exact ⟨_, rfl⟩
      · exact ⟨_, rfl⟩
      · refine ih hb ?_ (by simpa using hn)
        rintro rfl
        exact hz hb

theorem runqueueLength_eq (hc : Chain s.nrp first m) (hn : m.length ≤ n) :
    runqueueLength s n first = .ok m.length := by
  induction m generalizing first n with
  | nil =>
    obtain rfl : first = none := hc
    cases n <;> rfl
  | cons b m ih =>
    obtain ⟨rfl, hb⟩ := chain_cons.1 hc
    cases n with
    | zero => simp at hn
    | succ n =>
      rw [runqueueLength, ih hb (by simpa using hn)]
      rfl

theorem blockedRemoveLoop_total (hc : Chain o.nblocked first m) (hn : m.length ≤ n) :
    ∃ o', blockedRemoveLoop w t n o previous first = .ok o' := by
  induction m generalizing first previous n with
  | nil =>
    obtain rfl : first = none := hc
    exact ⟨_, by cases n <;> rfl⟩
  | cons b m ih =>
    obtain ⟨rfl, hb⟩ := chain_cons.1 hc
    cases n with
    | zero => simp at hn
    | succ n =>
      unfold blockedRemoveLoop
      split_ifs
      · exact ⟨_, rfl⟩
      · exact ih hb (by simpa using hn)

end Loops

theorem runqueueRemove_total (hl : Lists s r q) (hn : r.length ≤ s.bound) :
    ∃ s', runqueueRemove s t = .ok s' := by
  obtain ⟨links, h⟩ : ∃ links, removeLoop t s.runqueue s.nrp s.bound none s.runqueue = .ok links :=
    removeLoop_total hl.run hn
  exact ⟨{ s with runqueue := links.1, nrp := links.2 }, by simp only [runqueueRemove, h]; rfl⟩

theorem waitqueueRemove_total (hl : Lists s r q) (hn : q.length ≤ s.bound) :
    ∃ s', waitqueueRemove s t = .ok s' := by
  obtain ⟨links, h⟩ :
      ∃ links, removeLoop t s.waitqueue s.nrp s.bound none s.waitqueue = .ok links :=
    removeLoop_total hl.wait hn
  exact ⟨{ s with waitqueue := links.1, nrp := links.2 }, by simp only [waitqueueRemove, h]; rfl⟩

/-- The queue is walked to its end, where the cleared link of `t` may be. -/
theorem runqueueAdd_total_of_chain (hc : Chain (update s.nrp t none) s.runqueue l)
    (hn : l.length ≤ s.bound) (hst : s.status t ≠ .wait ∧ s.status t ≠ .finished) :
    ∃ s', runqueueAdd s t = .ok s' := by
  unfold runqueueAdd
  cases hr : s.runqueue with
  | none => exact ⟨_, rfl⟩
  | some head =>
    rw [hr] at hc
    obtain ⟨links, h⟩ : ∃ links, runqueueAddLoop s.priority t (some head) (update s.nrp t none)
        s.bound none (some head) = .ok links :=
      runqueueAddLoop_total hc (by rintro rfl; cases hc) hn
    refine ⟨{ s with runqueue := links.1, nrp := links.2 }, ?_⟩
    simp only [osAssert, if_pos hst, h]
    rfl

theorem runqueueAdd_total (hl : Lists s r q) (hn : r.length ≤ s.bound) (ht : t ∉ r)
    (hst : s.status t ≠ .wait ∧ s.status t ≠ .finished) :
    ∃ s', runqueueAdd s t = .ok s' :=
  runqueueAdd_total_of_chain (hl.run.update_of_notMem ht) hn hst

theorem detachList_total (hc : Chain o.nblocked (o.blocked w) l) (hn : l.length ≤ n) :
    ∃ o', detachList n o w t = .ok o' := by
  cases w with
  | queue q | semaphore s | rwlock r => exact blockedRemoveLoop_total hc hn
  | mutex m =>
    unfold detachList
    dsimp only
    split_ifs with hm
    · obtain ⟨post, rfl, hp⟩ := chain_some.1 (hm ▸ hc)
      have hc' : Chain (o.unlink (.mutex m) none t).nblocked
          ((o.unlink (.mutex m) none t).blocked (.mutex m)) post := by
        simpa [Objects.unlink] using Chain.unlink (l := []) hc
      simp only [List.length_cons] at hn
      exact blockedRemoveLoop_total hc' (by omega)
    · exact blockedRemoveLoop_total hc hn

@[simp] theorem dispatchAccount_bound : (dispatchAccount s running t).bound = s.bound := by
  simp [Sched.bound]

@[simp] theorem dispatchAccount_idle : (dispatchAccount s running t).idle = s.idle := by
  rw [dispatchAccount_eq]

theorem dispatchLeave_total (hl : Lists s r q) (hn : r.length ≤ s.bound) :
    ∃ s', dispatchLeave s running = .ok s' := by
  unfold dispatchLeave
  cases s.status running
  case active | idle | wait => exact ⟨_, rfl⟩
  all_goals exact runqueueRemove_total hl hn

theorem dispatchRequeue_total {old : TaskStatus} (hl : Lists s r q) (hr : r.length ≤ s.bound)
    (hq : q.length ≤ s.bound) (ht : old = .wait → t ∉ r) (hst : s.status t = .active) :
    ∃ s', dispatchRequeue s t old = .ok s' := by
  unfold dispatchRequeue
  split_ifs with hold
  · obtain ⟨s₁, h₁⟩ := waitqueueRemove_total (t := t) hl hq
    obtain ⟨hl₁, hs₁, -⟩ := waitqueueRemove_lists h₁ hl
    have hb : s₁.bound = s.bound := congrArg (fun l => List.length l + 1) hs₁.rest.tasks
    obtain ⟨s₂, h₂⟩ := runqueueAdd_total (t := t) hl₁ (hb ▸ hr) (ht hold) (by
      rw [hs₁.status, hst]
      decide)
    exact ⟨s₂, by simp only [h₁]; exact h₂⟩
  · exact ⟨_, rfl⟩

/-- The switch to `t` fails only for the idle task, when it is not alone in the run queue. -/
theorem dispatchSwitch_total (hq : Queues s r q) (hr : (dispatchRun s t r).length ≤ s.bound)
    (hw : q.length ≤ s.bound) (hne : running ≠ t) :
    (∃ s', dispatchSwitch s running t = .ok s') ↔
      (s.idle = some t → (dispatchRun s t r).length = 1) := by
  have hsub : r.length ≤ (dispatchRun s t r).length := by
    unfold dispatchRun insertByPriority
    split_ifs
    · rw [List.orderedInsert_length]
      exact Nat.le_succ _
    · exact Nat.le_refl _
  have htr : s.status t = .wait → t ∉ r := fun ht => hq.notMem_run (by rw [ht]; decide)
  obtain ⟨s₁, h₁⟩ : ∃ s₁, dispatchLeave s running = .ok s₁ :=
    dispatchLeave_total hq.toLists (hsub.trans hr)
  obtain ⟨hl₁, hs₁⟩ := dispatchLeave_spec h₁ hq.toLists hq.notMem_run
  have hb₁ : s₁.bound = s.bound := congrArg (fun l => List.length l + 1) hs₁.rest.tasks
  have hold : s₁.status t = s.status t := by
    rw [hs₁.status]
    exact Function.update_of_ne hne.symm _ _
  have hl₁' : Lists { s₁ with
      delay := update s₁.delay t 0, status := update s₁.status t .active } r q :=
    ⟨hl₁.run, hl₁.wait, hl₁.disjoint⟩
  obtain ⟨s₂, h₂⟩ : ∃ s₂, dispatchRequeue { s₁ with
      delay := update s₁.delay t 0
      status := update s₁.status t .active } t (s₁.status t) = .ok s₂ :=
    dispatchRequeue_total hl₁' ((hsub.trans hr).trans_eq hb₁.symm) (hw.trans_eq hb₁.symm)
      (by rw [hold]; exact htr) (Function.update_self ..)
  obtain ⟨hl₂, hs₂⟩ := dispatchRequeue_spec h₂ hl₁' (by rw [hold]; exact htr)
  rw [hold] at hl₂
  have hb₂ : s₂.bound = s.bound :=
    (congrArg (fun l => List.length l + 1) hs₂.rest.tasks).trans hb₁
  have hidle : s₂.idle = s.idle := hs₂.rest.idle.trans hs₁.rest.idle
  have hrun : dispatchRun s t r =
      if s.status t = .wait then insertByPriority s₁.priority t r else r := by
    rw [dispatchRun, hs₁.priority]
  have hcheck : dispatchIdleCheck (dispatchAccount s₂ running t) t =
      if s.idle = some t then osAssert .dispatchIdle ((dispatchRun s t r).length = 1)
      else .ok () := by
    have hlen : runqueueLength (dispatchAccount s₂ running t) s₂.bound s₂.runqueue =
        .ok (dispatchRun s t r).length := by
      refine runqueueLength_eq ?_ (hr.trans_eq hb₂.symm)
      rw [dispatchAccount_nrp, hrun]
      exact hl₂.run
    rw [dispatchIdleCheck, dispatchAccount_runqueue, dispatchAccount_bound, dispatchAccount_idle,
      hidle, hlen]
    rfl
  simp only [dispatchSwitch, bind_eq_ok, pure_eq_ok]
  constructor
  · rintro ⟨s', s₁', h₁', s₂', h₂', _, h₃, -⟩ hi
    cases h₁.symm.trans h₁'
    cases h₂.symm.trans h₂'
    rw [hcheck, if_pos hi] at h₃
    exact osAssert_eq_ok.1 h₃
  · intro hi
    refine ⟨_, s₁, h₁, s₂, h₂, (), ?_, rfl⟩
    rw [hcheck]
    split_ifs with he
    · exact osAssert_eq_ok.2 (hi he)
    · rfl

/-- What holds wherever `osi_dispatch` is called. -/
structure Callable (k : Kernel) (L : Waitable → List TaskId) : Prop where
  running : k.running ≠ none
  queued : Queued False k.toSched
  flagged : Flagged k.toObjects
  lists : BlockedInv k.toObjects L
  created : Created k

theorem Sched.length_le_bound (hn : l.Nodup) (hl : ∀ x ∈ l, x ∈ s.tasks) : l.length ≤ s.bound :=
  Nat.le_succ_of_le (List.subperm_of_subset hn hl).length_le

theorem Queues.used (hq : Queues s r q) {x : TaskId} (hx : x ∈ r ++ q) : s.Used x := by
  refine .inr (.inr fun he => ?_)
  rcases List.mem_append.1 hx with hx | hx
  · have hrun := hq.runnable x hx
    rw [he] at hrun
    cases hrun
  · rw [(hq.waiting x).1 hx] at he
    cases he

theorem Queues.length_le_bound (hq : Queues s r q) (hu : ∀ x, s.Used x → x ∈ s.tasks) :
    (r ++ q).length ≤ s.bound :=
  Sched.length_le_bound hq.toLists.nodup fun x hx => hu x (hq.used hx)

/-- `t` is detached from the one object that it is blocked on, and from nothing else. -/
structure DetachedFrom (k : Kernel) (t : TaskId) (k' : Kernel) : Prop where
  kind : ∃ w o, k.waitsOn w t = some w ∧ k.flags t = w.flag ∧ Relisted k.toObjects o ∧
    (∀ w' ≠ w, o.blocked w' = k.blocked w') ∧ k'.toObjects = o.clear w t
  offList : ∀ w, ¬ k'.OnList w t
  pointers : k'.taskMutex t = none ∧ k'.taskQueue t = none ∧ k'.taskSemaphore t = none ∧
    k'.taskRwlock t = none
  link : k'.nblocked t = none
  flags : k'.flags t = 0
  others : ∀ w l, Chain k.nblocked (k.blocked w) l →
    Chain k'.nblocked (k'.blocked w) (l.erase t)

def Sched.RunsAlone (s : Sched) (t : TaskId) : Prop :=
  ∀ r, Chain s.nrp s.runqueue r → if s.status t = .wait then r = [] else r.length = 1

/-- `t` can be dispatched: it points to no semaphore, does not run, and is alone if it is the idle
task. -/
structure DispatchSafe (k : Kernel) (t : TaskId) : Prop where
  semaphore : k.taskSemaphore t = none
  running : k.running ≠ some t
  idle : k.idle = some t → k.RunsAlone t

theorem Queues.nodup_dispatchRun (hq : Queues s r q) : (dispatchRun s t r).Nodup := by
  unfold dispatchRun
  split_ifs with hw
  · have ht : t ∉ r := hq.notMem_run (by rw [hw]; decide)
    exact (List.perm_orderedInsert _ t r).nodup_iff.2 (List.nodup_cons.2 ⟨ht, hq.nodup_run⟩)
  · exact hq.nodup_run

theorem length_dispatchRun : (dispatchRun s t r).length = 1 ↔
    if s.status t = .wait then r = [] else r.length = 1 := by
  unfold dispatchRun insertByPriority
  split_ifs
  · rw [List.orderedInsert_length, Nat.add_eq_right, List.length_eq_zero_iff]
  · rfl

theorem Flagged.waits (hf : Flagged o) (ht : o.flags t ≠ 0) :
    ∃ w, o.waitsOn w t = some w ∧ o.flags t = w.flag := by
  have hrange := hf.range t
  have hcases : o.flags t = 1 ∨ o.flags t = 2 ∨ o.flags t = 3 ∨ o.flags t = 4 := by omega
  rcases hcases with h | h | h | h
  · obtain ⟨m, hm⟩ := Option.ne_none_iff_exists'.1 ((hf.mutex t).2 h)
    exact ⟨.mutex m, by simp [hm], h⟩
  · obtain ⟨q, hq⟩ := Option.ne_none_iff_exists'.1 ((hf.queue t).2 h)
    exact ⟨.queue q, by simp [hq], h⟩
  · obtain ⟨s, hs⟩ := Option.ne_none_iff_exists'.1 (hf.semaphore t h)
    exact ⟨.semaphore s, by simp [hs], h⟩
  · obtain ⟨l, hl⟩ := Option.ne_none_iff_exists'.1 ((hf.rwlock t).2 h)
    exact ⟨.rwlock l, by simp [hl], h⟩

theorem detachList_blocked {o' : Objects} {w' : Waitable} (h : detachList n o w t = .ok o')
    (hc : Chain o.nblocked (o.blocked w) l) (hw : w' ≠ w) : o'.blocked w' = o.blocked w' := by
  rcases detachList_spec h hc with ⟨-, rfl⟩ | ⟨pre, post, -, rfl⟩
  · rfl
  · exact Function.update_of_ne hw _ _

namespace Callable
variable (hc : Callable k L)
include hc

theorem dispatchSwitch_iff (ht : t ∈ k.tasks) (hne : running ≠ t) :
    (∃ s, dispatchSwitch k.toSched running t = .ok s) ↔ (k.idle = some t → k.RunsAlone t) := by
  obtain ⟨r, q, hq, -⟩ := hc.queued
  have hused {x : TaskId} (hx : k.status x ≠ .finished) : x ∈ k.tasks :=
    hc.created.used x (.inr (.inr hx))
  have hr : (dispatchRun k.toSched t r).length ≤ k.bound := by
    apply Sched.length_le_bound hq.nodup_dispatchRun
    intro x hx
    rcases mem_dispatchRun.1 hx with hx | ⟨-, rfl⟩
    · apply hused
      intro hst
      have hrun := hq.runnable x hx
      rw [hst] at hrun
      cases hrun
    · exact ht
  have hw : q.length ≤ k.bound := by
    refine Sched.length_le_bound hq.nodup_wait fun x hx => hused ?_
    rw [(hq.waiting x).1 hx]
    decide
  rw [dispatchSwitch_total hq hr hw hne, length_dispatchRun]
  refine imp_congr_right fun _ => ⟨fun h r' hr' => ?_, fun h => h r hq.run⟩
  rwa [← hq.run.unique hr']

/-- A blocked task is dispatched and detached from its object exactly if that is safe. -/
theorem dispatch_iff (ht : k.flags t ≠ 0) :
    (∃ k', osiDispatch k t = .ok k' ∧ DetachedFrom k t k') ↔ DispatchSafe k t := by
  constructor
  · rintro ⟨k', hd, hdet⟩
    rcases osiDispatch_eq_ok.1 hd with ⟨-, rfl⟩ | ⟨r, o, s, hr, hne, ho, hs, rfl⟩
    · exact absurd hdet.flags ht
    · constructor
      · rcases (dispatchDetach_eq_ok hc.flagged).1 ho with ⟨hz, -⟩ | ⟨w, o₁, -, -, hsem, -⟩
        · exact absurd hz ht
        · exact hsem
      · exact fun he => hne (Option.some.inj (hr.symm.trans he))
      · exact (hc.dispatchSwitch_iff (hc.created.blocked t ht) hne).1 ⟨s, hs⟩
  · rintro ⟨hsem, hrun, hidle⟩
    obtain ⟨r, hr⟩ := Option.ne_none_iff_exists'.1 hc.running
    have hne : r ≠ t := fun he => hrun (he ▸ hr)
    obtain ⟨s, hs⟩ := (hc.dispatchSwitch_iff (hc.created.blocked t ht) hne).2 hidle
    obtain ⟨w, hw, hfw⟩ := hc.flagged.waits ht
    obtain ⟨o₁, ho₁⟩ := detachList_total (t := t) (hc.lists.lists.chain w)
      (Sched.length_le_bound (hc.lists.lists.nodup w) fun x hx =>
        hc.created.mem_of_onList hc.lists (hc.lists.mem_iff.1 hx))
    have ho : dispatchDetach k.bound k.toObjects t = .ok (o₁.clear w t) :=
      (dispatchDetach_eq_ok hc.flagged).2 (.inr ⟨w, o₁, hw, hfw, hsem, ho₁, rfl⟩)
    have hdet : Detaches k.toObjects t { o₁.clear w t with
        flags := update (o₁.clear w t).flags t 0 } := ⟨_, _, ho, rfl⟩
    have hclear : { o₁.clear w t with flags := update (o₁.clear w t).flags t 0 } =
        o₁.clear w t := by
      rw [← Objects.clear_flags, Function.update_eq_self]
    rw [hclear] at hdet
    have hi' := hdet.blockedInv hc.flagged hc.lists
    have hnot (w' : Waitable) : t ∉ (L w').erase t := (hc.lists.lists.nodup w').not_mem_erase
    have hfields := (hdet.fields hc.flagged).1
    refine ⟨_, osiDispatch_eq_ok.2 (.inr ⟨r, _, s, hr, hne, ho, hs, rfl⟩), ?_⟩
    rw [hclear]
    refine ⟨⟨w, o₁, hw, hfw, detachList_relisted ho₁,
      fun w' => detachList_blocked ho₁ (hc.lists.lists.chain w), rfl⟩,
      fun w' hl => hnot w' (hi'.mem_iff.2 hl), ?_, hi'.lists.unlinked t hnot, Objects.clear_flags,
      fun w' l hl => ?_⟩
    · dsimp only
      rw [hfields]
      simp [hsem]
    · rw [hl.unique (hc.lists.lists.chain w')]
      exact hi'.lists.chain w'

end Callable

end Osh
