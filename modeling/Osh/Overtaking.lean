import Osh.Lib.Ordered
import Osh.MutexRuns
import Osh.QueueOnlyRuns
import Osh.SemaphoreRuns
import Osh.Survival

namespace Osh
open Function (update)
open Lib

variable {k k' k₀ : Kernel} {t x : TaskId} {w : Waitable} {a : Act} {m : MutexId}
  {s : SemaphoreId} {q : QueueId} {n : Nat} {L : Waitable → List TaskId}
  {pre pre' post : List TaskId}
  {ok : Kernel → Act → Prop}

/-- `t` is on the list of `w`, behind the tasks `pre`. -/
def InLine (k : Kernel) (w : Waitable) (t : TaskId) (pre : List TaskId) : Prop :=
  ∃ post, Chain k.nblocked (k.blocked w) (pre ++ t :: post)

theorem InLine.mem (hi : BlockedInv k.toObjects L) (hk : InLine k w t pre) : t ∈ L w := by
  obtain ⟨post, hc⟩ := hk
  rw [(hi.lists.chain w).unique hc]
  simp

/-- Whatever a step adds to a list comes last. -/
theorem Relists.sublist {L₁ : Waitable → List TaskId} (h : Relists k k' L a L₁)
    (he : a.Enabled k) (hn : NextFree k) (hi : BlockedInv k.toObjects L) :
    (L₁ w).Sublist (L w) ∨ ∃ r, r ∉ L w ∧ L₁ w = L w ++ [r] := by
  cases h with
  | same => exact .inl (List.Sublist.refl _)
  | @leave _ w' l l' y _ _ hw =>
    by_cases hww : w = w'
    · subst hww
      rw [Function.update_self, hw]
      exact .inl (List.Sublist.append_left (List.sublist_cons_self y l') l)
    · rw [Function.update_of_ne hww]
      exact .inl (List.Sublist.refl _)
  | @join call w' r y _ hr =>
    by_cases hww : w = w'
    · subst hww
      rw [Function.update_self]
      exact .inr ⟨r, hi.notMem (hn r ((next_of_none he).trans hr)) w, rfl⟩
    · rw [Function.update_of_ne hww]
      exact .inl (List.Sublist.refl _)

/-- A step lets no task get in front of another one in a list. -/
theorem InLine.step (hk : InLine k w t pre) (hf : Flagged k.toObjects) (hn : NextFree k)
    (hi : BlockedInv k.toObjects L) (hs : machine.step k a k') (hok : a.RestartsFree k)
    (ht : k'.OnList w t) : ∃ pre', InLine k' w t pre' ∧ pre'.Sublist pre := by
  obtain ⟨post, hc⟩ := hk
  have hL : L w = pre ++ t :: post := (hi.lists.chain w).unique hc
  obtain ⟨L₁, hrel, hi'⟩ := (Act.run_waits hs.1 hs.2).blockedInv hs.1 hf hn hi hok
  obtain ⟨pre', post', hL'⟩ := List.append_of_mem (hi'.mem_iff.2 ht)
  have hc' : Chain k'.nblocked (k'.blocked w) (pre' ++ t :: post') := hL' ▸ hi'.lists.chain w
  refine ⟨pre', ⟨post', hc'⟩, ?_⟩
  have hnd := hi.lists.nodup w
  have hsub : (pre' ++ t :: post').Sublist (L₁ w) := hL' ▸ List.filter_sublist
  rcases hrel.sublist (w := w) hs.1 hn hi with hold | ⟨r, hr, hnew⟩
  · rw [hL] at hold hnd
    exact sublist_before hnd (hsub.trans hold)
  · rw [hnew, hL, List.append_assoc] at hsub
    rw [hL] at hnd hr
    have hall : ((pre ++ t :: post) ++ [r]).Nodup :=
      List.nodup_append.2 ⟨hnd, List.nodup_singleton r, fun y hy z hz => by
        rw [List.mem_singleton.1 hz]
        exact ne_of_mem_of_not_mem hy hr⟩
    rw [List.append_assoc] at hall
    exact sublist_before hall hsub

theorem InLine.served (hk : InLine k w t pre) (hk' : InLine k' w t pre')
    (hsub : pre'.Sublist pre) (hx : k.blocked w = some x) (hoff : ¬ k'.OnList w x) :
    x ∈ pre ∧ pre'.length < pre.length := by
  obtain ⟨post, hc⟩ := hk
  obtain ⟨post', hc'⟩ := hk'
  have hmem {y : TaskId} (hy : y ∈ pre' ++ t :: post') : k'.OnList w y := hc'.mem_iff.1 hy
  cases pre with
  | nil =>
    rw [hx] at hc
    obtain ⟨hxt, -⟩ := chain_cons.1 hc
    obtain rfl := Option.some.inj hxt
    exact absurd (hmem (by simp)) hoff
  | cons y pre =>
    rw [hx] at hc
    obtain ⟨hxy, -⟩ := chain_cons.1 hc
    obtain rfl := Option.some.inj hxy
    refine ⟨List.mem_cons_self, lt_of_le_of_ne hsub.length_le fun hlen => ?_⟩
    rw [hsub.eq_of_length hlen] at hmem
    exact hoff (hmem (by simp))

section Runs
variable {served : Kernel → Act → Kernel → Prop} [∀ k a k', Decidable (served k a k')]

def countServed (served : Kernel → Act → Kernel → Prop) [∀ k a k', Decidable (served k a k')]
    (n : Nat) (k : Kernel) (a : Act) (k' : Kernel) : Nat :=
  if served k a k' then n + 1 else n

theorem countServed_step {ok : Kernel × Nat → Act → Prop}
    (hk : ((machine.startingAt k₀).withHistory 0 (countServed served)).Reach ok (k, n))
    (ha : ok (k, n) a) (hs : machine.step k a k') :
    ((machine.startingAt k₀).withHistory 0 (countServed served)).Reach ok
      (k', countServed served n k a k') :=
  .step hk ha ⟨hs, rfl⟩

/-- While `t` is on a list that is served from its head, no more tasks are served than were in front
of `t`. -/
theorem served_within {J : Kernel → Prop} (h₀ : machine.Reach ok k₀)
    (hok : ∀ k a, ok k a → a.RestartsFree k) (hJ : J k₀) (hline : InLine k₀ w t pre)
    (hstep : ∀ k a k' pre', machine.Reach ok k → ok k a → machine.step k a k' →
      InLine k w t pre' → pre'.Sublist pre → J k → (served k a k' → ∃ x, k.blocked w = some x ∧
        ¬ k'.OnList w x) ∧ (k'.OnList w t → J k'))
    (hk : ((machine.startingAt k₀).withHistory 0 (countServed served)).Reach
      (fun p a => ok p.1 a ∧ p.1.OnList w t) (k, n))
    (ht : k.OnList w t) : n ≤ pre.length ∧ J k := by
  have hreach {k : Kernel} {n : Nat}
      (hk : ((machine.startingAt k₀).withHistory 0 (countServed served)).Reach
        (fun p a => ok p.1 a ∧ p.1.OnList w t) (k, n)) : machine.Reach ok k :=
    h₀.trans (hk.forget.mono fun _ _ ⟨_, ha⟩ => ha.1)
  have hinv : k.OnList w t → ∃ pre', InLine k w t pre' ∧ pre'.Sublist pre ∧
      n + pre'.length ≤ pre.length ∧ J k := by
    apply hk.history_invariant (J := fun k n => k.OnList w t → ∃ pre', InLine k w t pre' ∧
      pre'.Sublist pre ∧ n + pre'.length ≤ pre.length ∧ J k)
    · rintro k rfl -
      exact ⟨pre, hline, List.Sublist.refl _, by omega, hJ⟩
    · intro k n a k' hk ih ⟨ha, hon⟩ hs hon'
      obtain ⟨pre₁, hline₁, hsub₁, hle, hJk⟩ := ih hon
      obtain ⟨hserve, hJ'⟩ := hstep k a k' pre₁ (hreach hk) ha hs hline₁ hsub₁ hJk
      obtain ⟨hf, hn⟩ := reach_flagged (hreach hk)
      obtain ⟨L, hi⟩ := reach_blocked (hreach hk) hok
      obtain ⟨pre₂, hline₂, hsub₂⟩ := hline₁.step hf hn hi hs (hok k a ha) hon'
      refine ⟨pre₂, hline₂, hsub₂.trans hsub₁, ?_, hJ' hon'⟩
      have hlen := hsub₂.length_le
      unfold countServed
      split_ifs with hc
      · obtain ⟨x, hx, hoff⟩ := hserve hc
        have hlt := (hline₁.served hline₂ hsub₂ hx hoff).2
        omega
      · omega
  obtain ⟨pre', -, -, hle, hJk⟩ := hinv ht
  exact ⟨by omega, hJk⟩

end Runs

section Mutexes

theorem reach_mutex_held (h : machine.Reach (fun k a => a.MutexSafe k) k)
    (ht : k.OnList (.mutex m) t) : (k.mutex m).owner ≠ none ∧ (k.mutex m).level ≠ 0 := by
  have hhist : ∃ h, mutexMachine.Reach (fun p a => a.MutexSafe p.1) (k, h) :=
    h.exists_history fun _ _ _ _ ha => ha
  obtain ⟨h, hh⟩ := hhist
  have hi := (reach_mutexInv hh).2 m
  have howner := hi.waits t ht
  exact ⟨howner, fun hl => howner (hi.free.2 hl)⟩

/-- While `t` waits for a mutex, it changes hands no more often than tasks were in front of `t`, and
only those get it. -/
theorem mutex_overtaken_within (h : machine.Reach (fun k a => a.MutexSafe k) k₀)
    (hl : Chain k₀.nblocked (k₀.blocked (.mutex m)) (pre ++ t :: post))
    (hk : ((machine.startingAt k₀).withHistory 0 (countServed fun k _ k' =>
      (k'.mutex m).owner ≠ (k.mutex m).owner)).Reach
        (fun p a => a.MutexSafe p.1 ∧ p.1.OnList (.mutex m) t) (k, n))
    (ht : k.OnList (.mutex m) t) :
    n ≤ pre.length ∧
      ((k.mutex m).owner = (k₀.mutex m).owner ∨ ∃ x ∈ pre, (k.mutex m).owner = some x) := by
  refine served_within (J := fun k =>
    (k.mutex m).owner = (k₀.mutex m).owner ∨ ∃ x ∈ pre, (k.mutex m).owner = some x) h
    (fun _ _ ha => ha.1) (.inl rfl) ⟨post, hl⟩ ?_ hk ht
  intro k a k' pre' hr ha hs hline hsub hJ
  obtain ⟨hf, hn⟩ := reach_flagged hr
  obtain ⟨L, hi⟩ := reach_blocked hr fun _ _ ha => ha.1
  obtain ⟨howner, hlevel⟩ := reach_mutex_held hr (hi.mem_iff.1 (hline.mem hi))
  have hkeeps (hm : (k'.mutex m).owner = (k.mutex m).owner) :
      ((k'.mutex m).owner ≠ (k.mutex m).owner → ∃ x, k.blocked (.mutex m) = some x ∧
        ¬ k'.OnList (.mutex m) x) ∧ (k'.OnList (.mutex m) t →
          (k'.mutex m).owner = (k₀.mutex m).owner ∨ ∃ x ∈ pre, (k'.mutex m).owner = some x) := by
    rw [hm]
    exact ⟨fun hne => absurd rfl hne, fun _ => hJ⟩
  cases Act.mutexStep hs hf hn hi m with
  | other _ hm | full _ _ _ hm | refuse _ _ _ hm => exact hkeeps (by rw [hm])
  | again _ _ _ hm | nested _ _ _ hm => exact hkeeps (by rw [hm])
  | acquire _ hz => exact absurd hz hlevel
  | free _ _ _ hb => exact absurd (hi.mem_iff.1 (hline.mem hi)) (Objects.not_onList hb)
  | @grant r x _ _ _ hb hm hoff =>
    refine ⟨fun _ => ⟨x, hb, hoff⟩, fun hon => .inr ⟨x, ?_, by rw [hm]⟩⟩
    obtain ⟨pre₂, hline₂, hsub₂⟩ := hline.step hf hn hi hs ha.1 hon
    exact hsub.subset (hline.served hline₂ hsub₂ hb hoff).1

set_option maxRecDepth 10000 in
theorem mutex_overtaken_within_second : ∃ (k₀ k : Kernel) (n : Nat),
    k₀.nblocked 2 = some 3 ∧ (k.mutex 0).owner = some 2 ∧ k.OnList (.mutex 0) 3 ∧ n = 1 ∧
    n ≤ [2].length := by
  obtain ⟨k₀, hk₀, h2, h3, hnone, hend⟩ := (Boot.simple [0, 16, 16, 16] (by simp)).exists_after
    (fun k a => ¬ a.restarts ∧ (a.target = none ∨ a.target = some (.mutex 0)) ∧
      (k.mutex 0).level + 1 < 2 ^ 16)
    (fun k => k.blocked (.mutex 0) = some 2 ∧ k.nblocked 2 = some 3 ∧ k.nblocked 3 = none ∧
      (runRecorded (countServed fun k _ k' => (k'.mutex 0).owner ≠ (k.mutex 0).owner)
        (fun p a => (¬ a.restarts ∧ a = .svc (.mutexRelease 0)) ∧
          p.1.blocked (.mutex 0) = some 2 ∧ p.1.nblocked 2 = some 3) k 0
        [.svc (.mutexRelease 0)]).any fun p =>
          (p.1.mutex 0).owner = some 2 ∧ p.1.blocked (.mutex 0) = some 3 ∧ p.2 = 1)
    [.schedule, .contextSwitch, .svc (.mutexAcquire 0 0), .systick, .contextSwitch,
      .svc (.mutexAcquire 0 uint32Max), .contextSwitch, .systick, .contextSwitch,
      .svc (.mutexAcquire 0 uint32Max), .contextSwitch] (by decide)
  obtain ⟨⟨k, n⟩, hk, hp⟩ := (Option.any_eq_true _ _).1 hend
  obtain ⟨howner, hb, hn⟩ := of_decide_eq_true hp
  have hsafe : machine.Reach (fun k a => a.MutexSafe k) k₀ := by
    apply hk₀.mono
    rintro k a ⟨hra, ht, hl⟩
    refine ⟨.of_not_restarts hra, ?_⟩
    rintro m timeout rfl -
    rcases ht with ht | ht <;> cases ht
    exact hl
  have hreach : ((machine.startingAt k₀).withHistory 0 (countServed fun k _ k' =>
      (k'.mutex 0).owner ≠ (k.mutex 0).owner)).Reach
        (fun p a => a.MutexSafe p.1 ∧ p.1.OnList (.mutex 0) 3) (k, n) := by
    apply (runRecorded_reach (S := machine.startingAt k₀) rfl (.init ⟨rfl, rfl⟩) hk).mono
    rintro p a ⟨⟨hra, rfl⟩, hb, h2⟩
    exact ⟨⟨.of_not_restarts hra, fun _ _ he => by cases he⟩, [2], hb, h2⟩
  have hchain : Chain k₀.nblocked (k₀.blocked (.mutex 0)) ([2] ++ 3 :: []) := by
    rw [h2]
    exact chain_cons.2 ⟨rfl, chain_cons.2 ⟨h3, chain_nil.2 hnone⟩⟩
  have hon : k.OnList (.mutex 0) 3 := Objects.onList_of_blocked hb
  exact ⟨k₀, k, n, h3, howner, hon, hn, (mutex_overtaken_within hsafe hchain hreach hon).1⟩

end Mutexes

section Semaphores

theorem reach_semaphore_empty (h : machine.Reach ok k) (hok : ∀ k a, ok k a → a.RestartsFree k)
    (ht : k.OnList (.semaphore s) t) : (k.semaphore s).tokens = 0 := by
  have hhist : ∃ h, (machine.withHistory SemaphoreHistory.start SemaphoreHistory.record).Reach
      (fun p a => a.RestartsFree p.1) (k, h) := h.exists_history fun k _ a _ ha => hok k a ha
  obtain ⟨h, hh⟩ := hhist
  have hinv : Waiting k h.toWaitHistory ∧ SemaphoreInv k h s := by
    refine hh.history_invariant
      (J := fun k h => Waiting k h.toWaitHistory ∧ SemaphoreInv k h s) ?_ ?_
    · exact fun k hk => ⟨.init hk, .init hk s⟩
    · exact fun k h a k' _ ⟨hw, hi⟩ ha hs => ⟨hw.step hs ha, hi.step hs hw ha⟩
  exact hinv.2.empty t ht

def Act.Serves (k k' : Kernel) (s : SemaphoreId) (a : Act) : Prop :=
  (k'.semaphore s).tokens < (k.semaphore s).tokens ∨
    a.target = some (.semaphore s) ∧ a.grantee k.toObjects ≠ none

instance : Decidable (a.Serves k k' s) :=
  inferInstanceAs (Decidable ((k'.semaphore s).tokens < (k.semaphore s).tokens ∨
    a.target = some (.semaphore s) ∧ ¬ a.grantee k.toObjects = none))

/-- While `t` waits for a semaphore, no more tokens are given to other tasks than tasks were in
front of `t`. -/
theorem semaphore_overtaken_within (h : machine.Reach (fun k a => a.RestartsFree k) k₀)
    (hl : Chain k₀.nblocked (k₀.blocked (.semaphore s)) (pre ++ t :: post))
    (hk : ((machine.startingAt k₀).withHistory 0 (countServed fun k a k' =>
      a.Serves k k' s)).Reach
        (fun p a => a.RestartsFree p.1 ∧ p.1.OnList (.semaphore s) t) (k, n))
    (ht : k.OnList (.semaphore s) t) : n ≤ pre.length := by
  refine (served_within (J := fun _ => True) h
    (fun _ _ ha => ha) trivial ⟨post, hl⟩ ?_ hk ht).1
  intro k a k' pre' hr ha hs hline hsub _
  refine ⟨fun hserve => ?_, fun _ => trivial⟩
  obtain ⟨hf, hn⟩ := reach_flagged hr
  obtain ⟨L, hi⟩ := reach_blocked hr fun _ _ ha => ha
  have hempty := reach_semaphore_empty hr (fun _ _ ha => ha) (hi.mem_iff.1 (hline.mem hi))
  have hgrant : a.target = some (.semaphore s) ∧ a.grantee k.toObjects ≠ none := by
    apply hserve.resolve_left
    rw [hempty]
    exact Nat.not_lt_zero _
  cases Act.semaphoreStep hs hf hn hi s with
  | other hne => exact absurd hgrant.1 hne
  | take | refuse => exact absurd rfl hgrant.2
  | put _ hb => exact absurd hb hgrant.2
  | @grant r x _ hb _ hoff => exact ⟨x, hb, hoff⟩

set_option maxRecDepth 10000 in
theorem semaphore_overtaken_within_second : ∃ (k₀ k : Kernel) (n : Nat),
    k₀.nblocked 2 = some 3 ∧ k.OnList (.semaphore 0) 3 ∧ n = 1 ∧ n ≤ [2].length := by
  obtain ⟨k₀, hk₀, h2, h3, hnone, hend⟩ := (Boot.simple [0, 16, 15, 15] (by simp)).exists_after
    (fun _ a => ¬ a.restarts)
    (fun k => k.blocked (.semaphore 0) = some 2 ∧ k.nblocked 2 = some 3 ∧ k.nblocked 3 = none ∧
      (runRecorded (countServed fun k a k' => a.Serves k k' 0)
        (fun p a => ¬ a.restarts ∧ p.1.blocked (.semaphore 0) = some 2 ∧
          p.1.nblocked 2 = some 3) k 0 [.svc (.semaphoreRelease 0)]).any fun p =>
            p.1.blocked (.semaphore 0) = some 3 ∧ p.2 = 1)
    [.schedule, .contextSwitch, .svc (.queueDequeue 0 uint32Max), .contextSwitch,
      .svc (.semaphoreAcquire 0 uint32Max), .contextSwitch,
      .svc (.semaphoreAcquire 0 uint32Max), .contextSwitch, .enqueueIsr 0 7, .contextSwitch]
    (by decide)
  obtain ⟨⟨k, n⟩, hk, hp⟩ := (Option.any_eq_true _ _).1 hend
  obtain ⟨hb, hn⟩ := of_decide_eq_true hp
  have hfree : machine.Reach (fun k a => a.RestartsFree k) k₀ := by
    apply hk₀.mono
    exact fun k a ha => .of_not_restarts ha
  have hreach : ((machine.startingAt k₀).withHistory 0 (countServed fun k a k' =>
      a.Serves k k' 0)).Reach
        (fun p a => a.RestartsFree p.1 ∧ p.1.OnList (.semaphore 0) 3) (k, n) := by
    apply (runRecorded_reach (S := machine.startingAt k₀) rfl (.init ⟨rfl, rfl⟩) hk).mono
    rintro p a ⟨hra, hb, h2⟩
    exact ⟨.of_not_restarts hra, [2], hb, h2⟩
  have hchain : Chain k₀.nblocked (k₀.blocked (.semaphore 0)) ([2] ++ 3 :: []) := by
    rw [h2]
    exact chain_cons.2 ⟨rfl, chain_cons.2 ⟨h3, chain_nil.2 hnone⟩⟩
  have hon : k.OnList (.semaphore 0) 3 := Objects.onList_of_blocked hb
  exact ⟨k₀, k, n, h3, hon, hn, semaphore_overtaken_within hfree hchain hreach hon⟩

end Semaphores

section Queues

/-- An enqueue or a dequeue of `q` reports success at once. -/
def Act.Exchanges (k k' : Kernel) (q : QueueId) (a : Act) : Prop :=
  a.target = some (.queue q) ∧ a.report k k' = some Status.success.code

instance : Decidable (a.Exchanges k k' q) :=
  inferInstanceAs (Decidable (a.target = some (.queue q) ∧
    a.report k k' = some Status.success.code))

end Queues

section Rwlocks
variable {l : RwlockId} {r : TaskId}

theorem grantReadersLoop_skips {previous head : Option TaskId} (hc : Chain k.nblocked head pre)
    (hx : ∀ x ∈ pre, k.c x ≠ desiredRead) (hn : pre.length ≤ n) :
    grantReadersLoop l n k previous head = .ok k := by
  induction pre generalizing n previous head with
  | nil =>
    obtain rfl := chain_nil.1 hc
    cases n <;> rfl
  | cons x pre ih =>
    obtain ⟨rfl, hnext⟩ := chain_cons.1 hc
    cases n with
    | zero => cases hn
    | succ n =>
      unfold grantReadersLoop
      rw [if_neg (hx x List.mem_cons_self)]
      exact ih hnext (fun y hy => hx y (List.mem_cons_of_mem _ hy)) (Nat.le_of_succ_le_succ hn)

/-- `r` runs and holds no pointer to a lock, and nobody who waits for `l` wants to read. -/
structure AmongWriters (k : Kernel) (l : RwlockId) (r : TaskId) : Prop where
  scheduled : k.scheduled = none
  running : k.running = some r
  pointer : k.taskRwlock r = none
  waiting : ∃ m, Chain k.nblocked (k.blocked (.rwlock l)) m ∧ m.length ≤ k.bound ∧
    ∀ x ∈ m, k.c x ≠ desiredRead

namespace AmongWriters
variable (hk : AmongWriters k l r)
include hk

theorem acquires (hw : (k.rwlock l).writers = 0) : osiRwlockAcquireRead k l 0 =
    .ok ({ k with toObjects := k.setRwlock l (k.rwlock l).addReader }, .success) := by
  have hpointer : k.taskRwlock r = none ∨ k.taskRwlock r = some l := .inl hk.pointer
  rw [osiRwlockAcquireRead, Kernel.self_eq_ok.2 hk.running, ok_bind, osAssert_true hpointer,
    ok_bind]
  exact if_pos hw

theorem releases (hrd : 1 < (k.rwlock l).readers) (hw : (k.rwlock l).writers = 0) :
    osiRwlockRelease k l =
      .ok ({ k with toObjects := k.setRwlock l (k.rwlock l).drop }, .success) := by
  obtain ⟨pre, hm, hlen, hx⟩ := hk.waiting
  have hheld : (k.rwlock l).readers > 0 ∨ (k.rwlock l).writers = 1 := .inl (by omega)
  have howner : (k.rwlock l).writers > 0 → (k.rwlock l).writer = some r := by omega
  have hlast : ¬ (k.rwlock l).readers - 1 = 0 := by omega
  simp only [osiRwlockRelease, Kernel.self_eq_ok.2 hk.running, ok_bind, osAssert_true hheld,
    osAssert_true howner, Rwlock.drop_eq]
  cases hb : k.blocked (.rwlock l) with
  | none => rfl
  | some x =>
    have hloop : grantReadersLoop l k.bound { k with toObjects := k.dropRwlock l } none (some x) =
        .ok { k with toObjects := k.dropRwlock l } := grantReadersLoop_skips (hb ▸ hm) hx hlen
    have hnot : ¬ ((k.rwlock l).drop.readers = 0 ∧ k.c x = desiredWrite) := fun h => hlast h.1
    simp only [hnot, if_false]
    exact congrArg (· >>= _) hloop

theorem counts {call : Svc} {lock : Rwlock} (hc : call.call k =
    .ok ({ k with toObjects := k.setRwlock l lock }, .success, none)) :
    ∃ k', machine.step k (.svc call) k' ∧ SameWaits k.toObjects k'.toObjects ∧
      AmongWriters k' l r ∧ k'.rwlock l = lock := by
  refine ⟨{ k with
    toObjects := { k.setRwlock l lock with
      regs := update k.regs r ⟨Status.success.code, (k.regs r).r1⟩ } }, ⟨hk.scheduled, ?_⟩,
    ⟨rfl, rfl, rfl, rfl, rfl, rfl, rfl⟩,
    ⟨hk.scheduled, hk.running, hk.pointer, hk.waiting⟩, Function.update_self ..⟩
  rw [Act.run, svcHandler, Kernel.self_eq_ok.2 hk.running, ok_bind, hc]
  rfl

theorem round (hrd : 0 < (k.rwlock l).readers) (hroom : (k.rwlock l).readers + 1 < 2 ^ 16)
    (hw : (k.rwlock l).writers = 0) : ∃ k₁ k₂,
      machine.step k (.svc (.rwlockAcquireRead l 0)) k₁ ∧
      machine.step k₁ (.svc (.rwlockRelease l)) k₂ ∧ SameWaits k.toObjects k₁.toObjects ∧
      SameWaits k.toObjects k₂.toObjects ∧ AmongWriters k₂ l r ∧
      (k₁.rwlock l).readers = (k.rwlock l).readers + 1 ∧ k₂.rwlock l = k.rwlock l := by
  have hadd : (k.rwlock l).addReader = { k.rwlock l with readers := (k.rwlock l).readers + 1 } := by
    rw [Rwlock.addReader, Nat.mod_eq_of_lt hroom]
  have hacquire : Svc.call k (.rwlockAcquireRead l 0) =
      .ok ({ k with toObjects := k.setRwlock l (k.rwlock l).addReader }, .success, none) := by
    rw [Svc.call, hk.acquires hw]
    rfl
  obtain ⟨k₁, hs₁, hsame₁, hk₁, hl₁⟩ := hk.counts hacquire
  rw [hadd] at hl₁
  have hrelease : Svc.call k₁ (.rwlockRelease l) =
      .ok ({ k₁ with toObjects := k₁.setRwlock l (k₁.rwlock l).drop }, .success, none) := by
    have hrd₁ : 1 < (k₁.rwlock l).readers := by
      rw [hl₁]
      exact Nat.succ_lt_succ hrd
    have hw₁ : (k₁.rwlock l).writers = 0 := by
      rw [hl₁]
      exact hw
    rw [Svc.call, hk₁.releases hrd₁ hw₁]
    rfl
  obtain ⟨k₂, hs₂, hsame₂, hk₂, hl₂⟩ := hk₁.counts hrelease
  refine ⟨k₁, k₂, hs₁, hs₂, hsame₁, hsame₁.trans hsame₂, hk₂, by rw [hl₁], ?_⟩
  have hnot : ¬ (k.rwlock l).writers > 0 := by omega
  rw [hl₂, hl₁, Rwlock.drop, if_neg hnot, hw, Nat.zero_sub, ← hw]
  rfl

end AmongWriters

/-- Readers are let in past a writer that waits without any bound: as long as one of them holds the
lock and only writers wait, the next one comes in. -/
theorem rwlock_overtaken_forever (h : machine.Reach (fun k a => a.RestartsFree k) k₀)
    (hs : k₀.scheduled = none) (hrd : 0 < (k₀.rwlock l).readers)
    (hroom : (k₀.rwlock l).readers + 1 < 2 ^ 16) (hw : (k₀.rwlock l).writers = 0)
    (hx : ∀ x, k₀.OnList (.rwlock l) x → k₀.c x ≠ desiredRead) (ht : k₀.OnList (.rwlock l) t)
    (n : Nat) : ∃ k, ((machine.startingAt k₀).withHistory 0 (countServed fun k _ k' =>
      (k.rwlock l).readers < (k'.rwlock l).readers)).Reach
        (fun p a => a.RestartsFree p.1 ∧ p.1.OnList (.rwlock l) t) (k, n) ∧
          k.OnList (.rwlock l) t := by
  obtain ⟨⟨L, hc⟩, -, hn⟩ := reach_callable h fun _ _ ha => ha
  obtain ⟨r, hr⟩ := Option.ne_none_iff_exists'.1 hc.running
  have hz : k₀.flags r = 0 := hn r ((next_of_none hs).trans hr)
  obtain ⟨m, hm, hlen⟩ := hc.listsEnd (.rwlock l)
  have hk₀ : AmongWriters k₀ l r := by
    refine ⟨hs, hr, hc.flagged.rwlock_none (by rw [hz]; decide), m, hm, hlen, fun x hxm => ?_⟩
    exact hx x (hm.mem_iff.1 hxm)
  have hkeeps {k : Kernel} (hsame : SameWaits k₀.toObjects k.toObjects) :
      k.OnList (.rwlock l) t := by
    rw [Objects.OnList, hsame.blocked, hsame.nblocked]
    exact ht
  have hrun : ∃ k, ((machine.startingAt k₀).withHistory 0 (countServed fun k _ k' =>
      (k.rwlock l).readers < (k'.rwlock l).readers)).Reach
        (fun p a => a.RestartsFree p.1 ∧ p.1.OnList (.rwlock l) t) (k, n) ∧
          SameWaits k₀.toObjects k.toObjects ∧ AmongWriters k l r ∧ k.rwlock l = k₀.rwlock l := by
    induction n with
    | zero => exact ⟨k₀, .init ⟨rfl, rfl⟩, .refl, hk₀, rfl⟩
    | succ n ih =>
      obtain ⟨k, hk, hsame, hlist, hlock⟩ := ih
      rw [← hlock] at hrd hroom hw
      obtain ⟨k₁, k₂, hs₁, hs₂, hsame₁, hsame₂, hlist₂, hmore, hlock₂⟩ := hlist.round hrd hroom hw
      have hin : (k.rwlock l).readers < (k₁.rwlock l).readers := by omega
      have hout : ¬ (k₁.rwlock l).readers < (k₂.rwlock l).readers := by
        rw [hlock₂]
        omega
      have hfree {call : Svc} {k : Kernel} : (Act.svc call).RestartsFree k :=
        .of_not_restarts Bool.false_ne_true
      have hk₁ := countServed_step hk ⟨hfree, hkeeps hsame⟩ hs₁
      have hk₂ := countServed_step hk₁ ⟨hfree, hkeeps (hsame.trans hsame₁)⟩ hs₂
      rw [countServed, if_neg hout, countServed, if_pos hin] at hk₂
      exact ⟨k₂, hk₂, hsame.trans hsame₂, hlist₂, hlock₂.trans hlock⟩
  obtain ⟨k, hk, hsame, -⟩ := hrun
  exact ⟨k, hk, hkeeps hsame⟩

set_option maxRecDepth 10000 in
theorem rwlock_overtaken_forever_thousand : ∃ k₀ k : Kernel, k₀.blocked (.rwlock 0) = some 2 ∧
    k₀.c 2 = desiredWrite ∧ ((machine.startingAt k₀).withHistory 0 (countServed fun k _ k' =>
      (k.rwlock 0).readers < (k'.rwlock 0).readers)).Reach
        (fun p a => a.RestartsFree p.1 ∧ p.1.OnList (.rwlock 0) 2) (k, 1000) ∧
    k.OnList (.rwlock 0) 2 := by
  obtain ⟨k₀, hk₀, h2, hnone, hc, hs, hrd, hroom, hw⟩ :=
    (Boot.simple [0, 16, 16] (by simp)).exists_after (fun _ a => ¬ a.restarts)
      (fun k => k.blocked (.rwlock 0) = some 2 ∧ k.nblocked 2 = none ∧ k.c 2 = desiredWrite ∧
        k.scheduled = none ∧ 0 < (k.rwlock 0).readers ∧ (k.rwlock 0).readers + 1 < 2 ^ 16 ∧
        (k.rwlock 0).writers = 0)
      [.schedule, .contextSwitch, .svc (.rwlockAcquireRead 0 0), .systick, .contextSwitch,
        .svc (.rwlockAcquireWrite 0 uint32Max), .contextSwitch] (by decide)
  have hfree : machine.Reach (fun k a => a.RestartsFree k) k₀ := by
    apply hk₀.mono
    exact fun k a ha => .of_not_restarts ha
  have hx (x : TaskId) (hon : k₀.OnList (.rwlock 0) x) : k₀.c x ≠ desiredRead := by
    rw [Objects.onList_singleton h2 hnone hon, hc]
    decide
  obtain ⟨k, hk, hon⟩ := rwlock_overtaken_forever hfree hs hrd hroom hw hx
    (Objects.onList_of_blocked h2) 1000
  exact ⟨k₀, k, h2, hc, hk, hon⟩

end Rwlocks

end Osh
