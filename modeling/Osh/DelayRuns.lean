import Osh.DispatchRuns
import Osh.ScheduleTotal

namespace Osh
open Function (update)
open Lib

variable {k k' k₁ : Kernel} {s s' : Sched} {o : Objects} {i t x y : TaskId} {r w : List TaskId}
  {ms : Nat}

def Sched.deadline (s : Sched) (ms : Nat) : Nat :=
  if ms = uint32Max then uint32Max else (s.uptime + ms) % 2 ^ 32

/-- The assertion of `svc_delay` on the delay that it computed. -/
def Sched.Representable (s : Sched) (ms : Nat) : Prop :=
  ms ≠ uint32Max → (s.uptime + ms) % 2 ^ 32 ≠ uint32Max

theorem svcDelaySleep_eq_ok (hr : k.running = some t) (hs : k.scheduled = none) :
    svcDelaySleep k ms = .ok k₁ ↔ SleepsInto k ms t k₁ := by
  have hne : k.scheduled ≠ some t := by simp [hs]
  have hrep : (ms ≠ uint32Max → k.deadline ms ≠ uint32Max) ↔ k.Representable ms := by
    unfold Sched.deadline Sched.Representable
    apply imp_congr_right
    intro h
    rw [if_neg h]
  unfold svcDelaySleep
  split
  · rename_i hr'
    cases hr.symm.trans hr'
  · rename_i running hr'
    obtain rfl : t = running := Option.some.inj (hr.symm.trans hr')
    simp only [bind_eq_ok, osAssert_eq_ok, pure_eq_ok]
    constructor
    · rintro ⟨_, -, _, hd, s, hset, rfl⟩
      exact ⟨hr, hs, hrep.1 hd, s, hset, rfl⟩
    · rintro ⟨-, -, hd, s, hset, rfl⟩
      exact ⟨(), hne, (), hrep.2 hd, s, hset, rfl⟩

theorem svcDelay_eq_ok (hr : k.running = some t) (hs : k.scheduled = none) :
    svcDelay k ms = .ok k' ↔ k.Representable ms ∧ ∃ s,
      osiTaskStatusSet { k.toSched with delay := update k.delay t (k.deadline ms) } t .wait =
        .ok s ∧ osiSchedule { k with toSched := s } = .ok k' ∧ k'.scheduled ≠ none ∧
        k'.scheduled ≠ k'.running := by
  rw [svcDelay, bind_eq_ok]
  simp only [svcDelaySleep_eq_ok hr hs]
  constructor
  · rintro ⟨k₁, ⟨-, -, hd, s, hset, rfl⟩, h⟩
    have hsched : s.scheduled = none := (osiTaskStatusSet_rethreaded hset).scheduled.trans hs
    rw [if_pos hsched] at h
    simp only [bind_eq_ok, osAssert_eq_ok, pure_eq_ok] at h
    obtain ⟨k₁, h₁, _, hn, _, hn', rfl⟩ := h
    exact ⟨hd, s, hset, h₁, hn, hn'⟩
  · rintro ⟨hd, s, hset, h₁, hn, hn'⟩
    have hsched : s.scheduled = none := (osiTaskStatusSet_rethreaded hset).scheduled.trans hs
    refine ⟨_, ⟨hr, hs, hd, s, hset, rfl⟩, ?_⟩
    rw [if_pos hsched]
    simp only [bind_eq_ok, osAssert_eq_ok, pure_eq_ok]
    exact ⟨k', h₁, (), hn, (), hn', rfl⟩

def Sched.withDelay (s : Sched) (t : TaskId) (ms : Nat) : Sched :=
  { s with delay := update s.delay t (s.deadline ms) }

/-- The waiting task `t` is woken before any other one, and every runnable task is below it. -/
def Sched.TurnsBack (s : Sched) (t : TaskId) (r w : List TaskId) : Prop :=
  (w.find? fun x => s.Due x) = some t ∧ ∀ x ∈ r, s.priority x < s.priority t

/-- The run queue once the first task that is due has joined it, unless that task is `t`. -/
def Sched.joined (s : Sched) (t : TaskId) (r w : List TaskId) : List TaskId :=
  match w.find? fun x => s.Due x with
  | none => r
  | some x => if x = t then r else insertByPriority s.priority x r

theorem mem_joined (hx : x ∈ r) : x ∈ s.joined t r w := by
  unfold Sched.joined
  split
  · exact hx
  · split_ifs
    · exact hx
    · exact mem_insertByPriority.2 (.inr hx)

theorem notMem_joined (ht : t ∉ r) : t ∉ s.joined t r w := by
  unfold Sched.joined
  split
  · exact ht
  · split_ifs with hx
    · exact ht
    · rw [mem_insertByPriority, not_or]
      exact ⟨Ne.symm hx, ht⟩

theorem Queues.idle_alone (hq : Queues s r w) (hi : i ∈ r)
    (hlow : ∀ x ∈ r, x ≠ i → s.priority i < s.priority x) (h : r.head? = some i) :
    r.length = 1 := by
  obtain ⟨l, rfl⟩ := List.head?_eq_some_iff.1 h
  have hl : l = [] := by
    apply List.eq_nil_iff_forall_not_mem.2
    intro x hx
    have hne : x ≠ i := by
      rintro rfl
      exact (List.nodup_cons.1 hq.nodup_run).1 hx
    have hle := hq.head_top h x (List.mem_cons_of_mem _ hx)
    have hlt := hlow x (List.mem_cons_of_mem _ hx) hne
    omega
  rw [hl]
  rfl

/-- What the scheduler finds when it is entered with the running task `t` in the wait queue. -/
theorem findNewTask_sleeping (hq : Queues s r w) (ht : t ∈ w) (hn : (r ++ w).length ≤ s.bound)
    (hi : i ∈ r) (hlow : ∀ x ∈ r ++ w, x ≠ i → s.priority i < s.priority x)
    (h : wakeExpired s = .ok s') : ∃ r' w', Queues s' r' w' ∧
      (s.TurnsBack t r w → findNewTask s' t = .ok (some t)) ∧
      (¬ s.TurnsBack t r w → findNewTask s' t = .ok (s.joined t r w).head? ∧
        ((s.joined t r w).head? = some i → r'.length = 1)) := by
  have hlen : r.length ≤ s.bound ∧ w.length ≤ s.bound := by
    rw [List.length_append] at hn
    omega
  have hit : i ≠ t := fun he => hq.disjoint i hi (he ▸ ht)
  have hlt : s.priority i < s.priority t := hlow t (List.mem_append_right _ ht) hit.symm
  rw [wakeExpired_eq hq hlen.2] at h
  unfold Sched.TurnsBack Sched.joined
  cases hf : w.find? fun x => s.Due x with
  | none =>
    rw [hf] at h
    cases h
    refine ⟨r, w, hq, nofun, fun _ => ⟨?_, fun hh => ?_⟩⟩
    · exact hq.findNewTask_waiting ht hn ⟨i, hi, Nat.ne_of_lt hlt⟩
    · exact hq.idle_alone hi (fun x hx => hlow x (List.mem_append_left _ hx)) hh
  | some x =>
    rw [hf] at h
    have hxw := List.mem_of_find?_eq_some hf
    have hxr : x ∉ r := hq.notMem_run (by rw [(hq.waiting x).1 hxw]; decide)
    obtain ⟨hq', hs', -⟩ := osiTaskStatusSet_idle h hq hxr
    have hp : s'.priority = s.priority := hs'.priority
    have hb : s'.bound = s.bound := congrArg (fun l => List.length l + 1) hs'.rest.tasks
    have hlen' : (insertByPriority s.priority x r ++ w.erase x).length = (r ++ w).length := by
      have hpos := List.length_pos_of_mem hxw
      rw [List.length_append, List.length_append, insertByPriority, List.orderedInsert_length,
        List.length_erase_of_mem hxw]
      omega
    refine ⟨_, _, hq', ?_⟩
    by_cases hxt : x = t
    · subst hxt
      have hfind := Queues.findNewTask_inserted (s := s') (t := x) (r := r) (w := w.erase x)
      rw [hp, hb] at hfind
      have hfind := hfind hq' (by rw [List.length_append] at hlen'; omega)
      constructor
      · intro hback
        rw [hfind, if_neg]
        rintro ⟨y, hy, hle⟩
        exact absurd (hback.2 y hy) (Nat.not_lt.2 hle)
      · intro hback
        obtain ⟨y, hy, hle⟩ : ∃ y ∈ r, s.priority x ≤ s.priority y := by
          by_contra hnone
          simp only [not_exists, not_and, Nat.not_le] at hnone
          exact hback ⟨rfl, hnone⟩
        simp only [if_true]
        constructor
        · exact by rw [hfind, if_pos ⟨y, hy, hle⟩]
        · intro hh
          -- the idle task is below `x`, and so not the head
          have hle' := hq.head_top hh y hy
          omega
    · constructor
      · exact fun hback => absurd (Option.some.inj hback.1) hxt
      · intro _
        simp only [if_neg hxt]
        have hir : i ∈ insertByPriority s.priority x r := mem_insertByPriority.2 (.inr hi)
        refine ⟨hq'.findNewTask_waiting ((List.mem_erase_of_ne (Ne.symm hxt)).2 ht)
          (hlen'.trans_le (hn.trans_eq hb.symm)) ⟨i, hir, ?_⟩, fun hh => ?_⟩
        · rw [hp]
          exact Nat.ne_of_lt hlt
        · refine hq'.idle_alone hir (fun y hy hyi => ?_) hh
          rw [hp]
          refine hlow y ?_ hyi
          rcases mem_insertByPriority.1 hy with rfl | hy
          · exact List.mem_append_right _ hxw
          · exact List.mem_append_left _ hy

section Yields

def Sched.asleep (s : Sched) (t : TaskId) (ms : Nat) (w : List TaskId) : List TaskId :=
  insertByDelay (s.withDelay t ms).delay t w

/-- A call of `svc_delay` by `t` hands the processor to another task: the delay is not the reserved
one, the scheduler does not come back to `t`, and the task that follows is not blocked with a
pointer to a semaphore. -/
structure Yields (k : Kernel) (t : TaskId) (ms : Nat) (r w : List TaskId) : Prop where
  deadline : k.Representable ms
  leaves : ¬ (k.withDelay t ms).TurnsBack t (r.erase t) (k.asleep t ms w)
  next : ∀ y, ((k.withDelay t ms).joined t (r.erase t) (k.asleep t ms w)).head? = some y →
    k.flags y = 0 ∨ k.taskSemaphore y = none

theorem svcDelay_schedules_iff (hr : k.running = some t) (hs : k.scheduled = none)
    (h : osiTaskStatusSet (k.withDelay t ms) t .wait = .ok s) :
    (∃ k', svcDelay k ms = .ok k' ∧ k'.scheduled ≠ none ∧ k'.scheduled ≠ k'.running) ↔
      k.Representable ms ∧ ∃ k', osiSchedule { k with toSched := s } = .ok k' ∧
        k'.scheduled ≠ none := by
  have hsched : s.scheduled = none := (osiTaskStatusSet_rethreaded h).scheduled.trans hs
  simp only [svcDelay_eq_ok hr hs]
  constructor
  · rintro ⟨k', ⟨hd, s', hset, h', hn, -⟩, -⟩
    cases h.symm.trans hset
    exact ⟨hd, k', h', hn⟩
  · rintro ⟨hd, k', h', hn⟩
    have hne : k'.scheduled ≠ k'.running := by
      cases osiSchedule_switched h' with
      | same _ _ hs' => exact absurd (hs'.trans hsched) hn
      | dispatched _ hne hr' hs' =>
        rw [hs', hr']
        exact hne.symm
    exact ⟨k', ⟨hd, s, h, h', hn, hne⟩, hn, hne⟩

theorem Ready.yields_iff (hk : Ready k) (hq : Queues k.toSched r w) (hr : k.running = some t)
    (hs : k.scheduled = none) (hst : k.status t = .active) (hi : k.idle = some i) (hir : i ∈ r)
    (hit : i ≠ t) (hlow : ∀ x ∈ k.tasks, x ≠ i → k.priority i < k.priority x) :
    (∃ k', svcDelay k ms = .ok k' ∧ k'.scheduled ≠ none ∧ k'.scheduled ≠ k'.running) ↔
      Yields k t ms r w := by
  have htw : t ∉ w := hq.notMem_wait (by rw [hst]; rfl)
  have hq₀ : Queues (k.withDelay t ms) r w := hq.setDelay htw
  have hne : (k.withDelay t ms).status t ≠ .wait := by
    change k.status t ≠ .wait
    rw [hst]
    decide
  obtain ⟨hlr, hlw, -⟩ := hk.length_le hq
  obtain ⟨s, h⟩ := osiTaskStatusSet_wait_total hq₀ hlr hlw hne
  obtain ⟨hq₁, -, -⟩ := osiTaskStatusSet_wait h hq₀ hne
  have hs₁ := osiTaskStatusSet_rethreaded h
  have hk₁ : Ready { k with toSched := s } :=
    hk.sets h ⟨_, _, hq₁, False.elim⟩ (hk.used t (.inl hr))
  have hp : s.priority = k.priority := hs₁.priority
  have htasks : s.tasks = k.tasks := hs₁.tasks
  have hidle : s.idle = some i := hs₁.idle.trans hi
  have hwait : s.status t ≠ .idle := by
    have hst' : s.status = update k.status t .wait := hs₁.status
    rw [hst', Function.update_self]
    decide
  obtain ⟨s', h'⟩ := hk₁.wakeExpired_total
  have hir₁ : i ∈ r.erase t := (List.mem_erase_of_ne hit).2 hir
  obtain ⟨r₂, w₂, hq₂, hback, hfind⟩ := findNewTask_sleeping hq₁ (mem_insertByDelay.2 (.inl rfl))
    (hk₁.length_le hq₁).2.2 hir₁ (fun x hx hxi => by
      rw [hp]
      exact hlow x (htasks ▸ hk₁.used x (hq₁.used hx)) hxi) h'
  have hiff {new : Option TaskId} (hnew : findNewTask s' t = .ok new) :=
    hk₁.schedule_iff (hs₁.running.trans hr) h' hq₂ hwait (hs₁.scheduled.trans hs) hnew
  -- the scheduler looks at the same deadlines and priorities as the state before the call
  have hsame : s.TurnsBack = (k.withDelay t ms).TurnsBack ∧
      s.joined = (k.withDelay t ms).joined := by
    unfold Sched.TurnsBack Sched.joined
    rw [due_congr hs₁.delay hs₁.uptime, hs₁.priority]
    exact ⟨rfl, rfl⟩
  rw [hsame.1, hsame.2] at hfind
  rw [hsame.1] at hback
  rw [svcDelay_schedules_iff hr hs h]
  by_cases hb : (k.withDelay t ms).TurnsBack t (r.erase t) (k.asleep t ms w)
  · rw [hiff (hback hb)]
    constructor
    · rintro ⟨-, y, hy, hne, -⟩
      exact absurd (Option.some.inj hy) hne
    · intro hy
      exact absurd hb hy.leaves
  · obtain ⟨hfind, halone⟩ := hfind hb
    rw [hiff hfind]
    constructor
    · rintro ⟨hd, y, hy, -, hsem, -⟩
      constructor
      · exact hd
      · exact hb
      · intro y' hy'
        cases hy.symm.trans hy'
        exact hsem
    · intro hy
      have hmem := mem_joined (s := k.withDelay t ms) (t := t) (w := k.asleep t ms w) hir₁
      obtain ⟨y, hhead⟩ : ∃ y, ((k.withDelay t ms).joined t (r.erase t)
          (k.asleep t ms w)).head? = some y :=
        Option.isSome_iff_exists.1 (List.isSome_head?.2 (List.ne_nil_of_mem hmem))
      refine ⟨hy.deadline, y, hhead, ?_, hy.next y hhead, fun he => halone ?_⟩
      · rintro rfl
        exact notMem_joined hq.nodup_run.not_mem_erase (List.mem_of_head? hhead)
      · exact hhead.trans (he.symm.trans hidle)

theorem Ready.blocks {v : Waitable} {o' : Objects} (hk : Ready k) (hsame : SameWaits k.toObjects o)
    (hb : Blocks o v t o') (hz : k.flags t = 0) (ht : t ∈ k.tasks) :
    Ready { k with toObjects := o' } := by
  have hz' : o.flags t = 0 := by
    rw [hsame.flags]
    exact hz
  have hl : Linked o k.tasks := hk.linked.of_eq hsame.blocked hsame.nblocked
  exact ⟨hk.queued, hb.flagged (hk.flagged.of_same hsame) hz', hb.linked hl ht, hk.used⟩

theorem Blocks.others {v : Waitable} {o₀ o' : Objects} (hb : Blocks o v t o')
    (hsame : SameWaits o₀ o) (hz : o₀.flags t = 0) (hy : y ≠ t) :
    o'.flags y = o₀.flags y ∧ o'.taskSemaphore y = o₀.taskSemaphore y := by
  obtain ⟨o₁, hrel, -, rfl⟩ := hb.fields (by rw [hsame.flags]; exact hz)
  constructor
  · change update o.flags t v.flag y = _
    rw [Function.update_of_ne hy, hsame.flags]
  · rw [hrel, ← hsame.taskSemaphore]
    cases v with
    | semaphore s => exact Function.update_of_ne hy _ _
    | _ => rfl

/-- A call of `svc_delay` or `svc_block` by an active task above the idle task. -/
theorem delay_yields_iff (h : machine.Reach (fun _ _ => True) k) (hs : k.scheduled = none)
    (hr : k.running = some t) (hst : k.status t = .active) (hi : k.idle = some i) (hit : i ≠ t)
    (hrun : Chain k.nrp k.runqueue r) (hir : i ∈ r)
    (hlow : ∀ x ∈ k.tasks, x ≠ i → k.priority i < k.priority x)
    (hwait : Chain k.nrp k.waitqueue w) (ms : Nat) :
    ((∃ k', svcDelay k ms = .ok k' ∧ k'.scheduled ≠ none ∧ k'.scheduled ≠ k'.running) ↔
      Yields k t ms r w) ∧
    ∀ a v o₀ o, Parks k t a v ms o₀ → blockedEnq k.bound o₀ v t = .ok o →
      ((∃ k', svcBlock { k with toObjects := o } ms v.flag = .ok k' ∧ k'.scheduled ≠ none ∧
        k'.scheduled ≠ k'.running) ↔ Yields k t ms r w) := by
  have hk := reach_ready h
  obtain ⟨-, hfree⟩ := reach_flagged h
  have hq : Queues k.toSched r w := reach_queues h hrun hwait
  constructor
  · exact hk.yields_iff hq hr hs hst hi hir hit hlow
  · intro a v o₀ o hp hb
    have hz : k.flags t = 0 := hfree t ((next_of_none hs).trans hr)
    have hbl : Blocks o₀ v t { o with flags := update o.flags t (o.flags t ||| v.flag) } :=
      ⟨_, o, hb, rfl⟩
    have hk' := hk.blocks hp.sameWaits hbl hz (hk.used t (.inl hr))
    have hself : ({ k with toObjects := o } : Kernel).self = .ok t := Kernel.self_eq_ok.2 hr
    have hblock : svcBlock { k with toObjects := o } ms v.flag = svcDelay { k with
        toObjects := { o with flags := update o.flags t (o.flags t ||| v.flag) } } ms := by
      simp only [svcBlock, hself, ok_bind]
    rw [hblock, hk'.yields_iff hq hr hs hst hi hir hit hlow]
    have hnext {y : TaskId} (hy : ((k.withDelay t ms).joined t (r.erase t)
        (k.asleep t ms w)).head? = some y) := hbl.others hp.sameWaits hz (y := y) <| by
      rintro rfl
      exact notMem_joined hq.nodup_run.not_mem_erase (List.mem_of_head? hy)
    constructor
    · intro hy
      constructor
      · exact hy.deadline
      · exact hy.leaves
      · intro y hhead
        rw [← (hnext hhead).1, ← (hnext hhead).2]
        exact hy.next y hhead
    · intro hy
      constructor
      · exact hy.deadline
      · exact hy.leaves
      · intro y hhead
        have hor := hy.next y hhead
        rwa [← (hnext hhead).1, ← (hnext hhead).2] at hor

set_option maxRecDepth 10000 in
theorem delay_yields_five : ∃ k : Kernel, k.running = some 1 ∧ Yields k 1 5 [1, 0] [] := by
  obtain ⟨k, hk, ⟨hs, hr, hst, hi⟩, ⟨h0, h1, h2, h3⟩, hlow, hd⟩ :=
    (Boot.simple [0, 16] (by simp)).exists_after (fun _ _ => True)
      (fun k => (k.scheduled = none ∧ k.running = some 1 ∧ k.status 1 = .active ∧
        k.idle = some 0) ∧ (k.runqueue = some 1 ∧ k.nrp 1 = some 0 ∧ k.nrp 0 = none ∧
        k.waitqueue = none) ∧ (∀ x ∈ k.tasks, x ≠ 0 → k.priority 0 < k.priority x) ∧
        (svcDelay k 5).toOption.any fun k => k.scheduled ≠ none ∧ k.scheduled ≠ k.running)
      [.schedule, .contextSwitch] (by decide)
  have hrun : Chain k.nrp k.runqueue [1, 0] := by simp [h0, h1, h2]
  exact ⟨k, hr, (delay_yields_iff hk hs hr hst hi (by decide) hrun (by simp) hlow
    (w := []) h3 5).1.1 (exists_of_toOption_any hd)⟩

set_option maxRecDepth 10000 in
/-- A task that sleeps for no time wakes itself, and no other task is scheduled. -/
theorem delay_zero_fails : ∃ (k : Kernel) (i t : TaskId) (r : List TaskId),
    machine.Reach (fun _ _ => True) k ∧ k.scheduled = none ∧ k.running = some t ∧
    k.status t = .active ∧ k.idle = some i ∧ i ≠ t ∧ Chain k.nrp k.runqueue r ∧ i ∈ r ∧
    (∀ x ∈ k.tasks, x ≠ i → k.priority i < k.priority x) ∧ ∀ k', svcDelay k 0 ≠ .ok k' := by
  obtain ⟨k, hk, hs, hr, hst, hi, ⟨h0, h1, h2⟩, hlow, hd⟩ :=
    (Boot.simple [0, 16] (by simp)).exists_after (fun _ _ => True)
      (fun k => k.scheduled = none ∧ k.running = some 1 ∧ k.status 1 = .active ∧
        k.idle = some 0 ∧ (k.runqueue = some 1 ∧ k.nrp 1 = some 0 ∧ k.nrp 0 = none) ∧
        (∀ x ∈ k.tasks, x ≠ 0 → k.priority 0 < k.priority x) ∧
        (svcDelay k 0).toOption.isNone)
      [.schedule, .contextSwitch] (by decide)
  refine ⟨k, 0, 1, [1, 0], hk, hs, hr, hst, hi, by decide, by simp [h0, h1, h2], by simp, hlow,
    fun k' h => ?_⟩
  rw [h] at hd
  cases hd

end Yields

section Deadline
variable {a : Act} {d : Nat} {c : Prop}

theorem delay_step (hs : machine.step k a k') (hq : Queued c k.toSched)
    (hn : NextInv (· ≠ .wait) k.toSched) (ht : k.status t = .wait) (ht' : k'.status t = .wait) :
    k'.delay t = k.delay t := by
  rcases ((Act.run_effect hs.2).task hq hn hs.1 t).of_wait ht' with ⟨-, hd⟩ | ⟨hc, hr⟩
  · exact hd
  · -- the running task does not wait when it makes a call
    exact absurd ht (hn.status t ((next_of_none (hs.1.of_call hc)).trans hr))

/-- A deadline less than half of the range ahead is passed by a clock less than half of the range
ahead when both sums wrap or neither does. -/
theorem deadline_passed_iff {u : Nat} (hu : u < 2 ^ 32) (hms : ms < 2 ^ 31) (hd : d < 2 ^ 31) :
    ((u + ms) % 2 ^ 32 ≤ (u + d) % 2 ^ 32 ↔ ms ≤ d) ↔ (u + ms < 2 ^ 32 ↔ u + d < 2 ^ 32) := by
  omega

/-- A task goes to sleep in a call with a timeout of `ms`, the wake-up test finds its time come
after `ms`, and its deadline is the one that every later run of the scheduler sees. -/
theorem timeout_iff (h : machine.Reach (fun _ _ => True) k) (hs : k.scheduled = none)
    (hr : k.running = some t) (hu : k.uptime < 2 ^ 32) (hms : ms < 2 ^ 31) (hd : d < 2 ^ 31)
    (o : Objects) :
    ((∃ k₁, svcDelaySleep { k with toObjects := o } ms = .ok k₁ ∧ ∀ s : Sched,
        s.status t = .wait → s.delay t = k₁.delay t → s.uptime = (k.uptime + d) % 2 ^ 32 →
          (s.Due t ↔ ms ≤ d)) ↔
      (k.uptime + ms) % 2 ^ 32 ≠ uint32Max ∧ (k.uptime + ms < 2 ^ 32 ↔ k.uptime + d < 2 ^ 32)) ∧
    ∀ k₁ a k' k₂, svcDelaySleep { k with toObjects := o } ms = .ok k₁ →
      svcDelay { k with toObjects := o } ms = .ok k₂ → machine.step k a k' →
      k'.toSched = k₂.toSched → ∀ k'', (machine.startingAt k').Reach
        (fun k _ => k.status t = .wait) k'' → k''.status t = .wait → k''.delay t = k₁.delay t := by
  simp only [svcDelaySleep_eq_ok (k := { k with toObjects := o }) hr hs]
  obtain ⟨hq, hn⟩ := reach_queued (c := False) h fun hc => hc.elim
  have hmax : ms ≠ uint32Max := by
    unfold uint32Max
    omega
  have hdelay {k₁ : Kernel} (h₁ : SleepsInto { k with toObjects := o } ms t k₁) :
      k₁.status t = .wait ∧ k₁.delay t = (k.uptime + ms) % 2 ^ 32 := by
    obtain ⟨-, -, -, s, hset, rfl⟩ := h₁
    have hs' := osiTaskStatusSet_rethreaded hset
    rw [if_neg hmax] at hs'
    have hst : s.status = update k.status t .wait := hs'.status
    have hd' : s.delay = update k.delay t ((k.uptime + ms) % 2 ^ 32) := hs'.delay
    exact ⟨by rw [hst, Function.update_self], by rw [hd', Function.update_self]⟩
  refine ⟨⟨?_, ?_⟩, ?_⟩
  · rintro ⟨k₁, h₁, hdue⟩
    have hrep := h₁.timeout hmax
    refine ⟨hrep, ?_⟩
    obtain ⟨hst, hd'⟩ := hdelay h₁
    have hiff := hdue { k₁.toSched with uptime := (k.uptime + d) % 2 ^ 32 } hst rfl rfl
    rw [← deadline_passed_iff hu hms hd, ← hiff]
    simp only [Sched.Due, hd', ne_eq, hrep, not_false_eq_true, true_and, ge_iff_le]
  · rintro ⟨hrep, hwrap⟩
    obtain ⟨s, hset⟩ : ∃ s, osiTaskStatusSet (k.withDelay t ms) t .wait = .ok s := by
      have hk := reach_ready h
      obtain ⟨r, w, hq, -⟩ := hk.queued
      obtain ⟨hlr, hlw, -⟩ := hk.length_le hq
      have hne := hn.status t ((next_of_none hs).trans hr)
      have htw : t ∉ w := fun hm => hne ((hq.waiting t).1 hm)
      have hq₀ : Queues (k.withDelay t ms) r w := hq.setDelay htw
      exact osiTaskStatusSet_wait_total hq₀ hlr hlw hne
    have h₁ : SleepsInto { k with toObjects := o } ms t { toSched := s, toObjects := o } :=
      ⟨hr, hs, fun _ => hrep, s, hset, rfl⟩
    refine ⟨_, h₁, fun s' _ hd' hu' => ?_⟩
    rw [(hdelay h₁).2] at hd'
    rw [← (deadline_passed_iff hu hms hd).2 hwrap]
    simp only [Sched.Due, hd', hu', ne_eq, hrep, not_false_eq_true, true_and, ge_iff_le]
  · intro k₁ a k' k₂ h₁ h₂ hstep hsched k'' hreach hst
    have hk' : machine.Reach (fun _ _ => True) k' := .step h trivial hstep
    have hfirst (hst : k'.status t = .wait) : k'.delay t = k₁.delay t := by
      obtain ⟨-, -, -, s, hset, rfl⟩ := h₁
      obtain ⟨-, s', hset', hsch, -⟩ := (svcDelay_eq_ok (k := { k with toObjects := o }) hr hs).1 h₂
      cases hset.symm.trans hset'
      rw [hsched] at hst ⊢
      exact ((Shifted.schedule (hq.sleeps hn hs hr hset) hsch).of_wait hst).2
    induction hreach with
    | init he =>
      obtain rfl := he
      exact hfirst hst
    | @step k₃ k₄ a' hreach hw hstep' ih =>
      obtain ⟨hq', hn'⟩ := reach_queued (c := False)
        (hk'.trans (hreach.mono fun _ _ _ => trivial)) fun hc => hc.elim
      rw [delay_step hstep' hq' hn' hw hst, ih hw]

set_option maxRecDepth 10000 in
theorem timeout_before_wrap : ∃ k k₁ : Kernel, k.running = some 1 ∧ svcDelaySleep k 5 = .ok k₁ ∧
    ∀ s : Sched, s.status 1 = .wait → s.delay 1 = k₁.delay 1 →
      s.uptime = (k.uptime + 7) % 2 ^ 32 → (s.Due 1 ↔ 5 ≤ 7) := by
  obtain ⟨k, hk, hs, hr, hu⟩ := (Boot.simple [0, 16] (by simp)).exists_after (fun _ _ => True)
    (fun k => k.scheduled = none ∧ k.running = some 1 ∧ k.uptime = 1000)
    [.schedule, .contextSwitch, .clock 1000 0] (by decide)
  have hms : 5 < 2 ^ 31 := by decide
  have hd : 7 < 2 ^ 31 := by decide
  obtain ⟨k₁, h₁, hdue⟩ :=
    (timeout_iff hk hs hr (by rw [hu]; decide) hms hd k.toObjects).1.2 (by rw [hu]; decide)
  exact ⟨k, k₁, hr, h₁, hdue⟩

set_option maxRecDepth 10000 in
/-- A task that sleeps for a hundred milliseconds shortly before the clock wraps is due at once. -/
theorem timeout_after_wrap : ∃ (k k₁ : Kernel) (t : TaskId) (ms d : Nat),
    machine.Reach (fun _ _ => True) k ∧ k.scheduled = none ∧ k.running = some t ∧
    k.uptime < 2 ^ 32 ∧ 0 < ms ∧ ms < 2 ^ 31 ∧ d < 2 ^ 31 ∧ svcDelaySleep k ms = .ok k₁ ∧
    k₁.status t = .wait ∧ k₁.uptime = (k.uptime + d) % 2 ^ 32 ∧ k₁.Due t ∧ ¬ ms ≤ d := by
  obtain ⟨k, hk, hs, hr, hu, hset⟩ := (Boot.simple [0, 16] (by simp)).exists_after
    (fun _ _ => True)
    (fun k => k.scheduled = none ∧ k.running = some 1 ∧ k.uptime = 2 ^ 32 - 10 ∧
      (osiTaskStatusSet (k.withDelay 1 100) 1 .wait).toOption.any fun s =>
        s.status 1 = .wait ∧ s.uptime = 2 ^ 32 - 10 ∧ s.Due 1)
    [.schedule, .contextSwitch, .clock (2 ^ 32 - 10) 0] (by decide)
  obtain ⟨s, hset, hst, hu', hdue⟩ := exists_of_toOption_any hset
  refine ⟨k, { k with toSched := s }, 1, 100, 0, hk, hs, hr, ?_, by decide, by decide, by decide,
    (svcDelaySleep_eq_ok hr hs).2 ⟨hr, hs, fun _ => ?_, s, hset, rfl⟩, hst, ?_, hdue, by decide⟩
  · rw [hu]
    decide
  · rw [hu]
    decide
  · rw [hu]
    exact hu'

end Deadline

end Osh
