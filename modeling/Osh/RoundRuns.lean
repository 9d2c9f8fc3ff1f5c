import Osh.FixedRun
import Osh.Lib.Cycle
import Osh.ScheduleTotal

namespace Osh
open Function (update)
open Lib

variable {k k' k₁ : Kernel} {s : Sched} {t x y : TaskId} {r w E rest : List TaskId} {j p : Nat}
  {now : Nat × Nat} {times : List (Nat × Nat)}

/-- `osi_schedule` at the time `now`, and the context switch if a task was scheduled. -/
def turn (k : Kernel) (now : Nat × Nat) : Except Stop Kernel := do
  let k ← osiSchedule { k with uptime := now.1 % 2 ^ 32, micros := now.2 % 2 ^ 32 }
  if k.scheduled = none then return k else Act.run k .contextSwitch

def turns (k : Kernel) : List (Nat × Nat) → Except Stop Kernel
  | [] => .ok k
  | now :: rest => do
    let k ← turn k now
    turns k rest

/-- The tasks of the priority of `t`, in the order of the run queue. -/
def Sched.peers (s : Sched) (t : TaskId) (r : List TaskId) : List TaskId :=
  r.filter fun x => s.priority x = s.priority t

def Sched.Quiet (s : Sched) (w : List TaskId) (now : Nat × Nat) : Prop :=
  ∀ x ∈ w, ¬ Sched.Due { s with uptime := now.1 % 2 ^ 32 } x

theorem turns_append {times' : List (Nat × Nat)} :
    turns k (times ++ times') = .ok k' ↔
      ∃ k₁, turns k times = .ok k₁ ∧ turns k₁ times' = .ok k' := by
  induction times generalizing k with
  | nil => simp [turns]
  | cons now times ih =>
    simp only [List.cons_append, turns, bind_eq_ok, ih]
    constructor
    · rintro ⟨k₁, h₁, k₂, h₂, h⟩
      exact ⟨k₂, ⟨k₁, h₁, h₂⟩, h⟩
    · rintro ⟨k₂, ⟨k₁, h₁, h₂⟩, h⟩
      exact ⟨k₁, h₁, k₂, h₂, h⟩

section Peers

theorem Queues.peers (hq : Queues s r w) (ht : t ∈ r)
    (htop : ∀ x ∈ r, s.priority x ≤ s.priority t) :
    ∃ rest, r = s.peers t r ++ rest ∧ ∀ x ∈ rest, s.priority x < s.priority t := by
  obtain ⟨pre, post, hr⟩ := List.append_of_mem ht
  obtain ⟨same, rest, rfl, hsame, hrest⟩ := hq.split_top hr htop
  refine ⟨rest, ?_, hrest⟩
  have hpeers : s.peers t r = pre ++ t :: same := by
    have hpre : (pre ++ t :: same).filter (fun x => s.priority x = s.priority t) =
        pre ++ t :: same := by
      apply List.filter_eq_self.2
      intro x hx
      rw [decide_eq_true_eq]
      simp only [List.mem_append, List.mem_cons] at hx hsame
      rcases hx with hx | rfl | hx
      · exact hsame x (.inl hx)
      · rfl
      · exact hsame x (.inr hx)
    have hnone : rest.filter (fun x => s.priority x = s.priority t) = [] := by
      apply List.filter_eq_nil_iff.2
      intro x hx
      rw [decide_eq_true_eq]
      exact Nat.ne_of_lt (hrest x hx)
    have hr' : r = (pre ++ t :: same) ++ rest := by
      rw [hr]
      simp
    rw [Sched.peers, hr', List.filter_append, hpre, hnone, List.append_nil]
  rw [hpeers, hr]
  simp

/-- From a task of the top priority the search leads to the next one, in a circle. -/
theorem Queues.findNewTask_peers (hq : Queues s (E ++ rest) w) (hE : ∀ x ∈ E, s.priority x = p)
    (hrest : ∀ x ∈ rest, s.priority x < p) (hn : (E ++ rest).length ≤ s.bound)
    (hj : cyclic E j = some t) : findNewTask s t = .ok (cyclic E (j + 1)) := by
  obtain ⟨pre, same, rfl, hnext⟩ := cyclic_split hj
  have ht : s.priority t = p := hE t (cyclic_mem hj)
  have hr : pre ++ t :: same ++ rest = pre ++ t :: (same ++ rest) := by simp
  rw [(hq.round hr hn).findNewTask, hnext]
  refine congrArg Except.ok (hq.pick_of_top hr (fun x hx => ?_) fun x hx => ?_)
  · rw [ht]
    apply hE x
    simp only [List.mem_append, List.mem_cons] at hx ⊢
    exact hx.imp_right .inr
  · rw [ht]
    exact hrest x hx

end Peers

/-- The tasks of the run queue take turns from `k` on, and the one at the position `j` of `E` has
the processor in `k'`. -/
structure Turning (k : Kernel) (E r w : List TaskId) (j : Nat) (k' : Kernel) : Prop where
  ready : Ready k'
  queues : Queues k'.toSched r w
  scheduled : k'.scheduled = none
  running : k'.running = cyclic E j
  active : ∀ t, k'.running = some t → k'.status t = .active
  priority : k'.priority = k.priority
  delay : ∀ x ∈ w, k'.delay x = k.delay x
  idle : k'.idle = k.idle
  semaphore : k'.taskSemaphore = k.taskSemaphore
  flags : ∀ x, k'.flags x = k.flags x ∨ k.taskSemaphore x = none

namespace Turning

theorem clock (h : Turning k E r w j k') (now : Nat × Nat) : Turning k E r w j
    { k' with uptime := now.1 % 2 ^ 32, micros := now.2 % 2 ^ 32 } := by
  have hq : Queues { k'.toSched with uptime := now.1 % 2 ^ 32, micros := now.2 % 2 ^ 32 } r w :=
    h.queues.congr ⟨h.queues.run, h.queues.wait, h.queues.disjoint⟩ rfl (fun _ _ => rfl)
      (fun _ => rfl) fun _ => Iff.rfl
  exact ⟨h.ready.setSched ⟨r, w, hq, False.elim⟩ rfl h.ready.used, hq, h.scheduled, h.running,
    h.active, h.priority, h.delay, h.idle, h.semaphore, h.flags⟩

theorem wakeExpired (h : Turning k E r w j k') (hnow : k.Quiet w now)
    (hu : k'.uptime = now.1 % 2 ^ 32) : wakeExpired k'.toSched = .ok k'.toSched := by
  obtain ⟨-, hw, -⟩ := h.ready.length_le h.queues
  have hnone : (w.find? fun x => k'.Due x) = none := by
    apply List.find?_eq_none.2
    intro x hx
    rw [decide_eq_true_eq]
    intro hd
    apply hnow x hx
    rwa [Sched.Due, h.delay x hx, hu] at hd
  rw [wakeExpired_eq h.queues hw, hnone]

theorem dispatches (h : Turning k E r w j k') (hd : Dispatches k' y k₁) (hy : y ∈ r)
    (hnext : cyclic E (j + 1) = some y) : Turning k E r w (j + 1)
      { k₁ with running := k₁.scheduled, scheduled := none, pendSv := false } := by
  have hwait := h.queues.not_wait hy
  have hyw : y ∉ w := h.queues.notMem_wait (h.queues.runnable y hy)
  have hused : ∀ x, k₁.Used x → x ∈ k₁.tasks := by
    intro x hx
    rw [hd.tasks]
    rcases Sched.Used.of_dispatches hd hx with hx | rfl
    · exact h.ready.used x hx
    · exact h.ready.used x (h.queues.used (List.mem_append_left _ hy))
  have hact := hd.status_self
  have hsched := hd.scheduled
  have hpri := hd.priority
  have hdelay := hd.delay
  have htasks := hd.tasks
  obtain ⟨running, o, s, -, hne, ho, hs, rfl⟩ := hd
  have hdet : Detaches k'.toObjects y { o with flags := update o.flags y 0 } := ⟨_, o, ho, rfl⟩
  obtain ⟨hfields, -⟩ := hdet.fields h.ready.flagged
  obtain ⟨hq, -⟩ := dispatchSwitch_queues hs h.queues hne
  have hr : dispatchRun k'.toSched y r = r := if_neg hwait
  have hw : dispatchWait k'.toSched y w = w := if_neg hwait
  rw [hr, hw] at hq
  have hq' : Queues { s with running := s.scheduled, scheduled := none, pendSv := false } r w :=
    hq.congr ⟨hq.run, hq.wait, hq.disjoint⟩ rfl (fun _ _ => rfl) (fun _ => rfl) fun _ => Iff.rfl
  refine ⟨⟨⟨r, w, hq', False.elim⟩, hdet.flagged h.ready.flagged, ?_, fun x hx => hused x ?_⟩, hq',
    rfl, hsched.trans hnext.symm, fun t ht => ?_, hpri.trans h.priority, fun x hx => ?_, ?_, ?_,
    fun x => ?_⟩
  · have hl := hdet.linked h.ready.flagged h.ready.linked
    rw [← htasks] at hl
    exact hl
  · rcases hx with hx | hx | hx
    · exact .inr (.inl hx)
    · cases hx
    · exact .inr (.inr hx)
  · obtain rfl : y = t := Option.some.inj (hsched.symm.trans ht)
    exact hact
  · rw [← h.delay x hx]
    refine (congrFun hdelay x).trans (Function.update_of_ne ?_ _ _)
    exact ne_of_mem_of_not_mem hx hyw
  · have hi := (dispatchSwitch_fields hs).idle
    have hi' : (k'.dispatched running y).idle = k'.idle := by simp [Sched.dispatched]
    exact hi.trans (hi'.trans h.idle)
  · change ({ o with flags := update o.flags y 0 } : Objects).taskSemaphore = _
    rw [hfields]
    exact h.semaphore
  · change ({ o with flags := update o.flags y 0 } : Objects).flags x = _ ∨ _
    rcases hdet.cases h.ready.flagged with ⟨-, he⟩ | ⟨_, _, _, -, -, hsem, -, -⟩
    · rw [he]
      exact h.flags x
    · by_cases hx : x = y
      · subst hx
        rw [h.semaphore] at hsem
        exact .inr hsem
      · rw [hfields]
        simp only [Function.update_of_ne hx]
        exact h.flags x

theorem not_idle (h : Turning k E r w j k') (ht : k'.running = some t) : k'.status t ≠ .idle := by
  rw [h.active t ht]
  decide

theorem spared_iff (h : Turning k E r w j k') :
    k'.flags y = 0 ∨ k'.taskSemaphore y = none ↔ k.flags y = 0 ∨ k.taskSemaphore y = none := by
  rw [h.semaphore]
  rcases h.flags y with hf | hs
  · rw [hf]
  · simp [hs]

theorem dispatches_iff (h : Turning k E r w j k') (ht : k'.running = some t) (hy : y ∈ r)
    (hty : t ≠ y) : (∃ k₁, Dispatches k' y k₁) ↔
      (k.flags y = 0 ∨ k.taskSemaphore y = none) ∧ (k.idle = some y → r.length = 1) := by
  rw [← h.spared_iff, ← h.idle, ← h.ready.dispatch_iff h.queues ht hty (h.queues.not_wait hy)]
  apply exists_congr
  intro k₁
  rw [osiDispatch_eq_ok, or_iff_right]
  rintro ⟨he, -⟩
  exact hty (Option.some.inj (ht.symm.trans he))

section Step
variable (hne : E ≠ []) (hE : ∀ x ∈ E, k.priority x = p) (hrest : ∀ x ∈ rest, k.priority x < p)
include hE hrest

theorem findNewTask (h : Turning k E (E ++ rest) w j k') (ht : k'.running = some t) :
    findNewTask k'.toSched t = .ok (cyclic E (j + 1)) := by
  obtain ⟨hn, -, -⟩ := h.ready.length_le h.queues
  rw [← h.priority] at hE hrest
  exact h.queues.findNewTask_peers hE hrest hn (h.running.symm.trans ht)

theorem schedule_iff (h : Turning k E (E ++ rest) w j k') (hnow : k.Quiet w now)
    (hu : k'.uptime = now.1 % 2 ^ 32) (ht : k'.running = some t) (hy : cyclic E (j + 1) = some y) :
    osiSchedule k' = .ok k₁ ↔ y = t ∧ k₁ = k' ∨ y ≠ t ∧ Dispatches k' y k₁ := by
  have hwake := h.wakeExpired hnow hu
  have hfind := h.findNewTask hE hrest ht
  rw [hy] at hfind
  rw [osiSchedule_eq_ok ht (h.not_idle ht) h.scheduled]
  constructor
  · rintro ⟨running, s, new, hr, -, -, hw, hn, hd⟩
    cases ht.symm.trans hr
    cases hwake.symm.trans hw
    cases hfind.symm.trans hn
    rcases hd with ⟨hsame, hk⟩ | ⟨_, he, hd⟩
    · exact .inl ⟨hsame, hk⟩
    · cases he
      exact .inr ⟨fun hyt => hd.running_ne (hyt ▸ ht), hd⟩
  · intro h'
    refine ⟨t, k'.toSched, some y, ht, h.not_idle ht, h.scheduled, hwake, hfind, ?_⟩
    rcases h' with ⟨hyt, hk⟩ | ⟨-, hd⟩
    · exact .inl ⟨hyt, hk⟩
    · exact .inr ⟨y, rfl, hd⟩

include hne

theorem step (h : Turning k E (E ++ rest) w j k') (hnow : k.Quiet w now)
    (ht : turn k' now = .ok k₁) : Turning k E (E ++ rest) w (j + 1) k₁ := by
  have hc := h.clock now
  obtain ⟨t, hj⟩ := exists_cyclic hne j
  obtain ⟨y, hy⟩ := exists_cyclic hne (j + 1)
  have hr := hc.running.trans hj
  simp only [turn, bind_eq_ok] at ht
  obtain ⟨k₂, h₂, ht⟩ := ht
  rcases (hc.schedule_iff hE hrest hnow rfl hr hy).1 h₂ with ⟨rfl, rfl⟩ | ⟨-, hd⟩
  · rw [if_pos hc.scheduled] at ht
    cases ht
    exact { hc with running := hr.trans hy.symm }
  · have hsched : k₂.scheduled ≠ none := by
      rw [hd.scheduled]
      exact Option.some_ne_none y
    rw [if_neg hsched] at ht
    cases ht
    exact hc.dispatches hd (List.mem_append_left _ (cyclic_mem hy)) hy

/-- A turn goes through if the next task has the processor already or can be dispatched. -/
theorem turn_iff (h : Turning k E (E ++ rest) w j k') (hnow : k.Quiet w now)
    (hy : cyclic E (j + 1) = some y) : (∃ k₁, turn k' now = .ok k₁) ↔ cyclic E j = some y ∨
      (k.flags y = 0 ∨ k.taskSemaphore y = none) ∧
        (k.idle = some y → (E ++ rest).length = 1) := by
  have hc := h.clock now
  obtain ⟨t, hj⟩ := exists_cyclic hne j
  have hr := hc.running.trans hj
  have hok : (∃ k₁, turn k' now = .ok k₁) ↔ ∃ k₂, osiSchedule
      { k' with uptime := now.1 % 2 ^ 32, micros := now.2 % 2 ^ 32 } = .ok k₂ := by
    simp only [turn, bind_eq_ok]
    constructor
    · rintro ⟨k₁, k₂, h₂, -⟩
      exact ⟨k₂, h₂⟩
    · rintro ⟨k₂, h₂⟩
      by_cases hs : k₂.scheduled = none
      · exact ⟨k₂, k₂, h₂, if_pos hs⟩
      · exact ⟨_, k₂, h₂, if_neg hs⟩
  simp only [hok, hc.schedule_iff hE hrest hnow rfl hr hy]
  have hyr : y ∈ E ++ rest := List.mem_append_left _ (cyclic_mem hy)
  rw [hj, Option.some.injEq]
  by_cases hyt : y = t
  · simp [hyt]
  · rw [← hc.dispatches_iff hr hyr (Ne.symm hyt)]
    simp only [hyt, false_and, false_or, ne_eq, not_false_eq_true, true_and, Ne.symm hyt]

theorem run (h : Turning k E (E ++ rest) w j k') (hnow : ∀ now ∈ times, k.Quiet w now)
    (ht : turns k' times = .ok k₁) : Turning k E (E ++ rest) w (j + times.length) k₁ := by
  induction times generalizing j k' with
  | nil =>
    cases ht
    exact h
  | cons now times ih =>
    simp only [turns, bind_eq_ok] at ht
    obtain ⟨k₂, h₂, ht⟩ := ht
    have hstep := h.step hne hE hrest (hnow now List.mem_cons_self) h₂
    have hrun := ih hstep (fun x hx => hnow x (List.mem_cons_of_mem _ hx)) ht
    rw [List.length_cons, Nat.add_comm times.length, ← Nat.add_assoc]
    exact hrun

theorem total (h : Turning k E (E ++ rest) w j k') (hnow : ∀ now ∈ times, k.Quiet w now)
    (hc : E.length = 1 ∨ ∀ x ∈ E, (k.flags x = 0 ∨ k.taskSemaphore x = none) ∧ k.idle ≠ some x) :
    ∃ k₁, turns k' times = .ok k₁ := by
  induction times generalizing j k' with
  | nil => exact ⟨k', rfl⟩
  | cons now times ih =>
    have hnow' := hnow now List.mem_cons_self
    obtain ⟨y, hy⟩ := exists_cyclic hne (j + 1)
    obtain ⟨k₂, h₂⟩ : ∃ k₂, turn k' now = .ok k₂ := by
      apply (h.turn_iff hne hE hrest hnow' hy).2
      rcases hc with hone | hall
      · refine .inl (Eq.trans ?_ hy)
        rw [← cyclic_add_length, hone]
      · obtain ⟨hsem, hidle⟩ := hall y (cyclic_mem hy)
        exact .inr ⟨hsem, fun he => absurd he hidle⟩
    obtain ⟨k₁, h₁⟩ := ih (h.step hne hE hrest hnow' h₂) fun x hx =>
      hnow x (List.mem_cons_of_mem _ hx)
    exact ⟨k₁, bind_eq_ok.2 ⟨k₂, h₂, h₁⟩⟩

end Step

end Turning

/-- The tasks of the priority of the running task `t` take turns: after any number of turns the
run queue is as before, and the processor has gone round as many of them. A whole round comes to
each of them once, and back to `t`. -/
structure RoundRobin (k : Kernel) (t : TaskId) (r w : List TaskId) : Prop where
  goesRound : ∀ times : List (Nat × Nat), (∀ now ∈ times, k.Quiet w now) →
    ∃ k', turns k times = .ok k' ∧ Chain k'.nrp k'.runqueue r ∧ k'.scheduled = none ∧
      k'.running = cyclic (k.peers t r) ((k.peers t r).idxOf t + times.length)
  once : ∀ times : List (Nat × Nat), (∀ now ∈ times, k.Quiet w now) →
    times.length = (k.peers t r).length → ∀ x ∈ k.peers t r, ∃! j, j < times.length ∧
      ∃ k', turns k (times.take (j + 1)) = .ok k' ∧ k'.running = some x
  back : ∀ times : List (Nat × Nat), (∀ now ∈ times, k.Quiet w now) →
    times.length = (k.peers t r).length → ∃ k', turns k times = .ok k' ∧ k'.running = some t

theorem RoundRobin.of_turning (ht : t ∈ k.peers t r) (hn : (k.peers t r).Nodup)
    (h : ∀ times : List (Nat × Nat), (∀ now ∈ times, k.Quiet w now) → ∃ k', turns k times = .ok k' ∧
      Turning k (k.peers t r) r w ((k.peers t r).idxOf t + times.length) k') :
    RoundRobin k t r w where
  goesRound times hnow := by
    obtain ⟨k', hk', h'⟩ := h times hnow
    exact ⟨k', hk', h'.queues.run, h'.scheduled, h'.running⟩
  once times hnow hlen x hx := by
    obtain ⟨j, hj, huniq⟩ := existsUnique_cyclic hn hx ((k.peers t r).idxOf t)
    have hiff {i : Nat} (hi : i < times.length) : (∃ k', turns k (times.take (i + 1)) = .ok k' ∧
        k'.running = some x) ↔ cyclic (k.peers t r) ((k.peers t r).idxOf t + (i + 1)) = some x := by
      obtain ⟨k', hk', h'⟩ :=
        h (times.take (i + 1)) fun now hm => hnow now (List.mem_of_mem_take hm)
      have hrun := h'.running
      rw [List.length_take_of_le hi] at hrun
      rw [hk', ← hrun]
      simp
    obtain ⟨hlt, hj⟩ := hj
    have hlt : j < times.length := hlen.symm ▸ hlt
    exact ⟨j, ⟨hlt, (hiff hlt).2 hj⟩, fun i hi => huniq i ⟨hlen ▸ hi.1, (hiff hi.1).1 hi.2⟩⟩
  back times hnow hlen := by
    obtain ⟨k', hk', h'⟩ := h times hnow
    refine ⟨k', hk', ?_⟩
    rw [h'.running, hlen, cyclic_add_length, cyclic_idxOf ht]

/-- The tasks of the top priority take turns exactly if there is only one of them, or if each of
them can be dispatched: it does not point to a semaphore as a blocked task, and is not the idle
task. -/
theorem roundRobin_iff (hk : Ready k) (hq : Queues k.toSched r w) (hs : k.scheduled = none)
    (hr : k.running = some t) (hst : k.status t = .active) (ht : t ∈ r)
    (htop : ∀ x ∈ r, k.priority x ≤ k.priority t) (hnow : k.Quiet w now) :
    RoundRobin k t r w ↔ (k.peers t r).length = 1 ∨
      ∀ x ∈ k.peers t r, (k.flags x = 0 ∨ k.taskSemaphore x = none) ∧ k.idle ≠ some x := by
  obtain ⟨rest, hrE, hrest⟩ := hq.peers ht htop
  have htE : t ∈ k.peers t r := List.mem_filter.2 ⟨ht, by simp⟩
  have hne : k.peers t r ≠ [] := List.ne_nil_of_mem htE
  have hE : ∀ x ∈ k.peers t r, k.priority x = k.priority t := by
    intro x hx
    simpa using (List.mem_filter.1 hx).2
  have hn : (k.peers t r).Nodup := hq.nodup_run.filter _
  have h₀ : Turning k (k.peers t r) (k.peers t r ++ rest) w ((k.peers t r).idxOf t) k := by
    refine ⟨hk, hrE ▸ hq, hs, hr.trans (cyclic_idxOf htE).symm, fun x hx => ?_, rfl, fun _ _ => rfl,
      rfl, rfl, fun _ => .inl rfl⟩
    cases hr.symm.trans hx
    exact hst
  constructor
  · intro h
    apply or_iff_not_imp_left.2
    intro hone x hx
    have hlen : 1 < (k.peers t r).length := by
      have hpos := List.length_pos_of_mem htE
      omega
    -- the turn that comes to `x`, and the turns before it
    obtain ⟨j, ⟨-, hj⟩, -⟩ := existsUnique_cyclic hn hx ((k.peers t r).idxOf t)
    obtain ⟨k', hk', -⟩ := h.goesRound (List.replicate (j + 1) now) fun now' hm => by
      rw [List.eq_of_mem_replicate hm]
      exact hnow
    rw [List.replicate_succ', turns_append] at hk'
    obtain ⟨k₁, h₁, h₂⟩ := hk'
    simp only [turns, bind_eq_ok, Except.ok.injEq, exists_eq_right] at h₂
    have hrun := h₀.run hne hE hrest (fun now' hm => by
      rw [List.eq_of_mem_replicate hm]
      exact hnow) h₁
    rw [List.length_replicate] at hrun
    rcases (hrun.turn_iff hne hE hrest hnow hj).1 ⟨k', h₂⟩ with hsame | ⟨hsem, hidle⟩
    · exact absurd hj (cyclic_succ_ne hn hlen hsame)
    · constructor
      · exact hsem
      · intro he
        have hl := hidle he
        rw [List.length_append] at hl
        omega
  · intro hc
    refine .of_turning htE hn fun times hquiet => ?_
    obtain ⟨k', hk'⟩ := h₀.total hne hE hrest hquiet hc
    have hrun := h₀.run hne hE hrest hquiet hk'
    rw [← hrE] at hrun
    exact ⟨k', hk', hrun⟩

set_option maxRecDepth 10000 in
theorem roundRobin_two : ∃ k : Kernel, k.running = some 1 ∧ k.peers 1 [1, 2, 0] = [1, 2] ∧
    RoundRobin k 1 [1, 2, 0] [] := by
  obtain ⟨k, hk, hs, hr, hst, ⟨h0, h1, h2, h3, hw⟩, hp0, hp1, hp2, hf1, hf2, hi⟩ :=
    (Boot.simple [0, 16, 16] (by simp)).exists_after (fun _ _ => True)
      (fun k => k.scheduled = none ∧ k.running = some 1 ∧ k.status 1 = .active ∧
        (k.runqueue = some 1 ∧ k.nrp 1 = some 2 ∧ k.nrp 2 = some 0 ∧ k.nrp 0 = none ∧
          k.waitqueue = none) ∧ k.priority 0 = 0 ∧ k.priority 1 = 16 ∧ k.priority 2 = 16 ∧
          k.flags 1 = 0 ∧ k.flags 2 = 0 ∧ k.idle = some 0)
      [.schedule, .contextSwitch] (by decide)
  have hq : Queues k.toSched [1, 2, 0] [] :=
    reach_queues hk (by simp [h0, h1, h2, h3]) (by simp [hw])
  have hpeers : k.peers 1 [1, 2, 0] = [1, 2] := by simp [Sched.peers, hp0, hp1, hp2]
  have hnow : k.Quiet [] (0, 0) := nofun
  refine ⟨k, hr, hpeers, (roundRobin_iff (reach_ready hk) hq hs hr hst (by simp)
    (by simp [hp0, hp1, hp2]) hnow).2 (.inr ?_)⟩
  rw [hpeers]
  simp [hf1, hf2, hi]

set_option maxRecDepth 10000 in
/-- Task 1 has timed out on its semaphore and is runnable: the turn that should come to it fails. -/
theorem not_roundRobin_timed_out : ∃ (k : Kernel) (t : TaskId) (r w : List TaskId)
    (now : Nat × Nat), machine.Reach (fun _ _ => True) k ∧ Queues k.toSched r w ∧
      k.scheduled = none ∧ k.running = some t ∧ k.status t = .active ∧ t ∈ r ∧
      (∀ x ∈ r, k.priority x ≤ k.priority t) ∧ 0 < k.priority t ∧ k.Quiet w now ∧
      ¬ RoundRobin k t r w := by
  obtain ⟨k, hk, hs, hr, hst, ⟨h0, h1, h2, h3, h4, h5⟩, ⟨hp0, hp1, hp2⟩, hd, hfail⟩ :=
    (Boot.simple [0, 16, 16, 20] (by simp)).exists_after (fun _ _ => True)
      (fun k => k.scheduled = none ∧ k.running = some 2 ∧ k.status 2 = .active ∧
        (k.runqueue = some 2 ∧ k.nrp 2 = some 1 ∧ k.nrp 1 = some 0 ∧ k.nrp 0 = none ∧
          k.waitqueue = some 3 ∧ k.nrp 3 = none) ∧
        (k.priority 0 = 0 ∧ k.priority 1 = 16 ∧ k.priority 2 = 16) ∧
        ¬ Sched.Due { k.toSched with uptime := 6 } 3 ∧ (turns k [(6, 0)]).toOption.isNone)
      [.schedule, .contextSwitch, .svc (.delay 3), .contextSwitch, .svc (.semaphoreAcquire 0 5),
        .contextSwitch, .clock 3 0, .systick, .contextSwitch, .clock 6 0, .systick,
        .svc (.delay 100), .contextSwitch] (by decide)
  have hnow : k.Quiet [3] (6, 0) := by
    intro x hx
    obtain rfl := List.mem_singleton.1 hx
    exact hd
  refine ⟨k, 2, [2, 1, 0], [3], (6, 0), hk,
    reach_queues hk (by simp [h0, h1, h2, h3]) (by simp [h4, h5]), hs, hr, hst, by simp,
    by simp [hp0, hp1, hp2], by rw [hp2]; decide, hnow, fun h => ?_⟩
  obtain ⟨k', hk', -⟩ := h.goesRound [(6, 0)] fun now hm => by
    obtain rfl := List.mem_singleton.1 hm
    exact hnow
  rw [hk'] at hfail
  cases hfail

end Osh
