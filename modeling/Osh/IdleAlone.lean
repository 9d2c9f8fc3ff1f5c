import Osh.PriorityRuns
import Osh.Stops
import Osh.Turns

namespace Osh
open Function (update)
open Lib

variable {k k' k₁ : Kernel} {s : Sched} {o : Objects} {t x i : TaskId} {w : Waitable} {a : Act}
  {c : Prop} {L : Waitable → List TaskId} {ok : Kernel → Act → Prop}

/-- `OS_PRIORITY_IDLE`, which is `OS_PRIORITY_LOWEST` as well. -/
def priorityIdle : Nat := 0

section Dispatching

theorem SleepsInto.keepsQueued {ms : Nat} (h : SleepsInto k ms t k₁) (hq : Queued c k.toSched)
    (hn : NextInv (· ≠ .wait) k.toSched) : Queued c k₁.toSched := by
  obtain ⟨hr, hs, -, s, hset, rfl⟩ := h
  exact hq.sleeps hn hs hr hset

theorem EntersSchedule.keepsQueued (h : EntersSchedule k a k₁) (hq : Queued c k.toSched)
    (hn : NextInv (· ≠ .wait) k.toSched) : Queued c k₁.toSched := by
  cases h with
  | schedule | systick => exact hq
  | delay h => exact h.keepsQueued hq hn
  | abort hr hs h => exact hq.aborts hn hs hr h
  | block _ _ h => exact h.keepsQueued hq hn
  | queued _ _ hs => exact hq.makesRunnable hs

theorem SleepsInto.requeued {ms : Nat} (h : SleepsInto k ms t k₁) :
    Requeued k.toSched k₁.toSched := by
  obtain ⟨-, -, -, s, hset, rfl⟩ := h
  exact Requeued.trans rfl (.set hset)

theorem EntersSchedule.requeued (h : EntersSchedule k a k₁) : Requeued k.toSched k₁.toSched := by
  cases h with
  | schedule | systick => rfl
  | delay h => exact h.requeued
  | abort _ _ h => exact .set h
  | block _ _ h => exact h.requeued
  | queued _ _ hs => rw [Requeued, hs.rethreaded]

namespace Act.Dispatching

theorem requeued (h : a.Dispatching k k₁ t) : Requeued k.toSched k₁.toSched := by
  cases h with
  | direct => rfl
  | found he _ _ _ hw =>
    apply he.requeued.trans
    rw [Requeued, wakeLoop_rethreaded hw]

theorem keepsQueued (h : a.Dispatching k k₁ t) (hq : Queued c k.toSched)
    (hn : NextInv (· ≠ .wait) k.toSched) : Queued c k₁.toSched := by
  cases h with
  | direct => exact hq
  | found he _ _ _ hw => exact (he.keepsQueued hq hn).wakes hw

/-- `osi_dispatch` is never called for a task that a runnable one is above. -/
theorem top (h : a.Dispatching k k₁ t) (hq : Queued True k.toSched)
    (hn : NextInv (· ≠ .wait) k.toSched) (hu : ∀ x, k₁.Used x → x ∈ k₁.tasks)
    (hx : (k₁.status x).isRunning) : k₁.priority x ≤ k₁.priority t := by
  obtain ⟨r, w, hq', hc⟩ := h.keepsQueued hq hn
  have hxr : x ∈ r := (hc trivial).mem_run x hx
  cases h with
  | direct _ hh =>
    by_contra hlt
    cases (runqueueHasHigherPriority_spec hh hq').2 ⟨x, hxr, Nat.not_le.1 hlt⟩
  | found _ _ _ _ _ hf =>
    have hlen := hq'.length_le_bound hu
    exact (hq'.findNewTask_top (hc trivial) hlen hf).1 t rfl x hxr

theorem alive (h : a.Dispatching k k₁ t) (hb : BlockedRest k)
    (hi : BlockedInv k.toObjects L) : (k₁.status t).isAlive := by
  cases h with
  | direct h =>
    obtain ⟨w, hw, -⟩ := h.quiet
    apply TaskStatus.IsResting.isAlive
    apply hb
    rw [(hi.waits w t (hi.mem_iff.2 (Objects.onList_of_blocked hw))).2]
    exact flag_ne_zero w
  | found _ _ _ _ _ hf => exact findNewTask_isRunning hf

end Act.Dispatching

end Dispatching

/-- The run queue that the assertion on the idle task is about, once `i` is dispatched in `s`, is
`i` alone. -/
def Sched.OnlyIdle (s : Sched) (i : TaskId) : Prop :=
  ∃ r, Chain s.nrp s.runqueue r ∧ dispatchRun s i r = [i]

theorem Sched.OnlyIdle.runsAlone (h : s.OnlyIdle i) : s.RunsAlone i := by
  obtain ⟨r, hr, hone⟩ := h
  intro r' hr'
  rw [hr'.unique hr, ← length_dispatchRun, hone]
  rfl

theorem Queues.onlyIdle_iff {r w : List TaskId} (hq : Queues s r w) (hc : Complete s r w)
    (hi : (s.status i).isAlive) (htop : ∀ x, (s.status x).isRunning → s.priority x ≤ s.priority i) :
    s.OnlyIdle i ↔ ∀ x ≠ i, (s.status x).isRunning → s.priority i < s.priority x := by
  constructor
  · rintro ⟨r', hr', hone⟩ x hxi hx
    obtain rfl := hq.run.unique hr'
    have hxr : x ∈ dispatchRun s i r := mem_dispatchRun.2 (.inl (hc.mem_run x hx))
    rw [hone, List.mem_singleton] at hxr
    exact absurd hxr hxi
  · intro h
    refine ⟨r, hq.run, ?_⟩
    have hsub : ∀ x ∈ r, x = i := by
      intro x hxr
      by_contra hxi
      have hx := hq.runnable x hxr
      exact absurd (htop x hx) (Nat.not_le.2 (h x hxi hx))
    have hmem : i ∈ dispatchRun s i r := by
      apply mem_dispatchRun.2
      rcases TaskStatus.isAlive_iff.1 hi with hi | hi
      · exact .inl (hc.mem_run i hi)
      · exact .inr ⟨hi, rfl⟩
    apply List.perm_singleton.1
    apply (List.perm_ext_iff_of_nodup hq.nodup_dispatchRun (List.nodup_singleton i)).2
    intro x
    rw [List.mem_singleton]
    constructor
    · intro hx
      rcases mem_dispatchRun.1 hx with hx | ⟨-, hx⟩
      · exact hsub x hx
      · exact hx
    · rintro rfl
      exact hmem

def Stop.isIdleCheck : Stop → Prop
  | .assertion .dispatchIdle => True
  | _ => False

section Assertion

theorem Stop.isIdleCheck.isChecked {e : Stop} (h : e.isIdleCheck) : e.isChecked := by
  unfold Stop.isIdleCheck at h
  split at h
  · trivial
  · exact h.elim

theorem Stop.isIdleCheck.avoids {α : Type} {x : Except Stop α} (hx : Avoids Stop.isChecked x) :
    Avoids Stop.isIdleCheck x := hx.mono fun _ => Stop.isIdleCheck.isChecked

theorem osAssert_sparesIdle {site : Site} {p : Prop} [Decidable p]
    (hs : ¬ (Stop.assertion site).isIdleCheck) : Avoids Stop.isIdleCheck (osAssert site p) :=
  osAssert_spares hs

theorem blockedAppendLoop_sparesIdle {n : Nat} {b : TaskId} :
    Avoids Stop.isIdleCheck (blockedAppendLoop t n o b) := by
  induction n generalizing b with
  | zero => exact .error id
  | succ n ih =>
    unfold blockedAppendLoop
    apply (osAssert_sparesIdle id).bind
    intro _ _
    apply (osAssert_sparesIdle id).bind
    intro _ _
    cases o.nblocked b with
    | none => exact .ok
    | some next => exact ih

theorem blockedEnq_sparesIdle {n : Nat} : Avoids Stop.isIdleCheck (blockedEnq n o w t) := by
  apply Avoids.bind
  · apply (osAssert_sparesIdle id).bind
    intro _ _
    cases o.blocked w with
    | none => exact .ok
    | some head => exact blockedAppendLoop_sparesIdle
  · intro _ _
    exact (osAssert_sparesIdle id).bind fun _ _ => .pure

theorem blockedDeq_sparesIdle : Avoids Stop.isIdleCheck (blockedDeq o w) := by
  unfold blockedDeq
  cases o.blocked w with
  | none => exact .ok
  | some t => exact (osAssert_sparesIdle id).bind fun _ _ => .pure

theorem Callable.osiDispatch_sparesIdle (hc : Callable k L) (ht : t ∈ k.tasks)
    (h : k.running ≠ some t → k.idle = some t → k.RunsAlone t) :
    Avoids Stop.isIdleCheck (osiDispatch k t) := by
  unfold osiDispatch
  cases hr : k.running with
  | none => exact .error id
  | some r =>
    dsimp only
    split_ifs with hrt
    · exact .ok
    · apply (Stop.isIdleCheck.avoids dispatchDetach_avoids).bind
      intro o _
      have hne : k.running ≠ some t := fun he => hrt (Option.some.inj (hr.symm.trans he))
      obtain ⟨s, hs⟩ := (hc.dispatchSwitch_iff ht hrt).2 (h hne)
      rw [hs]
      exact .pure

end Assertion

section Runs

def IdleLowest (s : Sched) : Prop :=
  ∀ i, s.idle = some i → i ∈ s.tasks ∧ s.priority i = priorityIdle

theorem IdleLowest.initialize {options : TaskOptions} (h : IdleLowest k.toSched) (ht : t ∉ k.tasks)
    (hst : k.state = .initialized ∨ k.state = .tasksInitialized)
    (hk : osTaskInitializeOptions k t options = .ok k') : IdleLowest k'.toSched := by
  obtain ⟨-, s, hs, rfl⟩ := osTaskInitializeOptions_cases hst hk
  have hs' := joinRunqueue_rethreaded hs
  have htasks : s.tasks = t :: k.tasks := hs'.tasks
  have hp : s.priority = update k.priority t (if k.idle = none then 0 else options.priority) :=
    hs'.priority
  intro i hi
  have hidle : k.idle.or (some t) = some i := hs'.idle.symm.trans hi
  dsimp only
  rw [hp, htasks]
  cases hk₀ : k.idle with
  | none =>
    rw [hk₀, Option.none_or] at hidle
    cases hidle
    exact ⟨List.mem_cons_self, by simp [priorityIdle]⟩
  | some j =>
    rw [hk₀, Option.some_or] at hidle
    cases hidle
    obtain ⟨hi, hpi⟩ := h i hk₀
    refine ⟨List.mem_cons_of_mem _ hi, ?_⟩
    rwa [Function.update_of_ne (ne_of_mem_of_not_mem hi ht)]

theorem reach_idleLowest (h : machine.Reach ok k) (hok : ∀ k a, ok k a → ¬ a.restarts) :
    IdleLowest k.toSched := by
  refine h.invariant (I := fun k => IdleLowest k.toSched) ?_ ?_
  · rintro k ⟨b, hb⟩
    obtain ⟨k₀, i, hI, -, rfl⟩ := b.start_invariant (I := fun k => IdleLowest k.toSched) hb nofun
      fun k t options k' _ ht hst hk => hk.initialize ht hst
    exact hI
  · intro k a k' hk ha ⟨_, hr⟩ i hi
    have heff := Act.run_effect hr
    obtain ⟨hp, hidle⟩ := heff.turn.priority (hok k a ha)
    rw [heff.tasks, hp]
    exact hk i (hidle.symm.trans hi)

/-- Wherever a step dispatches the idle task, it is alone in the run queue, and the assertion that
checks this holds. -/
structure Act.IdleAlone (a : Act) (k : Kernel) (i : TaskId) : Prop where
  alone : ∀ k₁, a.Dispatching k k₁ i → k₁.running ≠ some i → k₁.OnlyIdle i
  passes : a.run k ≠ .error (.assertion .dispatchIdle)

/-- Wherever a step dispatches the idle task, no other task of its priority can run. -/
def Act.NoneAtIdle (a : Act) (k : Kernel) (i : TaskId) : Prop :=
  ∀ k₁, a.Dispatching k k₁ i → k₁.running ≠ some i →
    ∀ x ≠ i, (k₁.status x).isRunning → k₁.priority x ≠ priorityIdle

theorem noneAtIdle_of_priority (h : machine.Reach (fun _ a => a.Plain) k)
    (hp : ∀ x ∈ k.tasks, x ≠ i → k.priority x ≠ priorityIdle) : a.NoneAtIdle k i := by
  obtain ⟨⟨L, hc⟩, hn, hfree⟩ := reach_callable h fun k a ha => .of_not_restarts ha.1
  intro k₁ hd _ x hxi hx
  obtain ⟨-, L', hc'⟩ := hd.callable hc hn hfree
  have hmem : x ∈ k₁.tasks := by
    refine hc'.created.used x (.inr (.inr fun he => ?_))
    rw [he] at hx
    cases hx
  rw [hd.requeued.priority]
  rw [hd.requeued.tasks] at hmem
  exact hp x hmem hxi

/-- In a run that restarts, suspends and resumes no task and uses no read-write lock, the idle task
is alone in the run queue whenever it is dispatched exactly if no other runnable task has the
priority of the idle task then. -/
theorem idle_alone_iff (h : machine.Reach (fun _ a => a.Plain) k) (ha : a.Plain)
    (hi : k.idle = some i) : a.IdleAlone k i ↔ a.NoneAtIdle k i := by
  obtain ⟨⟨L, hc⟩, hn, hfree⟩ := reach_callable h fun k a ha => .of_not_restarts ha.1
  obtain ⟨hq, hrest⟩ := reach_blockedRest h fun _ _ ha => ha
  have hpi : k.priority i = priorityIdle := (reach_idleLowest h (fun _ _ ha => ha.1) i hi).2
  -- both sides speak about the same states, in which no runnable task is above the idle task
  have hone {k₁ : Kernel} (hd : a.Dispatching k k₁ i) : k₁.OnlyIdle i ↔
      ∀ x ≠ i, (k₁.status x).isRunning → k₁.priority x ≠ priorityIdle := by
    obtain ⟨-, L', hc'⟩ := hd.callable hc hn hfree
    obtain ⟨r, w, hq', hcomp⟩ := hd.keepsQueued hq hn
    have htop : ∀ x, (k₁.status x).isRunning → k₁.priority x ≤ k₁.priority i :=
      fun x => hd.top hq hn hc'.created.used
    have hpi₁ : k₁.priority i = priorityIdle := (congrFun hd.requeued.priority i).trans hpi
    rw [hq'.onlyIdle_iff (hcomp trivial) (hd.alive hrest hc.lists) htop, hpi₁]
    exact forall₂_congr fun x _ => imp_congr_right fun _ => Nat.pos_iff_ne_zero
  constructor
  · intro hal k₁ hd hrun
    exact (hone hd).1 (hal.alone k₁ hd hrun)
  · intro hnone
    have halone : ∀ k₁, a.Dispatching k k₁ i → k₁.running ≠ some i → k₁.OnlyIdle i :=
      fun k₁ hd hrun => (hone hd).2 (hnone k₁ hd hrun)
    constructor
    · exact halone
    · intro herr
      have hspared : Spared Stop.isIdleCheck k a := by
        refine ⟨fun _ => Stop.isIdleCheck.isChecked, fun _ _ _ _ _ _ => blockedEnq_sparesIdle,
          fun _ _ _ => blockedDeq_sparesIdle, fun k₁ t hd => ?_⟩
        obtain ⟨ht, L', hc'⟩ := hd.callable hc hn hfree
        apply hc'.osiDispatch_sparesIdle ht
        intro hrun hit
        obtain rfl : i = t := Option.some.inj (hi.symm.trans (hd.requeued.idle.symm.trans hit))
        exact (halone k₁ hd hrun).runsAlone
      exact hspared.run ha.1 _ herr trivial

set_option maxRecDepth 10000 in
theorem idle_alone_after_delay : ∃ k k' : Kernel, machine.step k (.svc (.delay 5)) k' ∧
    k.running = some 1 ∧ k'.scheduled = some 0 ∧ (Act.svc (.delay 5)).IdleAlone k 0 := by
  obtain ⟨k, k', hk, hs, ⟨hr, hi, ht, hp⟩, hs'⟩ :=
    (Boot.simple [0, 16] (by simp)).exists_step (fun _ a => a.Plain)
      (fun k => k.running = some 1 ∧ k.idle = some 0 ∧ k.tasks = [1, 0] ∧ k.priority 1 = 16)
      (fun k => k.scheduled = some 0) [.systick, .contextSwitch] (.svc (.delay 5)) (by decide)
  refine ⟨k, k', hs, hr, hs', (idle_alone_iff hk (by decide) hi).2 ?_⟩
  apply noneAtIdle_of_priority hk
  intro x hx hx0
  rw [ht] at hx
  obtain rfl : x = 1 := by simpa [hx0] using hx
  rw [hp]
  decide

set_option maxRecDepth 10000 in
/-- A task of the lowest priority shares it with the idle task: the tick takes the processor from
the one and finds the other, with both in the run queue. -/
theorem idle_not_alone : ∃ k : Kernel, machine.Reach (fun _ a => a.Plain) k ∧
    k.running = some 1 ∧ k.idle = some 0 ∧ k.priority 1 = priorityIdle ∧
    Act.systick.run k = .error (.assertion .dispatchIdle) ∧ ¬ Act.systick.IdleAlone k 0 := by
  obtain ⟨k, hk, hr, hi, hp, hstop⟩ := (Boot.simple [0, 0] (by simp)).exists_after
    (fun _ a => a.Plain) (fun k => k.running = some 1 ∧ k.idle = some 0 ∧
      k.priority 1 = priorityIdle ∧
      stopOf (Act.systick.run k) = some (.assertion .dispatchIdle))
    [.systick, .contextSwitch] (by decide)
  have herr := eq_error_of_stopOf hstop
  exact ⟨k, hk, hr, hi, hp, herr, fun h => h.passes herr⟩

end Runs

end Osh
