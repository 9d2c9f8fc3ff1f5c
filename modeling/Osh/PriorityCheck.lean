import Osh.DispatchSpec
import Osh.FixedRun

namespace Osh
open Function (update)
open Lib

variable {k k' : Kernel} {s s' : Sched} {t x y : TaskId} {r w : List TaskId} {n priority : Nat}
  {head scheduled : Option TaskId} {report : Report}

theorem mod_byte (h : n ≤ 0xff) : n % 2 ^ 8 = n := Nat.mod_eq_of_lt (Nat.lt_succ_of_le h)

section Loops

/-- The first loop reports the runnable tasks above the low byte of the scheduled priority. -/
theorem mem_priorityCheckScheduled (hc : Chain s.nrp head r) (hn : r.length ≤ n) :
    report ∈ priorityCheckScheduled s t n head ↔
      ∃ x ∈ r, ((s.status x).isRunning ∧ s.priority t % 2 ^ 8 < s.priority x) ∧
        report = .panic t x := by
  induction r generalizing n head with
  | nil =>
    obtain rfl : head = none := hc
    cases n <;> simp [priorityCheckScheduled]
  | cons b r ih =>
    obtain ⟨rfl, hb⟩ := chain_cons.1 hc
    cases n with
    | zero => simp at hn
    | succ n =>
      rw [priorityCheckScheduled, List.mem_append, ih hb (by simpa using hn)]
      simp only [List.mem_cons, exists_eq_or_imp]
      apply or_congr_left
      split_ifs with h
      · rw [List.mem_singleton]
        exact (and_iff_right h).symm
      · exact iff_of_false List.not_mem_nil fun hb => h hb.1

theorem panic_notMem_priorityCheckOrder : .panic y x ∉ priorityCheckOrder s n priority head := by
  induction n generalizing priority head with
  | zero => simp [priorityCheckOrder]
  | succ n ih =>
    cases head with
    | none => simp [priorityCheckOrder]
    | some b =>
      simp only [priorityCheckOrder, List.mem_append, not_or]
      refine ⟨⟨?_, ?_⟩, ih⟩ <;> split_ifs <;> simp

/-- The second loop goes down the run queue in 8-bit steps: it is content with the order if the
queue is in order and starts in 8 bits. -/
theorem priorityCheckOrder_content (hc : Chain s.nrp head r) (hn : r.length ≤ n)
    (hp : priority ≤ 0xff) : (∀ x, .priority x ∉ priorityCheckOrder s n priority head) ↔
      (∀ x ∈ r, s.priority x ≤ priority) ∧ r.Pairwise fun a b => s.priority b ≤ s.priority a := by
  induction r generalizing n head priority with
  | nil =>
    obtain rfl : head = none := hc
    cases n <;> simp [priorityCheckOrder]
  | cons b r ih =>
    obtain ⟨rfl, hb⟩ := chain_cons.1 hc
    cases n with
    | zero => simp at hn
    | succ n =>
      have hhead : (∀ x, .priority x ∉ priorityCheckOrder s (n + 1) priority (some b)) ↔
          s.priority b ≤ priority ∧
            ∀ x, .priority x ∉ priorityCheckOrder s n (s.priority b % 2 ^ 8) (s.nrp b) := by
        simp only [priorityCheckOrder, List.mem_append, not_or, forall_and]
        refine and_congr ⟨fun h => ?_, fun h => ⟨fun x => ?_, fun x => ?_⟩⟩ Iff.rfl
        · by_contra hlt
          have hb := h.2 b
          rw [if_pos hlt] at hb
          exact hb List.mem_cons_self
        · split_ifs <;> simp
        · rw [if_neg (not_not.2 h)]
          exact List.not_mem_nil
      rw [hhead, List.forall_mem_cons, List.pairwise_cons, and_assoc]
      apply and_congr_right
      intro hbp
      rw [mod_byte (hbp.trans hp), ih hb (by simpa using hn) (hbp.trans hp)]
      constructor
      · rintro ⟨hle, hs⟩
        exact ⟨fun x hx => (hle x hx).trans hbp, hle, hs⟩
      · rintro ⟨-, hle, hs⟩
        exact ⟨hle, hs⟩

theorem priority_notMem_priorityCheckScheduled :
    .priority x ∉ priorityCheckScheduled s t n head := by
  induction n generalizing head with
  | zero => simp [priorityCheckScheduled]
  | succ n ih =>
    cases head with
    | none => simp [priorityCheckScheduled]
    | some b =>
      rw [priorityCheckScheduled, List.mem_append, not_or]
      constructor
      · split_ifs <;> simp
      · exact ih

end Loops

def Sched.NoneAbove (s : Sched) (r : List TaskId) (priority : Nat) : Prop :=
  ∀ x ∈ r, (s.status x).isRunning → s.priority x ≤ priority

def Sched.InOrder (s : Sched) (r : List TaskId) : Prop :=
  r.Pairwise fun a b => s.priority b ≤ s.priority a

section Reports
variable (hc : Chain s.nrp s.runqueue r) (hn : r.length ≤ s.bound)
include hc hn

theorem reports_panic_iff : (∃ y x, .panic y x ∈ osiPriorityCheck s (some t)) ↔
    ¬ s.NoneAbove r (s.priority t % 2 ^ 8) := by
  simp only [osiPriorityCheck, List.mem_append, panic_notMem_priorityCheckOrder, or_false,
    mem_priorityCheckScheduled hc hn, Sched.NoneAbove, not_forall, Nat.not_le]
  constructor
  · rintro ⟨y, x, z, hz, ⟨hrun, hlt⟩, -⟩
    exact ⟨z, hz, hrun, hlt⟩
  · rintro ⟨x, hx, hrun, hlt⟩
    exact ⟨t, x, x, hx, ⟨hrun, hlt⟩, rfl⟩

theorem reports_priority_iff : (∃ x, .priority x ∈ osiPriorityCheck s scheduled) ↔
    ¬ (s.InOrder r ∧ ∀ x ∈ r, s.priority x ≤ 0xff) := by
  have hfirst {x : TaskId} : .priority x ∈ osiPriorityCheck s scheduled ↔
      .priority x ∈ priorityCheckOrder s s.bound 0xff s.runqueue := by
    cases scheduled with
    | none => simp [osiPriorityCheck]
    | some t => simp [osiPriorityCheck, priority_notMem_priorityCheckScheduled]
  simp only [hfirst]
  rw [Sched.InOrder, and_comm, ← priorityCheckOrder_content hc hn (Nat.le_refl _), not_forall_not]

end Reports

/-- `t` keeps its priority, and with it its place among the tasks. -/
structure KeepsPlace (s s' : Sched) (t : TaskId) : Prop where
  priority : s'.priority t = s.priority t
  above : ∀ x, s'.priority t < s'.priority x ↔ s.priority t < s.priority x
  below : ∀ x, s'.priority x < s'.priority t ↔ s.priority x < s.priority t

theorem osTaskStart_priority (h : osTaskStart k t = .ok k') :
    k'.priority = update k.priority t (k.priority t % 2 ^ 8) :=
  (osTaskStartOptions_rethreaded h).priority

theorem osTaskStart_keepsPlace_iff (h : osTaskStart k t = .ok k') :
    KeepsPlace k.toSched k'.toSched t ↔ k.priority t ≤ 0xff := by
  have hp := osTaskStart_priority h
  constructor
  · intro hk
    have hmod := hk.priority
    rw [hp, Function.update_self] at hmod
    have hlt := Nat.mod_lt (k.priority t) (Nat.two_pow_pos 8)
    omega
  · intro hle
    rw [mod_byte hle, Function.update_eq_self] at hp
    refine ⟨?_, fun x => ?_, fun x => ?_⟩ <;> rw [hp]

/-- When `osi_priority_check` and `os_task_start` see the priorities that `runqueue_add` and
`find_new_task` compare: the check reports a panic exactly if a runnable task is above `t`, and an
error exactly if the run queue is out of order, and a restart changes no task's place. -/
theorem priority_check_iff (hc : Chain k.nrp k.runqueue r) (hr : ∀ x ∈ r, x ∈ k.tasks)
    (t : TaskId) (scheduled : Option TaskId) :
    (((∃ y x, .panic y x ∈ osiPriorityCheck k.toSched (some t)) ↔
          ∃ x ∈ r, (k.status x).isRunning ∧ k.priority x > k.priority t) ↔
        (k.NoneAbove r (k.priority t) → k.NoneAbove r (k.priority t % 2 ^ 8))) ∧
      (((∃ x, .priority x ∈ osiPriorityCheck k.toSched scheduled) ↔ ¬ k.InOrder r) ↔
        (k.InOrder r → ∀ x ∈ r, k.priority x ≤ 0xff)) ∧
      ∀ k', osTaskStart k t = .ok k' →
        (KeepsPlace k.toSched k'.toSched t ↔ k.priority t ≤ 0xff) := by
  have hn : r.length ≤ k.bound := Sched.length_le_bound hc.nodup hr
  refine ⟨?_, ?_, fun k' => osTaskStart_keepsPlace_iff⟩
  · have habove : (∃ x ∈ r, (k.status x).isRunning ∧ k.priority x > k.priority t) ↔
        ¬ k.NoneAbove r (k.priority t) := by
      simp [Sched.NoneAbove]
    -- the checker compares with a smaller number, so it misses nothing
    have hmono (h : k.NoneAbove r (k.priority t % 2 ^ 8)) : k.NoneAbove r (k.priority t) :=
      fun x hx hrun => (h x hx hrun).trans (Nat.mod_le _ _)
    rw [reports_panic_iff hc hn, habove, not_iff_not]
    exact ⟨fun h => h.2, fun h => ⟨hmono, h⟩⟩
  · rw [reports_priority_iff hc hn, not_iff_not]
    exact ⟨fun h ho => (h.2 ho).2, fun h => ⟨fun ho => ho.1, fun ho => ⟨ho, h ho⟩⟩⟩

set_option maxRecDepth 10000 in
theorem priority_check_byte : ∃ k : Kernel, k.status 1 = .active ∧ k.priority 1 = 16 ∧
    ((∃ y x, .panic y x ∈ osiPriorityCheck k.toSched (some 0)) ↔
      ∃ x ∈ [1, 0], (k.status x).isRunning ∧ k.priority x > k.priority 0) := by
  obtain ⟨k, -, ⟨hr, h1, h0⟩, ht, hst, hp, hp0⟩ := (Boot.simple [0, 16] (by simp)).exists_after
    (fun _ _ => True) (fun k => (k.runqueue = some 1 ∧ k.nrp 1 = some 0 ∧ k.nrp 0 = none) ∧
      k.tasks = [1, 0] ∧ k.status 1 = .active ∧ k.priority 1 = 16 ∧ k.priority 0 = 0)
    [.systick, .contextSwitch] (by decide)
  have hc : Chain k.nrp k.runqueue [1, 0] := ⟨hr, h1, h0⟩
  refine ⟨k, hst, hp, (priority_check_iff hc (by simp [ht]) 0 none).1.2 fun h => ?_⟩
  rw [hp0] at h ⊢
  exact h

set_option maxRecDepth 10000 in
/-- The run queue is in order and no task is above the running one, whose priority takes nine bits:
the check reports a panic and an error about this task. A task above it is below it after a
restart. -/
theorem priority_check_nine_bits : ∃ k k' : Kernel, machine.Reach (fun _ _ => True) k ∧
    Chain k.nrp k.runqueue [1, 0] ∧ k.priority 1 = 0x110 ∧ k.InOrder [1, 0] ∧
    k.NoneAbove [1, 0] (k.priority 1) ∧
    .panic 1 1 ∈ osiPriorityCheck k.toSched (some 1) ∧
    .priority 1 ∈ osiPriorityCheck k.toSched (some 1) ∧
    osTaskStart k 2 = .ok k' ∧ k.priority 1 < k.priority 2 ∧ k'.priority 2 < k'.priority 1 := by
  obtain ⟨k, hk, ⟨hr, h1, h0⟩, hp0, hp1, hp2, hpanic, hpri, hstart⟩ :=
    (Boot.simple [0, 0x110, 0x120] (by simp)).exists_after
      (fun _ _ => True) (fun k => (k.runqueue = some 1 ∧ k.nrp 1 = some 0 ∧ k.nrp 0 = none) ∧
        k.priority 0 = 0 ∧ k.priority 1 = 0x110 ∧ k.priority 2 = 0x120 ∧
        .panic 1 1 ∈ osiPriorityCheck k.toSched (some 1) ∧
        .priority 1 ∈ osiPriorityCheck k.toSched (some 1) ∧
        (osTaskStart k 2).toOption.any fun k' => k'.priority 2 < k'.priority 1)
      [.systick, .contextSwitch, .svc .abort, .contextSwitch] (by decide)
  obtain ⟨k', hk', hlt⟩ := exists_of_toOption_any hstart
  refine ⟨k, k', hk, ⟨hr, h1, h0⟩, hp1, ?_, ?_, hpanic, hpri, hk', by omega, hlt⟩
  · simp [Sched.InOrder, hp0]
  · simp [Sched.NoneAbove, hp0]

end Osh
