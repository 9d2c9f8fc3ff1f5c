import Osh.FixedRun
import Osh.WaitRuns

namespace Osh
open Lib

variable {k k' : Kernel} {r : TaskId} {q : QueueId} {message : Nat}

/-- The kernel in which PendSV is pended also if `p` holds. -/
def Kernel.pendIf (k : Kernel) (p : Prop) [Decidable p] : Kernel :=
  { k with pendSv := k.pendSv || decide p }

theorem Kernel.pendIf_pos {p : Prop} [Decidable p] (hp : p) :
    k.pendIf p = { k with pendSv := true } := by
  rw [Kernel.pendIf, decide_eq_true hp, Bool.or_true]

theorem Kernel.pendIf_neg {p : Prop} [Decidable p] (hp : ¬ p) : k.pendIf p = k := by
  rw [Kernel.pendIf, decide_eq_false hp, Bool.or_false]

section Agree
variable (hr : k.running = some r) (hb : k.nblocked r = none)
include hr hb

theorem osiQueueEnqueueIsr_send (hh : k.handsOff q) : osiQueueEnqueueIsr k q message =
    (osiQueueEnqueue k q message 0).map fun p => ({ p.1 with pendSv := true }, p.2) := by
  rw [osiQueueEnqueueIsr_eq, osiQueueEnqueue_eq hr, osAssert_true hb, ok_bind, if_pos hh,
    if_pos hh]
  cases queueSendBlocked k q message <;> rfl

theorem osiQueueEnqueueIsr_store (hh : ¬ k.handsOff q) :
    osiQueueEnqueueIsr k q message = osiQueueEnqueue k q message 0 := by
  rw [osiQueueEnqueueIsr_eq, osiQueueEnqueue_eq hr, osAssert_true hb, ok_bind, if_neg hh,
    if_neg hh, if_pos rfl]

end Agree

/-- An interrupt enqueues as the running task does without a timeout, and pends PendSV when it hands
the message off. -/
theorem osiQueueEnqueueIsr_agrees (hr : k.running = some r) (hb : k.nblocked r = none)
    (q : QueueId) (message : Nat) : osiQueueEnqueueIsr k q message =
      (osiQueueEnqueue k q message 0).map fun p => (p.1.pendIf (k.handsOff q), p.2) := by
  by_cases hh : k.handsOff q
  · rw [osiQueueEnqueueIsr_send hr hb hh]
    simp only [Kernel.pendIf_pos hh]
  · rw [osiQueueEnqueueIsr_store hr hb hh]
    simp only [Kernel.pendIf_neg hh, Prod.mk.eta]
    cases osiQueueEnqueue k q message 0 <;> rfl

set_option maxRecDepth 10000 in
theorem osiQueueEnqueueIsr_agrees_handsOff : ∃ k : Kernel, k.handsOff 0 ∧
    osiQueueEnqueueIsr k 0 7 =
      (osiQueueEnqueue k 0 7 0).map fun p => (p.1.pendIf (k.handsOff 0), p.2) := by
  obtain ⟨k, -, hh, hr, hb⟩ := (Boot.simple [0, 16, 17] (by simp)).exists_after (fun _ _ => True)
    (fun k => k.handsOff 0 ∧ k.running = some 1 ∧ k.nblocked 1 = none)
    [.schedule, .contextSwitch, .svc (.queueDequeue 0 uint32Max), .contextSwitch] (by decide)
  exact ⟨k, hh, osiQueueEnqueueIsr_agrees hr hb 0 7⟩

theorem nblocked_of_reach (h : machine.Reach (fun k a => a.RestartsFree k) k)
    (hr : k.next = some r) : k.nblocked r = none := by
  obtain ⟨L, hi⟩ := reach_blocked h fun _ _ h => h
  apply hi.lists.unlinked
  exact hi.notMem ((reach_flagged h).2 r hr)

/-- In every run that restarts no blocked task, the step of an interrupt that enqueues a message is
the one of the running task, but for PendSV and for the caller's frame. -/
theorem enqueueIsr_step_iff (h : machine.Reach (fun k a => a.RestartsFree k) k)
    (hr : k.running = some r) (hs : k.scheduled = none) :
    machine.step k (.enqueueIsr q message) k' ↔ ∃ k₁ status,
      osiQueueEnqueue k q message 0 = .ok (k₁, status) ∧ k' = k₁.pendIf (k.handsOff q) ∧
      machine.step k (.svc (.queueEnqueue q message 0))
        { k₁ with regs := Function.update k₁.regs r ⟨status.code, 0⟩ } := by
  have hb : k.nblocked r = none := nblocked_of_reach h ((next_of_none hs).trans hr)
  have hrun : (Act.enqueueIsr q message).run k =
      (osiQueueEnqueue k q message 0).map fun p => p.1.pendIf (k.handsOff q) := by
    simp only [Act.run]
    by_cases hh : k.handsOff q
    · rw [osiQueueEnqueueIsr_send hr hb hh]
      simp only [Kernel.pendIf_pos hh]
      cases osiQueueEnqueue k q message 0 <;> rfl
    · rw [osiQueueEnqueueIsr_store hr hb hh]
      simp only [Kernel.pendIf_neg hh]
      cases osiQueueEnqueue k q message 0 <;> rfl
  have hcall {k₁ : Kernel} {status : Status}
      (hk : osiQueueEnqueue k q message 0 = .ok (k₁, status)) :
      machine.step k (.svc (.queueEnqueue q message 0))
        { k₁ with regs := Function.update k₁.regs r ⟨status.code, 0⟩ } := by
    refine ⟨hs, ?_⟩
    simp only [Act.run, svcHandler, Svc.call, Kernel.self_eq_ok.2 hr, hk]
    rfl
  constructor
  · intro hstep
    have hk := hrun.symm.trans hstep.2
    cases hq : osiQueueEnqueue k q message 0 with
    | error e =>
      rw [hq] at hk
      cases hk
    | ok p =>
      rw [hq] at hk
      exact ⟨p.1, p.2, rfl, (Except.ok.inj hk).symm, hcall hq⟩
  · rintro ⟨k₁, status, hk, hk', -⟩
    refine ⟨trivial, ?_⟩
    rw [hrun, hk, hk']
    rfl

end Osh
