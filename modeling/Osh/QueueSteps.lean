import Osh.Lib.Window
import Osh.WaitHistory

namespace Osh
open Function (update)
open Lib

variable {k k' k₁ : Kernel} {t r x : TaskId} {q : QueueId} {a : Act} {L : Waitable → List TaskId}
  {message timeout i : Nat} {queue : Queue}

section Ring

/-- The messages in the ring, the next one to be taken first. -/
def Queue.contents (queue : Queue) : List Nat :=
  window queue.messages queue.size queue.last queue.number

/-- The ring of a queue that has room for a message. -/
structure Queue.Ring (queue : Queue) : Prop where
  size_pos : 0 < queue.size
  size_lt : queue.size < 2 ^ 16
  first_lt : queue.first < queue.size
  last_lt : queue.last < queue.size
  number_le : queue.number ≤ queue.size
  first_eq : queue.first = (queue.last + queue.number) % queue.size

namespace Queue.Ring
variable (h : queue.Ring)
include h

theorem next_eq (hi : i < queue.size) : queue.next i = (i + 1) % queue.size := by
  have hlt := h.size_lt
  have hi' : (i + 1) % 2 ^ 16 = i + 1 := Nat.mod_eq_of_lt (by omega)
  rw [Queue.next, hi']
  split_ifs with he
  · rw [he, Nat.mod_self]
  · exact (Nat.mod_eq_of_lt (by omega)).symm

theorem setStatus (status : QueueStatus) : Ring { queue with status := status } :=
  ⟨h.size_pos, h.size_lt, h.first_lt, h.last_lt, h.number_le, h.first_eq⟩

theorem store (hn : queue.number ≠ queue.size) : (queue.store message).Ring := by
  have hle := h.number_le
  have hlt := h.size_lt
  have hn' : (queue.number + 1) % 2 ^ 16 = queue.number + 1 := Nat.mod_eq_of_lt (by omega)
  have hfirst : (queue.store message).first = (queue.first + 1) % queue.size :=
    h.next_eq h.first_lt
  constructor
  · exact h.size_pos
  · exact hlt
  · rw [hfirst]
    exact Nat.mod_lt _ h.size_pos
  · exact h.last_lt
  · change (queue.number + 1) % 2 ^ 16 ≤ queue.size
    omega
  · change _ = (queue.last + (queue.number + 1) % 2 ^ 16) % queue.size
    rw [hfirst, hn', h.first_eq, Nat.mod_add_mod, Nat.add_assoc]

theorem store_contents (hn : queue.number ≠ queue.size) :
    (queue.store message).contents = queue.contents ++ [message] := by
  have hle := h.number_le
  have hlt := h.size_lt
  have hn' : (queue.number + 1) % 2 ^ 16 = queue.number + 1 := Nat.mod_eq_of_lt (by omega)
  have hpush := window_push (f := queue.messages) (a := message) (s := queue.last)
    (Nat.lt_of_le_of_ne hle hn)
  rw [← h.first_eq] at hpush
  change window _ _ _ ((queue.number + 1) % 2 ^ 16) = _
  rw [hn']
  exact hpush

theorem take (hn : 0 < queue.number) : queue.take.Ring := by
  have hle := h.number_le
  have hlast : queue.take.last = (queue.last + 1) % queue.size := h.next_eq h.last_lt
  constructor
  · exact h.size_pos
  · exact h.size_lt
  · exact h.first_lt
  · rw [hlast]
    exact Nat.mod_lt _ h.size_pos
  · change queue.number - 1 ≤ queue.size
    omega
  · change queue.first = (queue.take.last + (queue.number - 1)) % queue.size
    have hnum : queue.last + 1 + (queue.number - 1) = queue.last + queue.number := by omega
    rw [hlast, h.first_eq, Nat.mod_add_mod, hnum]

theorem take_contents (hn : 0 < queue.number) :
    queue.contents = queue.messages queue.last :: queue.take.contents := by
  have hlast : queue.take.last = (queue.last + 1) % queue.size := h.next_eq h.last_lt
  obtain ⟨n, hn⟩ := Nat.exists_eq_succ_of_ne_zero (Nat.ne_of_gt hn)
  have hnum : queue.take.number = n := by
    change queue.number - 1 = n
    omega
  rw [Queue.contents, hn, window_cons, Nat.mod_eq_of_lt h.last_lt, Queue.contents, hlast, hnum]
  rfl

end Queue.Ring

end Ring

/-- The action passes `message` to an enqueue of `q`, as a task or as an interrupt handler. -/
inductive Act.Enqueues (q : QueueId) (message : Nat) : Act → Prop
  | task {timeout : Nat} : Act.Enqueues q message (.svc (.queueEnqueue q message timeout))
  | isr : Act.Enqueues q message (.enqueueIsr q message)

/-- The status that an action reports to the task or to the handler that called for it. -/
def Act.report (k k' : Kernel) : Act → Option Nat
  | .svc _ => k.running.map fun r => (k'.regs r).r0
  | .enqueueIsr q message => (osiQueueEnqueueIsr k q message).toOption.map fun p => p.2.code
  | _ => none

/-- Of the frames and unions, a step writes those of the caller and of the tasks in `ts`, apart
from the union of the task that it schedules. -/
def Act.Answers (k k' : Kernel) (a : Act) (ts : List TaskId) : Prop :=
  ∀ x, ¬ (a.isCall ∧ k.running = some x) → x ∉ ts →
    k'.regs x = k.regs x ∧ (k'.scheduled ≠ some x → k'.c x = k.c x)

def Act.Returns (k k' : Kernel) (a : Act) : Prop :=
  a.isCall → ∀ r, k.running = some r → k'.flags r = 0

inductive QueueStep (k : Kernel) (q : QueueId) (k' : Kernel) : Act → Prop
  | other {a : Act} (ha : a.target ≠ some (.queue q)) (hq : k'.queue q = k.queue q) :
    QueueStep k q k' a
  | sends {a : Act} {message : Nat} {t : TaskId} (ha : a.Enqueues q message) (hh : k.handsOff q)
    (hb : k.blocked (.queue q) = some t) (hne : ¬ (a.isCall ∧ k.running = some t))
    (hq : k'.queue q = k.queue q) (hs : a.report k k' = some Status.success.code)
    (ht : k'.regs t = ⟨Status.success.code, message⟩) (hb' : ¬ k'.OnList (.queue q) t)
    (hx : a.Answers k k' [t]) (hz : a.Returns k k') : QueueStep k q k' a
  | stores {a : Act} {message : Nat} (ha : a.Enqueues q message) (hh : ¬ k.handsOff q)
    (hn : (k.queue q).number ≠ (k.queue q).size)
    (hq : k'.queue q = { k.queue q with status := .fine }.store message)
    (hs : a.report k k' = some Status.success.code) (hk : k'.toSched = k.toSched)
    (hl : SameWaits k.toObjects k'.toObjects) (hx : a.Answers k k' []) (hz : a.Returns k k') :
    QueueStep k q k' a
  | fails {a : Act} (ha : a.target = some (.queue q))
    (hn : ∀ message, a.Enqueues q message → (k.queue q).number = (k.queue q).size)
    (hq : k'.queue q = k.queue q)
    (hs : a.report k k' = some Status.errorMem.code) (hx : a.Answers k k' [])
    (hz : a.Returns k k') : QueueStep k q k' a
  | blocksSend {r : TaskId} {message timeout : Nat} (hr : k.running = some r)
    (hh : ¬ k.handsOff q) (hn : (k.queue q).number = (k.queue q).size)
    (hq : k'.queue q = { k.queue q with status := .blockedSend }) (hc : k'.c r = message)
    (hs : (k'.regs r).r0 = Status.errorTo.code)
    (hx : (Act.svc (.queueEnqueue q message timeout)).Answers k k' []) :
    QueueStep k q k' (.svc (.queueEnqueue q message timeout))
  | takes {r : TaskId} {timeout : Nat} (hr : k.running = some r) (hn : 0 < (k.queue q).number)
    (hb : k.blocked (.queue q) = none ∨ (k.queue q).status ≠ .blockedSend)
    (hq : k'.queue q = (k.queue q).take)
    (hs : k'.regs r = ⟨Status.success.code, (k.queue q).messages (k.queue q).last⟩)
    (hx : (Act.svc (.queueDequeue q timeout)).Answers k k' [])
    (hz : (Act.svc (.queueDequeue q timeout)).Returns k k') :
    QueueStep k q k' (.svc (.queueDequeue q timeout))
  | refills {r t : TaskId} {timeout : Nat} (hr : k.running = some r)
    (hn : 0 < (k.queue q).number) (hst : (k.queue q).status = .blockedSend)
    (hb : k.blocked (.queue q) = some t) (hne : r ≠ t)
    (hq : k'.queue q = (k.queue q).take.store (k.c t))
    (hs : k'.regs r = ⟨Status.success.code, (k.queue q).messages (k.queue q).last⟩)
    (ht : k'.regs t = ⟨Status.success.code, 0⟩) (hb' : ¬ k'.OnList (.queue q) t)
    (hx : (Act.svc (.queueDequeue q timeout)).Answers k k' [t])
    (hz : (Act.svc (.queueDequeue q timeout)).Returns k k') :
    QueueStep k q k' (.svc (.queueDequeue q timeout))
  | blocksReceive {r : TaskId} {timeout : Nat} (hr : k.running = some r)
    (hn : (k.queue q).number = 0)
    (hq : k'.queue q = { k.queue q with status := .blockedReceive })
    (hs : (k'.regs r).r0 = Status.errorTo.code)
    (hx : (Act.svc (.queueDequeue q timeout)).Answers k k' []) :
    QueueStep k q k' (.svc (.queueDequeue q timeout))

section Steps
variable {status : Status} {value : Option Nat} {v : StackedRegs}

theorem Act.Answers.call {call : Svc} {ts : List TaskId} (hr : k.running = some r)
    (h : ∀ x, x ≠ r → x ∉ ts →
      k₁.regs x = k.regs x ∧ (k₁.scheduled ≠ some x → k₁.c x = k.c x)) :
    (Act.svc call).Answers k { k₁ with regs := update k₁.regs r v } ts := by
  intro x hx hts
  have hxr : x ≠ r := by
    rintro rfl
    exact hx ⟨rfl, hr⟩
  obtain ⟨hregs, hc⟩ := h x hxr hts
  exact ⟨(Function.update_of_ne hxr _ _).trans hregs, hc⟩

theorem Act.Answers.only {call : Svc} (hr : k.running = some r) (h : k₁.regs = k.regs)
    (hc : k₁.c = k.c) : (Act.svc call).Answers k { k₁ with regs := update k₁.regs r v } [] :=
  .call hr fun x _ _ => ⟨congrFun h x, fun _ => congrFun hc x⟩

theorem Act.Returns.call {call : Svc} (hr : k.running = some r) (h : k₁.flags r = 0) :
    (Act.svc call).Returns k { k₁ with regs := update k₁.regs r v } := by
  intro _ r' hr'
  cases hr.symm.trans hr'
  exact h

theorem Act.report_call {call : Svc} (hr : k.running = some r) :
    (Act.svc call).report k { k₁ with regs := update k₁.regs r v } = some v.r0 := by
  simp [Act.report, hr]

theorem QueueSends.handed (h : QueueSends k q message k₁) (hf : Flagged k.toObjects)
    (hn : NextFree k) (hi : BlockedInv k.toObjects L) :
    ∃ t, k.blocked (.queue q) = some t ∧ k.next ≠ some t ∧ k₁.queue q = k.queue q ∧
      k₁.regs t = ⟨Status.success.code, message⟩ ∧ ¬ k₁.OnList (.queue q) t ∧
      (∀ x ∉ [t], k₁.regs x = k.regs x ∧ (k₁.scheduled ≠ some x → k₁.c x = k.c x)) ∧
      ∀ x, k.flags x = 0 → k₁.flags x = 0 := by
  obtain ⟨t, hb, -, hd⟩ := h
  have hq : Quiet (some (.queue q)) (fun x => x = t) (k.unlink (.queue q) none t)
    (k.sendQueue q t message) := by
    apply Quiet.sendQueue
    rfl
  obtain ⟨hnext, hb', hregs, hflags, hfr⟩ :=
    (osiDispatchOrQueue_switched hd).handed_head hb hq hf hn hi
  refine ⟨t, hb, hnext, hfr.queue q (by simp), ?_, hb', fun x hx => ?_, hflags⟩
  · rw [hregs]
    simp [Objects.sendQueue, Objects.setStackedTuple]
  · have hxt : x ≠ t := by simpa using hx
    rw [hregs]
    exact ⟨hq.regs x hxt, fun hs => (hfr.c x hs).trans (hq.c x hxt)⟩

theorem QueueReceives.handed (h : QueueReceives k q k₁) (hf : Flagged k.toObjects)
    (hn : NextFree k) (hi : BlockedInv k.toObjects L) :
    ∃ t, k.blocked (.queue q) = some t ∧ k.next ≠ some t ∧
      k₁.queue q = (k.queue q).store (k.c t) ∧
      k₁.regs t = ⟨Status.success.code, 0⟩ ∧ ¬ k₁.OnList (.queue q) t ∧
      (∀ x ∉ [t], k₁.regs x = k.regs x ∧ (k₁.scheduled ≠ some x → k₁.c x = k.c x)) ∧
      ∀ x, k.flags x = 0 → k₁.flags x = 0 := by
  obtain ⟨t, hb, -, hd⟩ := h
  have hq : Quiet (some (.queue q)) (fun x => x = t) (k.unlink (.queue q) none t)
    (k.receiveQueue q t) := by
    apply Quiet.receiveQueue
    rfl
  obtain ⟨hnext, hb', hregs, hflags, hfr⟩ :=
    (osiDispatchOrQueue_switched hd).handed_head hb hq hf hn hi
  refine ⟨t, hb, hnext, ?_, ?_, hb', fun x hx => ?_, hflags⟩
  · apply (hfr.queue q (by simp)).trans
    simp [Objects.receiveQueue, Objects.setQueue, Objects.unlink, Objects.setStackedTuple]
  · rw [hregs]
    simp [Objects.receiveQueue, Objects.setStackedTuple]
  · have hxt : x ≠ t := by simpa using hx
    rw [hregs]
    exact ⟨hq.regs x hxt, fun hs => (hfr.c x hs).trans (hq.c x hxt)⟩

theorem queueEnqueue_step (hs : machine.step k (.svc (.queueEnqueue q message timeout)) k')
    (hf : Flagged k.toObjects) (hn : NextFree k) (hi : BlockedInv k.toObjects L) :
    QueueStep k q k' (.svc (.queueEnqueue q message timeout)) := by
  obtain ⟨he, h⟩ := hs
  simp only [Act.run, svcHandler, Svc.call, bind_eq_ok, pure_eq_ok, Prod.exists,
    Prod.mk.injEq] at h
  obtain ⟨r, hr, k₁, _, _, ⟨_, status, h, rfl, rfl, rfl⟩, rfl⟩ := h
  replace hr := Kernel.self_eq_ok.1 hr
  obtain ⟨task, hrun, -, hc⟩ := osiQueueEnqueue_cases h
  obtain rfl : task = r := Option.some.inj (hrun.symm.trans hr)
  have hnext : k.next = some task := (next_of_none he).trans hr
  have hz : k.flags task = 0 := hn _ hnext
  cases hc with
  | send hh hsend =>
    obtain ⟨t, hb, hne, hq, ht, hb', hx, hflags⟩ := hsend.handed hf hn hi
    have htr : t ≠ task := fun he' => hne (he' ▸ hnext)
    exact .sends .task hh hb (fun he' => htr (Option.some.inj (he'.2.symm.trans hr))) hq
      (Act.report_call hr) ((Function.update_of_ne htr _ _).trans ht) hb' (.call hr fun x _ => hx x)
      (.call hr (hflags _ hz))
  | full hh hn' ht =>
    exact .fails rfl (fun _ _ => hn') rfl (Act.report_call hr) (.only hr rfl rfl) (.call hr hz)
  | blocks hh hn' hb =>
    have hf' : Flagged (k.awaitSend q task message) :=
      hf.of_same ⟨rfl, rfl, rfl, rfl, rfl, rfl, rfl⟩
    obtain ⟨hfr, hregs, hsched⟩ :=
      block_framed (k := { k with toObjects := k.awaitSend q task message }) hr he hb hf' hz
    refine .blocksSend hr hh hn' ?_ ?_ (by simp)
      (.call hr fun x hx _ => ⟨congrFun hregs x, fun hs => ?_⟩)
    · apply (hfr.queue q (by simp)).trans
      simp [Objects.awaitSend, Objects.setQueue]
    · apply (hfr.c task hsched).trans
      simp [Objects.awaitSend]
    · exact (hfr.c x hs).trans (Function.update_of_ne hx _ _)
  | store hh hn' =>
    refine .stores .task hh hn' (by simp [Objects.storeQueue, Objects.setQueue])
      (Act.report_call hr) rfl ⟨rfl, rfl, rfl, rfl, rfl, rfl, rfl⟩ (.only hr rfl rfl) (.call hr hz)

theorem queueDequeue_step (hs : machine.step k (.svc (.queueDequeue q timeout)) k')
    (hf : Flagged k.toObjects) (hn : NextFree k) (hi : BlockedInv k.toObjects L) :
    QueueStep k q k' (.svc (.queueDequeue q timeout)) := by
  obtain ⟨he, h⟩ := hs
  simp only [Act.run, svcHandler, Svc.call, bind_eq_ok, pure_eq_ok, Prod.exists,
    Prod.mk.injEq] at h
  obtain ⟨r, hr, k₁, _, _, ⟨_, status, message, h, rfl, rfl, rfl⟩, rfl⟩ := h
  replace hr := Kernel.self_eq_ok.1 hr
  obtain ⟨task, hrun, -, hc⟩ := osiQueueDequeue_cases h
  obtain rfl : task = r := Option.some.inj (hrun.symm.trans hr)
  have hnext : k.next = some task := (next_of_none he).trans hr
  have hz : k.flags task = 0 := hn _ hnext
  cases hc with
  | take hn' hb =>
    refine .takes hr hn' ?_ (by simp [Objects.setQueue]) (by simp) (.only hr rfl rfl)
      (.call hr hz)
    rw [not_and_or, not_not] at hb
    exact hb
  | refill hn' hst hrec =>
    have hsame : SameWaits k.toObjects (k.setQueue q (k.queue q).take) :=
      ⟨rfl, rfl, rfl, rfl, rfl, rfl, rfl⟩
    obtain ⟨t, hb, hne, hq, ht, hb', hx, hflags⟩ :=
      QueueReceives.handed (k := { k with toObjects := k.setQueue q (k.queue q).take }) hrec
        (hf.of_same hsame) hn (hi.of_same hsame)
    have htr : t ≠ task := fun he' => hne (he' ▸ hnext)
    refine .refills hr hn' hst hb htr.symm (hq.trans ?_) (by simp)
      ((Function.update_of_ne htr _ _).trans ht) hb' (.call hr fun x _ => hx x)
      (.call hr (hflags _ hz))
    simp [Objects.setQueue]
  | empty hn' ht =>
    refine .fails rfl (fun _ ha => ?_) rfl (Act.report_call hr) (.only hr rfl rfl) (.call hr hz)
    cases ha
  | blocks hn' hb =>
    have hf' : Flagged (k.setQueue q { k.queue q with status := .blockedReceive }) :=
      hf.of_same ⟨rfl, rfl, rfl, rfl, rfl, rfl, rfl⟩
    obtain ⟨hfr, hregs, -⟩ := block_framed
      (k := { k with toObjects := k.setQueue q { k.queue q with status := .blockedReceive } })
      hr he hb hf' hz
    refine .blocksReceive hr hn' ?_ (by simp)
      (.call hr fun x _ _ => ⟨congrFun hregs x, hfr.c x⟩)
    apply (hfr.queue q (by simp)).trans
    simp [Objects.setQueue]

theorem enqueueIsr_step (hs : machine.step k (.enqueueIsr q message) k')
    (hf : Flagged k.toObjects) (hn : NextFree k) (hi : BlockedInv k.toObjects L) :
    QueueStep k q k' (.enqueueIsr q message) := by
  obtain ⟨-, h⟩ := hs
  simp only [Act.run, bind_eq_ok, pure_eq_ok, Prod.exists] at h
  obtain ⟨k₁, status, h, rfl⟩ := h
  have hrep : (Act.enqueueIsr q message).report k k₁ = some status.code := by
    simp [Act.report, h, Except.toOption]
  have hret : (Act.enqueueIsr q message).Returns k k₁ := fun hc => by cases hc
  cases osiQueueEnqueueIsr_cases h with
  | send hh hsend =>
    obtain ⟨t, hb, hne, hq, ht, hb', hx, -⟩ := hsend.handed hf hn hi
    exact .sends .isr hh hb (fun hc => by cases hc.1) hq hrep ht hb' (fun x _ hts => hx x hts) hret
  | full hh hn' =>
    exact .fails rfl (fun _ _ => hn') rfl hrep (fun _ _ _ => ⟨rfl, fun _ => rfl⟩) hret
  | store hh hn' =>
    exact .stores .isr hh hn' (by simp [Objects.storeQueue, Objects.setQueue]) hrep rfl
      ⟨rfl, rfl, rfl, rfl, rfl, rfl, rfl⟩ (fun _ _ _ => ⟨rfl, fun _ => rfl⟩) hret

/-- Every step does one of these things to the queue. -/
theorem Act.queueStep (hs : machine.step k a k') (hf : Flagged k.toObjects) (hn : NextFree k)
    (hi : BlockedInv k.toObjects L) (q : QueueId) : QueueStep k q k' a := by
  by_cases ha : a.target = some (.queue q)
  · cases a <;> simp only [Act.target, reduceCtorEq, Option.some.injEq, Waitable.queue.injEq] at ha
    case svc call =>
      cases call <;> simp only [Svc.target, reduceCtorEq, Option.some.injEq,
        Waitable.queue.injEq] at ha
      case queueEnqueue q' message timeout =>
        subst ha
        exact queueEnqueue_step hs hf hn hi
      case queueDequeue q' timeout =>
        subst ha
        exact queueDequeue_step hs hf hn hi
    case enqueueIsr q' message =>
      subst ha
      exact enqueueIsr_step hs hf hn hi
  · exact .other ha (((Act.run_waits hs.1 hs.2).framed hf hn).1.queue q ha)

end Steps

end Osh
