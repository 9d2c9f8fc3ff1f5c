import Osh.FifoRuns

namespace Osh
open Function (update)
open Lib

variable {k k' : Kernel} {t r x : TaskId} {q : QueueId} {a : Act} {L : Waitable → List TaskId}
  {message : Nat} {call : Option Svc}

section Mixing

/-- An enqueue serves a call that asked for a message, and a dequeue one that offered a message. -/
def Act.Matches (q : QueueId) (call : Option Svc) (a : Act) : Prop :=
  (∀ message, a.offers q = some message → call.any (Svc.asks q)) ∧
    (a.asks q → (call.bind (Svc.offers q)).isSome)

/-- The queue takes no receiver for a sender and no sender for a receiver, and delivers what was
accepted. -/
structure Unmixed (k : Kernel) (h : QueueHistory) (q : QueueId) : Prop extends Exchange k h q where
  served : ∀ a call, (a, call) ∈ h.served q → a.Matches q call

theorem Act.mem_serves {h : WaitHistory} {a₁ : Act} (hm : (a₁, call) ∈ a.serves k h q) :
    a₁ = a ∧ a.target = some (.queue q) ∧ ∃ t, a.grantee k.toObjects = some t ∧
      call = h.asleep t := by
  rw [Act.serves] at hm
  split_ifs at hm with ha
  · obtain ⟨t, ht, he⟩ := List.mem_map.1 hm
    cases he
    exact ⟨rfl, ha, t, Option.mem_toList.1 ht, rfl⟩
  · cases hm

variable {h : WaitHistory}

theorem Roles.serves_offers (hi : Roles k h q) (hw : Waits k h L) (ha : a.target = some (.queue q))
    (ho : a.offers q = some message) (ht : a.grantee k.toObjects = some t) : h.Receives q t := by
  cases a <;> try cases ho
  case svc c =>
    cases c <;> simp only [Act.offers, Svc.offers, reduceCtorEq] at ho
    case queueEnqueue q' m timeout =>
      cases ha
      simp only [Act.grantee, Svc.grantee] at ht
      split_ifs at ht with hh
      exact hi.head_receives hw hh ht
  case enqueueIsr q' m =>
    cases ha
    simp only [Act.grantee] at ht
    split_ifs at ht with hh
    exact hi.head_receives hw hh ht

/-- A refill takes its message from the first task on the list, whatever that waits for. -/
theorem Act.grantee_asks (ha : a.asks q) : a.grantee k.toObjects = some t ↔
    0 < (k.queue q).number ∧ (k.queue q).status = .blockedSend ∧
      k.blocked (.queue q) = some t := by
  cases a <;> try cases ha
  case svc c =>
    cases c <;> simp only [Act.asks, Svc.asks, Bool.false_eq_true, decide_eq_true_eq] at ha
    subst ha
    simp only [Act.grantee, Svc.grantee]
    split_ifs with hc
    · simp [hc]
    · simp only [false_iff]
      exact fun hb => hc ⟨hb.1, hb.2.1⟩

theorem Roles.serves_iff (hi : Roles k h q) (hw : Waits k h L) :
    (∀ a₁ call, (a₁, call) ∈ a.serves k h q → a₁.Matches q call) ↔ a.RefillsSender k h q := by
  constructor
  · intro hm hasks hn hst t hb hr
    have ht := (Act.grantee_asks hasks).2 ⟨hn, hst, hb⟩
    have ha : a.target = some (.queue q) := by
      by_contra ha
      rw [Act.not_asks ha] at hasks
      cases hasks
    have hserve : (a, h.asleep t) ∈ a.serves k h q := by
      rw [Act.serves, if_pos ha, ht]
      exact List.mem_singleton_self _
    have hsend : (h.sends q t).isSome := (hm a _ hserve).2 hasks
    rw [WaitHistory.not_sends hr] at hsend
    cases hsend
  · intro hok a₁ call hm
    obtain ⟨rfl, ha, t, ht, rfl⟩ := Act.mem_serves hm
    constructor
    · exact fun message ho => hi.serves_offers hw ha ho ht
    · intro hasks
      obtain ⟨hn, hst, hb⟩ := (Act.grantee_asks hasks).1 ht
      have hp := hw.pending_of_onList (Objects.onList_of_blocked hb)
      obtain ⟨message, hs⟩ :=
        (WaitHistory.sends_or_receives hp).resolve_right (hok hasks hn hst t hb)
      change (h.sends q t).isSome
      rw [hs]
      rfl

theorem reach_served {h : QueueHistory} (hreach : queueMachine.Reach (RefillsInOrder q) (k, h))
    (hsize : 0 < (k.queue q).size) : ∀ a call, (a, call) ∈ h.served q → a.Matches q call := by
  have hinv : 0 < (k.queue q).size → ∀ a call, (a, call) ∈ h.served q → a.Matches q call := by
    apply System.Reach.history_invariant (J := fun k h =>
      0 < (k.queue q).size → ∀ a call, (a, call) ∈ h.served q → a.Matches q call) hreach
    · intro k hk _ a call hm
      cases hm
    · intro k h a k' hreach hi ha hs hsize a₁ call hm
      have hqueue := reach_queueing (q := q) hreach fun _ _ h => h.1
      rw [(hqueue.size hs).2] at hsize
      obtain ⟨-, -, L, hw⟩ := hqueue.waiting
      rcases List.mem_append.1 hm with hm | hm
      · exact hi hsize a₁ call hm
      · exact ((hqueue.roles hsize).serves_iff hw).2 ha.2 a₁ call hm
  exact hinv hsize

/-- Whatever its flags, a queue whose refills are from senders does not mix up the tasks on its
list, and the first refill from a receiver does. -/
theorem reach_unmixed {h : QueueHistory} (hreach : queueMachine.Reach (RefillsInOrder q) (k, h))
    (hsize : 0 < (k.queue q).size) : Unmixed k h q ∧
      ∀ a k', machine.step k a k' → a.RestartsFree k →
        (Unmixed k' (h.record k a k') q ↔ a.RefillsSender k h.toWaitHistory q) := by
  have hqueue := reach_queueing (q := q) hreach fun _ _ h => h.1
  obtain ⟨-, -, L, hw⟩ := hqueue.waiting
  constructor
  · exact ⟨reach_exchange hreach hsize, reach_served hreach hsize⟩
  · intro a k' hs hok
    constructor
    · intro hu
      apply ((hqueue.roles hsize).serves_iff hw).1
      intro a₁ call hm
      exact hu.served a₁ call (List.mem_append_right _ hm)
    · intro hr
      have hreach' : queueMachine.Reach (RefillsInOrder q) (k', h.record k a k') :=
        .step hreach ⟨hok, hr⟩ ⟨hs, rfl⟩
      rw [← (hqueue.size hs).2] at hsize
      exact ⟨reach_exchange hreach' hsize, reach_served hreach' hsize⟩

set_option maxRecDepth 10000 in
theorem unmixed_after_refill : ∃ (k : Kernel) (h : QueueHistory), (k.queue 0).flags = queueOnly ∧
    h.served 0 = [(.svc (.queueDequeue 0 0), some (.queueEnqueue 0 7 uint32Max))] ∧
      Unmixed k h 0 := by
  obtain ⟨k, h, hreach, hflags, hserved, hsize⟩ :=
    ((Boot.simple [0, 16, 16] (by simp)).withQueues ⟨1, queueOnly⟩).exists_recorded
      QueueHistory.start QueueHistory.record
      (fun p a => ¬ a.restarts ∧ (a.asks 0 → (p.1.blocked (.queue 0)).all
        fun t => ¬ p.2.Receives 0 t))
      (fun k h => (k.queue 0).flags = queueOnly ∧ h.served 0 =
        [(.svc (.queueDequeue 0 0), some (.queueEnqueue 0 7 uint32Max))] ∧ 0 < (k.queue 0).size)
      [.schedule, .contextSwitch, .svc (.queueEnqueue 0 5 0), .svc (.queueEnqueue 0 7 uint32Max),
        .contextSwitch, .svc (.queueDequeue 0 0)] (by decide)
  have hreach' : queueMachine.Reach (RefillsInOrder 0) (k, h) := by
    apply hreach.mono
    intro p a ha
    constructor
    · exact .of_not_restarts ha.1
    · intro hasks _ _ t hb
      have hall := ha.2 hasks
      rw [hb, Option.all_some] at hall
      exact of_decide_eq_true hall
  exact ⟨k, h, hflags, hserved, (reach_unmixed hreach' hsize).1⟩

set_option maxRecDepth 10000 in
/-- A receiver blocks, the ring is filled, and a sender blocks behind it: the next dequeue puts the
message that the receiver does not have into the ring and tells it that it received one. -/
theorem not_unmixed_after_refill : ∃ (k : Kernel) (h : QueueHistory),
    queueMachine.Reach (fun _ a => ¬ a.restarts) (k, h) ∧ (k.queue 0).flags = queueOnly ∧
      (k.queue 0).size = 1 ∧ h.accepted 0 = [⟨4, 5⟩] ∧ h.delivered 0 = [5, 0] ∧
        ¬ Unmixed k h 0 := by
  obtain ⟨k, h, hreach, hflags, hsize, hacc, hdel, hserved⟩ :=
    ((Boot.simple [0, 16, 16, 16] (by simp)).withQueues ⟨1, queueOnly⟩).exists_recorded
      QueueHistory.start QueueHistory.record (fun _ a => ¬ a.restarts)
      (fun k h => (k.queue 0).flags = queueOnly ∧ (k.queue 0).size = 1 ∧
        h.accepted 0 = [⟨4, 5⟩] ∧ h.delivered 0 = [5, 0] ∧
          h.served 0 = [(.svc (.queueDequeue 0 0), some (.queueDequeue 0 uint32Max))])
      [.schedule, .contextSwitch, .svc (.queueDequeue 0 uint32Max), .contextSwitch,
        .svc (.queueEnqueue 0 5 0), .svc (.queueEnqueue 0 7 uint32Max), .contextSwitch,
        .svc (.queueDequeue 0 0)] (by decide)
  refine ⟨k, h, hreach, hflags, hsize, hacc, hdel, fun hu => ?_⟩
  have hmem : (Act.svc (.queueDequeue 0 0), some (Svc.queueDequeue 0 uint32Max)) ∈ h.served 0 := by
    rw [hserved]
    exact List.mem_singleton_self _
  have hsend := (hu.served _ _ hmem).2 rfl
  cases hsend

end Mixing

section LostWakeup
variable {h : WaitHistory}

/-- No task waits on the list of the queue for what the queue has. -/
structure NoLostWakeup (k : Kernel) (h : WaitHistory) (q : QueueId) : Prop where
  receivers : ∀ t, k.OnList (.queue q) t → h.Receives q t → k.status t = .wait →
    ¬ (k.queue q).number > 0
  senders : ∀ t, k.OnList (.queue q) t → (h.sends q t).isSome → k.status t = .wait →
    ¬ (k.queue q).number < (k.queue q).size

/-- No message is stored in the ring while a task that blocked in a dequeue waits on the list. -/
def Act.StoresUnawaited (k : Kernel) (h : WaitHistory) (q : QueueId) (a : Act) : Prop :=
  (a.offers q).isSome → ¬ k.handsOff q → (k.queue q).number ≠ (k.queue q).size →
    ∀ t, k.OnList (.queue q) t → h.Receives q t → k.status t ≠ .wait

theorem Roles.senders_wait (hi : Roles k h q) (hl : k.OnList (.queue q) t)
    (hs : (h.sends q t).isSome) : ¬ (k.queue q).number < (k.queue q).size := by
  obtain ⟨message, hs⟩ := Option.isSome_iff_exists.1 hs
  rw [(hi.senders t message hl hs).2.1]
  exact Nat.lt_irrefl _

theorem QueueStep.number_eq_zero (hq : QueueStep k q k' a) (hi : Roles k h q)
    (hz : (k.queue q).number = 0) (hl : k.OnList (.queue q) t) (hr : h.Receives q t)
    (hwait : k.status t = .wait) (hok : a.StoresUnawaited k h q) : (k'.queue q).number = 0 := by
  have hpos := hi.ring.size_pos
  cases hq with
  | other _ hq | fails _ _ hq | sends _ _ _ _ hq | blocksReceive _ _ hq =>
    rw [hq]
    exact hz
  | stores ha hh hn =>
    have ho : (a.offers q).isSome := by
      rw [ha.offers.1]
      rfl
    exact absurd hwait (hok ho hh hn t hl hr)
  | blocksSend _ _ hn => omega
  | takes _ hn | refills _ hn => omega

theorem NoLostWakeup.step (hno : NoLostWakeup k h q) (hs : machine.step k a k')
    (hi : Roles k h q) (hi' : Roles k' (h.record k a k') q) (hw : Waiting k h)
    (hqs : Queued False k.toSched) (hns : NextInv (· ≠ .wait) k.toSched) (hok : a.RestartsFree k)
    (hst : a.StoresUnawaited k h q) : NoLostWakeup k' (h.record k a k') q := by
  obtain ⟨hf, hn, L, hw⟩ := hw
  have hq := Act.queueStep hs hf hn hw.blocked q
  refine ⟨fun t hl hr hwait => ?_, fun t hl hsend _ => hi'.senders_wait hl hsend⟩
  apply Nat.not_lt.2
  apply Nat.le_of_eq
  rcases hq.listed hw hs hf hn hok hl with ⟨hl₀, hkept⟩ | ⟨hsl, ha⟩
  · rw [WaitHistory.receives_of_asleep hkept.asleep] at hr
    have hp : h.pending t ≠ none := by
      rw [hw.pending_of_onList hl₀]
      exact Option.some_ne_none _
    rcases ((Act.run_effect hs.2).task hqs hns hs.1 t).of_wait hwait with ⟨hwait₀, -⟩ | ⟨hc, hcall⟩
    · have hz : (k.queue q).number = 0 := Nat.eq_zero_of_not_pos (hno.receivers t hl₀ hr hwait₀)
      exact hq.number_eq_zero hi hz hl₀ hr hwait₀ hst
    · exact absurd hcall (hw.not_calls hs.1 hc hp)
  · obtain ⟨call, hcall, ⟨message, hb⟩ | hb⟩ := hq.blocks (h := h) hsl ha
    · rw [WaitHistory.Receives, hcall, Option.any_some, Svc.not_asks hb.offers] at hr
      cases hr
    · rw [hb.queue]
      exact hb.empty

theorem Act.StoresUnawaited.of_noLostWakeup (hno : NoLostWakeup k' (h.record k a k') q)
    (hs : machine.step k a k') (hi : Roles k h q) (hw : Waiting k h) : a.StoresUnawaited k h q := by
  obtain ⟨hf, hn, L, hw⟩ := hw
  intro ho hh hnum t hl hr hwait
  obtain ⟨message, ho⟩ := Option.isSome_iff_exists.1 ho
  cases Act.queueStep hs hf hn hw.blocked q with
  | other ha => cases (Act.not_offers ha).symm.trans ho
  | sends _ hh' => exact hh hh'
  | fails _ hfull => exact hnum (hfull message (.of_offers ho))
  | blocksSend _ _ hfull => exact hnum hfull
  | takes | refills | blocksReceive => cases ho
  | @stores _ message ha _ _ hq _ hk hsame =>
    have hp : h.pending t ≠ none := by
      rw [hw.pending_of_onList hl]
      exact Option.some_ne_none _
    have hl' : k'.OnList (.queue q) t := by
      rw [Objects.OnList, hsame.nblocked, hsame.blocked]
      exact hl
    have hr' : (h.record k a k').Receives q t :=
      (WaitHistory.receives_of_asleep
        (WaitHistory.asleep_record (hw.not_sleeps hs.1 hp) ha.not_wakes)).2 hr
    have hwait' : k'.status t = .wait := by
      rw [hk]
      exact hwait
    apply hno.receivers t hl' hr' hwait'
    have hle := hi.ring.number_le
    have hlt := hi.ring.size_lt
    rw [hq]
    change 0 < ((k.queue q).number + 1) % 2 ^ 16
    omega

def StoresInOrder (q : QueueId) (p : Kernel × QueueHistory) (a : Act) : Prop :=
  a.RestartsFree p.1 ∧ a.StoresUnawaited p.1 p.2.toWaitHistory q

theorem reach_stores {h : QueueHistory} (hreach : queueMachine.Reach (StoresInOrder q) (k, h))
    (hsize : 0 < (k.queue q).size) : NoLostWakeup k h.toWaitHistory q := by
  have hinv : 0 < (k.queue q).size → NoLostWakeup k h.toWaitHistory q := by
    apply System.Reach.history_invariant
      (J := fun k h => 0 < (k.queue q).size → NoLostWakeup k h.toWaitHistory q) hreach
    · intro k hk hsize
      have hi : Roles k .start q := .init hk hsize
      constructor
      · intro t _ hr
        exact absurd hr Bool.false_ne_true
      · exact fun t hl hsend _ => hi.senders_wait hl hsend
    · intro k h a k' hreach hi ha hs hsize
      have hqueue := reach_queueing (q := q) hreach fun _ _ h => h.1
      have hreach' : queueMachine.Reach (StoresInOrder q) (k', h.record k a k') :=
        .step hreach ha ⟨hs, rfl⟩
      have hqueue' := reach_queueing (q := q) hreach' fun _ _ h => h.1
      obtain ⟨hqs, hns⟩ := reach_queued (c := False) hreach.forget fun hc => hc.elim
      have hroles' := hqueue'.roles hsize
      rw [(hqueue.size hs).2] at hsize
      exact (hi hsize).step hs (hqueue.roles hsize) hroles' hqueue.waiting hqs hns ha.1 ha.2
  exact hinv hsize

/-- Whatever its flags, a queue that stores no message for a task that waits loses no wake-up, and
the first message that it stores for one does. -/
theorem reach_noLostWakeup {h : QueueHistory}
    (hreach : queueMachine.Reach (StoresInOrder q) (k, h)) (hsize : 0 < (k.queue q).size) :
    NoLostWakeup k h.toWaitHistory q ∧ ∀ a k', machine.step k a k' → a.RestartsFree k →
      (NoLostWakeup k' (h.record k a k').toWaitHistory q ↔
        a.StoresUnawaited k h.toWaitHistory q) := by
  have hqueue := reach_queueing (q := q) hreach fun _ _ h => h.1
  constructor
  · exact reach_stores hreach hsize
  · intro a k' hs hok
    constructor
    · intro hno
      exact .of_noLostWakeup hno hs (hqueue.roles hsize) hqueue.waiting
    · intro hst
      rw [← (hqueue.size hs).2] at hsize
      exact reach_stores (h := h.record k a k') (.step hreach ⟨hok, hst⟩ ⟨hs, rfl⟩) hsize

theorem Objects.onList_singleton {o : Objects} {w : Waitable} (hb : o.blocked w = some t)
    (hn : o.nblocked t = none) (hl : o.OnList w x) : x = t := by
  obtain ⟨pre, hl⟩ := hl
  rw [hb] at hl
  cases pre with
  | nil => exact (Option.some.inj hl).symm
  | cons y pre =>
    obtain ⟨hy, hl⟩ := hl
    cases hy
    rw [hn] at hl
    cases pre with
    | nil => cases hl
    | cons z pre => cases hl.1

set_option maxRecDepth 10000 in
theorem noLostWakeup_after_timeout : ∃ (k : Kernel) (h : QueueHistory),
    (k.queue 0).flags = queueOnly ∧ (k.queue 0).number = 1 ∧ k.blocked (.queue 0) = some 1 ∧
      h.Receives 0 1 ∧ NoLostWakeup k h.toWaitHistory 0 := by
  obtain ⟨k, h, hreach, hflags, hn, hb, hr, hsize⟩ :=
    ((Boot.simple [0, 16, 18] (by simp)).withQueues ⟨1, queueOnly⟩).exists_recorded
      QueueHistory.start QueueHistory.record
      (fun p a => ¬ a.restarts ∧ ((a.offers 0).isSome → p.1.blocked (.queue 0) = some 1 ∧
        p.1.nblocked 1 = none ∧ p.1.status 1 ≠ .wait))
      (fun k h => (k.queue 0).flags = queueOnly ∧ (k.queue 0).number = 1 ∧
        k.blocked (.queue 0) = some 1 ∧ h.Receives 0 1 ∧ 0 < (k.queue 0).size)
      [.schedule, .contextSwitch, .svc (.delay 3), .contextSwitch, .svc (.queueDequeue 0 10),
        .contextSwitch, .clock 5 0, .systick, .contextSwitch, .clock 20 0, .systick,
        .svc (.queueEnqueue 0 5 0)] (by decide)
  have hreach' : queueMachine.Reach (StoresInOrder 0) (k, h) := by
    apply hreach.mono
    intro p a ha
    constructor
    · exact .of_not_restarts ha.1
    · intro ho _ _ t hl _
      obtain ⟨hb, hnb, hst⟩ := ha.2 ho
      rw [Objects.onList_singleton hb hnb hl]
      exact hst
  exact ⟨k, h, hflags, hn, hb, hr, (reach_noLostWakeup hreach' hsize).1⟩

set_option maxRecDepth 10000 in
/-- A message is stored while a receiver waits for it without a timeout. -/
theorem not_noLostWakeup_after_enqueue : ∃ (k : Kernel) (h : QueueHistory),
    queueMachine.Reach (fun _ a => ¬ a.restarts) (k, h) ∧ (k.queue 0).flags = queueOnly ∧
      (k.queue 0).size = 1 ∧ k.status 1 = .wait ∧ (k.regs 2).r0 = Status.success.code ∧
        ¬ NoLostWakeup k h.toWaitHistory 0 := by
  obtain ⟨k, h, hreach, hflags, hsize, hwait, hr0, hb, hr, hn⟩ :=
    ((Boot.simple [0, 16, 16] (by simp)).withQueues ⟨1, queueOnly⟩).exists_recorded
      QueueHistory.start QueueHistory.record (fun _ a => ¬ a.restarts)
      (fun k h => (k.queue 0).flags = queueOnly ∧ (k.queue 0).size = 1 ∧ k.status 1 = .wait ∧
        (k.regs 2).r0 = Status.success.code ∧ k.blocked (.queue 0) = some 1 ∧
          h.Receives 0 1 ∧ (k.queue 0).number > 0)
      [.schedule, .contextSwitch, .svc (.queueDequeue 0 uint32Max), .contextSwitch,
        .svc (.queueEnqueue 0 5 0)] (by decide)
  refine ⟨k, h, hreach, hflags, hsize, hwait, hr0, fun hno => ?_⟩
  exact hno.receivers 1 (Objects.onList_of_blocked hb) hr hwait hn

end LostWakeup

end Osh
