import Osh.QueueSteps

namespace Osh
open Function (update)
open Lib

variable {k k' : Kernel} {t r x : TaskId} {q : QueueId} {a : Act} {L : Waitable → List TaskId}
  {h : WaitHistory} {message : Nat}

/-- The message that a call passes to an enqueue of `q`. -/
def Svc.offers (q : QueueId) : Svc → Option Nat
  | .queueEnqueue q' message _ => if q' = q then some message else none
  | _ => none

def Svc.asks (q : QueueId) : Svc → Bool
  | .queueDequeue q' _ => q' = q
  | _ => false

/-- The message of the enqueue of `q` in which `t` blocked. -/
def WaitHistory.sends (h : WaitHistory) (q : QueueId) (t : TaskId) : Option Nat :=
  (h.asleep t).bind (Svc.offers q)

/-- `t` blocked in a dequeue of `q`. -/
def WaitHistory.Receives (h : WaitHistory) (q : QueueId) (t : TaskId) : Prop :=
  (h.asleep t).any (Svc.asks q)

instance : Decidable (h.Receives q t) :=
  inferInstanceAs (Decidable ((h.asleep t).any (Svc.asks q) = true))

theorem Svc.offers_or_asks {call : Svc} (hc : call.target = some (.queue q)) :
    (∃ message, call.offers q = some message) ∨ call.asks q := by
  cases call <;> simp only [Svc.target, reduceCtorEq, Option.some.injEq,
    Waitable.queue.injEq] at hc
  case queueEnqueue q' message timeout => exact .inl ⟨message, by simp [Svc.offers, hc]⟩
  case queueDequeue q' timeout => exact .inr (by simp [Svc.asks, hc])

theorem Svc.not_asks {call : Svc} (hc : call.offers q = some message) : call.asks q = false := by
  cases call with
  | queueEnqueue => rfl
  | _ => cases hc

theorem Svc.not_offers {call : Svc} (hc : call.asks q) : call.offers q = none := by
  cases call with
  | queueDequeue => rfl
  | _ => cases hc

theorem Svc.target_of_offers {call : Svc} (hc : call.offers q = some message) :
    call.target = some (.queue q) := by
  cases call <;> simp only [Svc.offers, reduceCtorEq] at hc
  case queueEnqueue =>
    split_ifs at hc with he
    rw [Svc.target, he]

theorem Svc.target_of_asks {call : Svc} (hc : call.asks q) : call.target = some (.queue q) := by
  cases call <;> simp only [Svc.asks, Bool.false_eq_true, decide_eq_true_eq] at hc
  case queueDequeue => rw [Svc.target, hc]

namespace WaitHistory

theorem pending_of_sends (hs : h.sends q t = some message) : h.pending t = some (.queue q) := by
  obtain ⟨call, hc, ho⟩ := Option.bind_eq_some_iff.1 hs
  rw [pending, hc]
  exact Svc.target_of_offers ho

theorem asleep_of_sends (hs : h.sends q t = some message) : h.asleep t ≠ none := by
  obtain ⟨call, hc, -⟩ := Option.bind_eq_some_iff.1 hs
  simp [hc]

theorem pending_of_receives (hr : h.Receives q t) : h.pending t = some (.queue q) := by
  obtain ⟨call, hc, ho⟩ := (Option.any_eq_true _ _).1 hr
  rw [pending, hc]
  exact Svc.target_of_asks ho

theorem sends_or_receives (hp : h.pending t = some (.queue q)) :
    (∃ message, h.sends q t = some message) ∨ h.Receives q t := by
  obtain ⟨call, hc, ht⟩ := Option.bind_eq_some_iff.1 hp
  simp only [sends, Receives, hc, Option.bind_some, Option.any_some]
  exact Svc.offers_or_asks ht

theorem not_sends (hr : h.Receives q t) : h.sends q t = none := by
  obtain ⟨call, hc, ho⟩ := (Option.any_eq_true _ _).1 hr
  rw [sends, hc, Option.bind_some, Svc.not_offers ho]

theorem sends_of_asleep {h' : WaitHistory} (ha : h'.asleep t = h.asleep t) :
    h'.sends q t = h.sends q t := by
  rw [sends, ha, sends]

theorem receives_of_asleep {h' : WaitHistory} (ha : h'.asleep t = h.asleep t) :
    h'.Receives q t ↔ h.Receives q t := by
  rw [Receives, ha, Receives]

end WaitHistory

theorem QueueStep.answers (hq : QueueStep k q k' a) (ha : a.target = some (.queue q)) :
    ∃ ts, a.Answers k k' ts ∧ ∀ x ∈ ts, ¬ k'.OnList (.queue q) x := by
  cases hq with
  | other ht => exact absurd ha ht
  | sends _ _ _ _ _ _ _ hb' hx | refills _ _ _ _ _ _ _ _ hb' hx =>
    refine ⟨_, hx, fun x hx => ?_⟩
    rw [List.mem_singleton.1 hx]
    exact hb'
  | stores _ _ _ _ _ _ _ hx | fails _ _ _ _ hx | blocksSend _ _ _ _ _ _ hx | takes _ _ _ _ _ hx
  | blocksReceive _ _ _ _ hx => exact ⟨[], hx, by simp⟩

/-- A task that stays on the list sleeps on with what it wants, and its frame is not written. -/
structure Kept (k : Kernel) (h : WaitHistory) (k' : Kernel) (a : Act) (t : TaskId) : Prop where
  asleep : (h.record k a k').asleep t = h.asleep t
  since : (h.record k a k').since t = h.since t
  regs : k'.regs t = k.regs t
  c : k'.c t = k.c t

theorem QueueStep.listed (hq : QueueStep k q k' a) (hw : Waits k h L) (hs : machine.step k a k')
    (hf : Flagged k.toObjects) (hn : NextFree k) (hok : a.RestartsFree k)
    (hl : k'.OnList (.queue q) t) :
    k.OnList (.queue q) t ∧ Kept k h k' a t ∨
      a.Sleeps k k' t ∧ a.target = some (.queue q) := by
  obtain ⟨hsched, hold⟩ := hw.onList_step hs hf hn hok hl
  refine hold.imp_left fun hold => ⟨hold, ?_⟩
  have hp := hw.pending_of_onList hold
  have hne : h.pending t ≠ none := by simp [hp]
  have hsl : ¬ a.Sleeps k k' t := hw.not_sleeps hs.1 hne
  have hwk : ¬ a.Wakes k t := hw.not_wakes hn hok hold
  have hframe : k'.regs t = k.regs t ∧ k'.c t = k.c t := by
    by_cases ha : a.target = some (.queue q)
    · obtain ⟨ts, hx, hts⟩ := hq.answers ha
      obtain ⟨hregs, hc⟩ := hx t (fun hcall => hw.not_calls hs.1 hcall.1 hne hcall.2)
        fun ht => hts t ht hl
      exact ⟨hregs, hc hsched⟩
    · obtain ⟨hfr, hregs⟩ := (Act.run_waits hs.1 hs.2).framed hf hn
      have ht := hw.not_touches_of_ne hs.1 hp hwk ha
      exact ⟨hregs t ht, hfr.c t fun h => h.elim ht hsched⟩
  exact ⟨WaitHistory.asleep_record hsl hwk, WaitHistory.since_record hsl, hframe.1, hframe.2⟩

structure BlocksSend (k k' : Kernel) (q : QueueId) (t : TaskId) (message : Nat) (call : Svc) :
    Prop where
  offers : call.offers q = some message
  handsOff : ¬ k.handsOff q
  full : (k.queue q).number = (k.queue q).size
  queue : k'.queue q = { k.queue q with status := .blockedSend }
  c : k'.c t = message
  refused : (k'.regs t).r0 = Status.errorTo.code

structure BlocksReceive (k k' : Kernel) (q : QueueId) (t : TaskId) (call : Svc) : Prop where
  asks : call.asks q
  empty : (k.queue q).number = 0
  queue : k'.queue q = { k.queue q with status := .blockedReceive }
  refused : (k'.regs t).r0 = Status.errorTo.code

theorem QueueStep.blocks (hq : QueueStep k q k' a) (hsl : a.Sleeps k k' t)
    (ha : a.target = some (.queue q)) : ∃ call, (h.record k a k').asleep t = some call ∧
      ((∃ message, BlocksSend k k' q t message call) ∨ BlocksReceive k k' q t call) := by
  have hasleep := WaitHistory.asleep_sleeps (h := h) hsl
  obtain ⟨hc, hr, hz⟩ := hsl
  cases hq with
  | other ht => exact absurd ha ht
  | sends _ _ _ _ _ _ _ _ _ hz' | stores _ _ _ _ _ _ _ _ hz' | fails _ _ _ _ _ hz'
  | takes _ _ _ _ _ _ hz' | refills _ _ _ _ _ _ _ _ _ _ hz' => exact absurd (hz' hc t hr) hz
  | blocksSend hr' hh hn hq hm hs =>
    cases hr.symm.trans hr'
    exact ⟨_, hasleep, .inl ⟨_, by simp [Svc.offers], hh, hn, hq, hm, hs⟩⟩
  | blocksReceive hr' hn hq hs =>
    cases hr.symm.trans hr'
    exact ⟨_, hasleep, .inr ⟨by simp [Svc.asks], hn, hq, hs⟩⟩

/-- The ring of the queue, and the tasks on its list. A task that blocked in an enqueue keeps the
ring full and the status at `OS_QUEUE_BLOCKED_SEND`. A task that blocked in a dequeue keeps the ring
empty only if messages are handed to it. -/
structure Roles (k : Kernel) (h : WaitHistory) (q : QueueId) : Prop where
  ring : (k.queue q).Ring
  senders : ∀ t message, k.OnList (.queue q) t → h.sends q t = some message →
    (k.queue q).status = .blockedSend ∧ (k.queue q).number = (k.queue q).size ∧ k.c t = message
  receivers : ∀ t, k.OnList (.queue q) t → h.Receives q t →
    (k.queue q).flags &&& queueOnly = 0 →
      (k.queue q).status = .blockedReceive ∧ (k.queue q).number = 0
  refused : ∀ t, k.OnList (.queue q) t → (k.regs t).r0 = Status.errorTo.code

namespace Roles
variable (hi : Roles k h q)
include hi

theorem ring_step (hq : QueueStep k q k' a) : (k'.queue q).Ring := by
  have hring := hi.ring
  cases hq with
  | other _ hq | sends _ _ _ _ hq | fails _ _ hq =>
    rw [hq]
    exact hring
  | stores _ _ hn hq =>
    rw [hq]
    exact (hring.setStatus _).store hn
  | blocksSend _ _ _ hq | blocksReceive _ _ hq =>
    rw [hq]
    exact hring.setStatus _
  | takes _ hn _ hq =>
    rw [hq]
    exact hring.take hn
  | refills _ hn _ _ _ hq =>
    rw [hq]
    apply (hring.take hn).store
    have hle := hring.number_le
    change (k.queue q).number - 1 ≠ (k.queue q).size
    omega

theorem senders_step (hq : QueueStep k q k' a) (hl : k.OnList (.queue q) t)
    (hs : h.sends q t = some message) :
    (k'.queue q).status = .blockedSend ∧ (k'.queue q).number = (k'.queue q).size := by
  obtain ⟨hst, hnum, -⟩ := hi.senders t message hl hs
  cases hq with
  | other _ hq | fails _ _ hq =>
    rw [hq]
    exact ⟨hst, hnum⟩
  | sends _ hh =>
    cases hst.symm.trans hh.2.2
  | stores _ _ hn => exact absurd hnum hn
  | blocksSend _ _ _ hq =>
    rw [hq]
    exact ⟨rfl, hnum⟩
  | takes _ _ hb =>
    rcases hb with hb | hb
    · exact absurd hl (Objects.not_onList hb)
    · exact absurd hst hb
  | refills _ hn _ _ _ hq =>
    rw [hq]
    have hlt := hi.ring.size_lt
    refine ⟨hst, ?_⟩
    change ((k.queue q).number - 1 + 1) % 2 ^ 16 = (k.queue q).size
    omega
  | blocksReceive _ hn =>
    have hpos := hi.ring.size_pos
    omega

theorem receivers_step (hq : QueueStep k q k' a) (hl : k.OnList (.queue q) t)
    (hr : h.Receives q t) (hflags : (k.queue q).flags &&& queueOnly = 0) :
    (k'.queue q).status = .blockedReceive ∧ (k'.queue q).number = 0 := by
  obtain ⟨hst, hnum⟩ := hi.receivers t hl hr hflags
  have hpos := hi.ring.size_pos
  cases hq with
  | other _ hq | fails _ _ hq | sends _ _ _ _ hq =>
    rw [hq]
    exact ⟨hst, hnum⟩
  | stores _ hh =>
    refine absurd ⟨hflags, fun hb => ?_, hst⟩ hh
    exact Objects.not_onList hb hl
  | blocksSend _ _ hn => omega
  | takes _ hn | refills _ hn => omega
  | blocksReceive _ _ hq =>
    rw [hq]
    exact ⟨rfl, hnum⟩

end Roles

theorem QueueStep.config (hq : QueueStep k q k' a) :
    (k'.queue q).flags = (k.queue q).flags ∧ (k'.queue q).size = (k.queue q).size := by
  cases hq with
  | other _ hq | fails _ _ hq | sends _ _ _ _ hq | stores _ _ _ hq | blocksSend _ _ _ hq
  | takes _ _ _ hq | refills _ _ _ _ _ hq | blocksReceive _ _ hq =>
    rw [hq]
    exact ⟨rfl, rfl⟩

theorem Roles.step (hi : Roles k h q) (hs : machine.step k a k') (hw : Waiting k h)
    (hok : a.RestartsFree k) : Roles k' (h.record k a k') q := by
  obtain ⟨hf, hn, L, hw⟩ := hw
  have hq := Act.queueStep hs hf hn hw.blocked q
  have hring := hi.ring_step hq
  constructor
  · exact hring
  · intro t message hl hm
    rcases hq.listed hw hs hf hn hok hl with ⟨hl₀, hkept⟩ | ⟨hsl, ha⟩
    · rw [WaitHistory.sends_of_asleep hkept.asleep] at hm
      obtain ⟨hst, hnum⟩ := hi.senders_step hq hl₀ hm
      exact ⟨hst, hnum, hkept.c.trans (hi.senders t message hl₀ hm).2.2⟩
    · obtain ⟨call, hcall, ⟨message', hb⟩ | hb⟩ := hq.blocks (h := h) hsl ha
      · rw [WaitHistory.sends, hcall, Option.bind_some, hb.offers] at hm
        cases hm
        rw [hb.queue]
        exact ⟨rfl, hb.full, hb.c⟩
      · rw [WaitHistory.sends, hcall, Option.bind_some, Svc.not_offers hb.asks] at hm
        cases hm
  · intro t hl hr hflags
    have hflags₀ : (k.queue q).flags &&& queueOnly = 0 := by
      rw [← hq.config.1]
      exact hflags
    rcases hq.listed hw hs hf hn hok hl with ⟨hl₀, hkept⟩ | ⟨hsl, ha⟩
    · rw [WaitHistory.receives_of_asleep hkept.asleep] at hr
      exact hi.receivers_step hq hl₀ hr hflags₀
    · obtain ⟨call, hcall, ⟨message', hb⟩ | hb⟩ := hq.blocks (h := h) hsl ha
      · rw [WaitHistory.Receives, hcall, Option.any_some, Svc.not_asks hb.offers] at hr
        cases hr
      · rw [hb.queue]
        exact ⟨rfl, hb.empty⟩
  · intro t hl
    rcases hq.listed hw hs hf hn hok hl with ⟨hl₀, hkept⟩ | ⟨hsl, ha⟩
    · rw [hkept.regs]
      exact hi.refused t hl₀
    · obtain ⟨call, -, ⟨message', hb⟩ | hb⟩ := hq.blocks (h := h) hsl ha
      · exact hb.refused
      · exact hb.refused

theorem Roles.init (hk : machine.init k) (hsize : 0 < (k.queue q).size) : Roles k .start q := by
  obtain ⟨b, hb⟩ := hk
  have hu := b.start_unused hb
  have hq : k.queue q = osiQueueCreate (b.queues q) := by
    rw [hu.queue]
    rfl
  have hnot (t : TaskId) : ¬ k.OnList (.queue q) t := fun hl => by
    have hm := hu.blockedInv.mem_iff.2 hl
    cases hm
  rw [hq] at hsize
  refine ⟨?_, fun t _ hl => absurd hl (hnot t), fun t hl => absurd hl (hnot t),
    fun t hl => absurd hl (hnot t)⟩
  rw [hq]
  exact ⟨hsize, Nat.mod_lt _ (Nat.two_pow_pos 16), hsize, hsize, Nat.zero_le _,
    (Nat.zero_mod _).symm⟩

end Osh
