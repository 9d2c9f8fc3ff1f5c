import Osh.CreatedTasks
import Osh.FixedRun
import Osh.QueueRoles

namespace Osh
open Function (update)
open Lib

variable {k k' : Kernel} {t r x : TaskId} {q : QueueId} {a : Act} {L : Waitable → List TaskId}
  {message : Nat}

/-- An enqueue that reported success: the number of the step in which it was called, and its
message. -/
structure Sent where
  call : Nat
  message : Nat
  deriving DecidableEq, Repr

/-- The messages that each queue accepted and delivered so far, the enqueues that returned with what
they reported, and the calls that were served by another one, with the action that served them. -/
structure QueueHistory extends WaitHistory where
  accepted : QueueId → List Sent
  delivered : QueueId → List Nat
  reports : QueueId → List (Sent × Nat)
  served : QueueId → List (Act × Option Svc)

def QueueHistory.start : QueueHistory where
  toWaitHistory := .start
  accepted _ := []
  delivered _ := []
  reports _ := []
  served _ := []

def Act.offers (q : QueueId) : Act → Option Nat
  | .svc call => call.offers q
  | .enqueueIsr q' message => if q' = q then some message else none
  | _ => none

def Act.asks (q : QueueId) : Act → Bool
  | .svc call => call.asks q
  | _ => false

/-- A call that `t` sleeps in is answered with success. -/
def Act.Completes (k k' : Kernel) (t : TaskId) (a : Act) : Prop :=
  ¬ (a.isCall ∧ k.running = some t) ∧ ¬ a.Wakes k t ∧ (k.regs t).r0 ≠ Status.success.code ∧
    (k'.regs t).r0 = Status.success.code

instance : Decidable (a.Completes k k' t) :=
  inferInstanceAs (Decidable (¬ (a.isCall ∧ k.running = some t) ∧ ¬ a.Wakes k t ∧
    (k.regs t).r0 ≠ Status.success.code ∧ (k'.regs t).r0 = Status.success.code))

def Act.completed {α : Type} (k k' : Kernel) (a : Act) (f : TaskId → Option α) : List α :=
  k.tasks.filterMap fun t => if a.Completes k k' t then f t else none

/-- The enqueues of `q` that a step reports as successful: the one that it makes, and those that
tasks sleep in. -/
def Act.accepts (k k' : Kernel) (h : WaitHistory) (q : QueueId) (a : Act) : List Sent :=
  (if a.report k k' = some Status.success.code then
    ((a.offers q).map (Sent.mk h.time)).toList else []) ++
  a.completed k k' fun t => (h.sends q t).map (Sent.mk (h.since t))

/-- The messages that a step reports as received from `q`, which are in the frames of the tasks. -/
def Act.delivers (k k' : Kernel) (h : WaitHistory) (q : QueueId) (a : Act) : List Nat :=
  (if a.report k k' = some Status.success.code ∧ a.asks q then
    (k.running.map fun r => (k'.regs r).r1).toList else []) ++
  a.completed k k' fun t => if h.Receives q t then some (k'.regs t).r1 else none

/-- The enqueues of `q` that return in a step: the one that it makes, unless that blocks, and the
one of the task that runs again. -/
def Act.returned (k k' : Kernel) (h : WaitHistory) (q : QueueId) (a : Act) : List (Sent × Nat) :=
  (if k.running.any fun r => a.Sleeps k k' r then none else
    (a.offers q).bind fun message => (a.report k k').map (Prod.mk ⟨h.time, message⟩)).toList ++
  (if a = .contextSwitch then
    k.scheduled.bind fun t => (h.sends q t).map fun message => (⟨h.since t, message⟩, (k.regs t).r0)
  else none).toList

def Act.serves (k : Kernel) (h : WaitHistory) (q : QueueId) (a : Act) : List (Act × Option Svc) :=
  if a.target = some (.queue q) then
    (a.grantee k.toObjects).toList.map fun t => (a, h.asleep t) else []

def QueueHistory.record (h : QueueHistory) (k : Kernel) (a : Act) (k' : Kernel) :
    QueueHistory where
  toWaitHistory := h.toWaitHistory.record k a k'
  accepted q := h.accepted q ++ a.accepts k k' h.toWaitHistory q
  delivered q := h.delivered q ++ a.delivers k k' h.toWaitHistory q
  reports q := h.reports q ++ a.returned k k' h.toWaitHistory q
  served q := h.served q ++ a.serves k h.toWaitHistory q

section Transfer
variable {h : WaitHistory}

theorem Act.completed_nil {α : Type} {f : TaskId → Option α}
    (hf : ∀ t, a.Completes k k' t → f t = none) : a.completed k k' f = [] := by
  apply List.filterMap_eq_nil_iff.2
  intro t _
  split_ifs with hc
  · exact hf t hc
  · rfl

theorem Act.completed_one {α : Type} {f : TaskId → Option α} (hn : k.tasks.Nodup)
    (ht : t ∈ k.tasks) (hc : a.Completes k k' t) (hx : ∀ x ≠ t, ¬ a.Completes k k' x) :
    a.completed k k' f = (f t).toList := by
  have hnone (l : List TaskId) (hl : t ∉ l) :
      l.filterMap (fun x => if a.Completes k k' x then f x else none) = [] := by
    apply List.filterMap_eq_nil_iff.2
    intro x hxl
    exact if_neg (hx x (ne_of_mem_of_not_mem hxl hl))
  obtain ⟨pre, post, hpp⟩ := List.append_of_mem ht
  rw [hpp, List.nodup_middle, List.nodup_cons, List.mem_append, not_or] at hn
  rw [Act.completed, hpp, List.filterMap_append, hnone pre hn.1.1, List.nil_append,
    List.filterMap_cons, if_pos hc, hnone post hn.1.2]
  cases f t <;> rfl

theorem Act.Answers.not_completes {ts : List TaskId} (hx : a.Answers k k' ts) (ht : t ∉ ts) :
    ¬ a.Completes k k' t := by
  rintro ⟨hcall, -, hne, he⟩
  rw [(hx t hcall ht).1] at he
  exact hne he

/-- How the messages pass through the queue in a step. -/
inductive Transfer (k : Kernel) (h : WaitHistory) (q : QueueId) (k' : Kernel) (a : Act) : Prop
  | keeps (hc : (k'.queue q).contents = (k.queue q).contents)
    (hacc : a.accepts k k' h q = []) (hdel : a.delivers k k' h q = [])
    (hx : ∀ x, h.pending x = some (.queue q) → ¬ a.Wakes k x → k'.regs x = k.regs x)
  | hands {t : TaskId} {message : Nat} (hh : k.handsOff q) (hb : k.blocked (.queue q) = some t)
    (hr : h.Receives q t) (hq : k'.queue q = k.queue q)
    (hacc : a.accepts k k' h q = [⟨h.time, message⟩]) (hdel : a.delivers k k' h q = [message])
    (hx : ∀ x, h.pending x = some (.queue q) → x ≠ t → k'.regs x = k.regs x)
    (hz : a.Returns k k')
  | stores {message : Nat} (hn : (k.queue q).number ≠ (k.queue q).size)
    (hq : k'.queue q = { k.queue q with status := .fine }.store message)
    (hacc : a.accepts k k' h q = [⟨h.time, message⟩]) (hdel : a.delivers k k' h q = [])
    (hx : ∀ x, h.pending x = some (.queue q) → k'.regs x = k.regs x) (hz : a.Returns k k')
  | takes (hn : 0 < (k.queue q).number) (hq : k'.queue q = (k.queue q).take)
    (hacc : a.accepts k k' h q = [])
    (hdel : a.delivers k k' h q = [(k.queue q).messages (k.queue q).last])
    (hx : ∀ x, h.pending x = some (.queue q) → k'.regs x = k.regs x) (hz : a.Returns k k')
  | refills {t : TaskId} (hn : 0 < (k.queue q).number) (hb : k.blocked (.queue q) = some t)
    (hm : h.sends q t = some (k.c t)) (hq : k'.queue q = (k.queue q).take.store (k.c t))
    (hacc : a.accepts k k' h q = [⟨h.since t, k.c t⟩])
    (hdel : a.delivers k k' h q = [(k.queue q).messages (k.queue q).last])
    (ht : (k'.regs t).r0 = Status.success.code) (hb' : ¬ k'.OnList (.queue q) t)
    (hx : ∀ x, h.pending x = some (.queue q) → x ≠ t → k'.regs x = k.regs x)
    (hz : a.Returns k k')

def Act.RefillsSender (k : Kernel) (h : WaitHistory) (q : QueueId) (a : Act) : Prop :=
  a.asks q → 0 < (k.queue q).number → (k.queue q).status = .blockedSend →
    ∀ t, k.blocked (.queue q) = some t → ¬ h.Receives q t

theorem Act.not_offers (ha : a.target ≠ some (.queue q)) : a.offers q = none := by
  cases a <;> try rfl
  case svc call =>
    by_contra ho
    obtain ⟨message, ho⟩ := Option.ne_none_iff_exists'.1 ho
    exact ha (Svc.target_of_offers ho)
  case enqueueIsr q' message =>
    apply if_neg
    rintro rfl
    exact ha rfl

theorem Act.not_asks (ha : a.target ≠ some (.queue q)) : a.asks q = false := by
  cases a <;> try rfl
  case svc call =>
    by_contra hc
    exact ha (Svc.target_of_asks (Bool.not_eq_false _ ▸ hc))

theorem Act.Enqueues.offers (ha : a.Enqueues q message) :
    a.offers q = some message ∧ a.asks q = false := by
  cases ha with
  | task => exact ⟨by simp [Act.offers, Svc.offers], rfl⟩
  | isr => exact ⟨by simp [Act.offers], rfl⟩

theorem Act.Enqueues.of_offers (ho : a.offers q = some message) : a.Enqueues q message := by
  cases a <;> try cases ho
  case svc call =>
    cases call <;> simp only [Act.offers, Svc.offers, reduceCtorEq] at ho
    case queueEnqueue q' m timeout =>
      split_ifs at ho with hq
      cases ho
      exact hq ▸ .task
  case enqueueIsr q' m =>
    simp only [Act.offers] at ho
    split_ifs at ho with hq
    cases ho
    exact hq ▸ .isr

theorem Act.Enqueues.not_wakes (ha : a.Enqueues q message) : ¬ a.Wakes k t := by
  cases ha with
  | task | isr => exact id

theorem Roles.completes (hi : Roles k h q) (hne : ¬ (a.isCall ∧ k.running = some t))
    (hwk : ¬ a.Wakes k t) (hb : k.blocked (.queue q) = some t)
    (ht : (k'.regs t).r0 = Status.success.code) : a.Completes k k' t := by
  refine ⟨hne, hwk, ?_, ht⟩
  rw [hi.refused t (Objects.onList_of_blocked hb)]
  decide

theorem Act.accepts_offers (ha : a.offers q = some message)
    (hs : a.report k k' = some Status.success.code) :
    a.accepts k k' h q = ⟨h.time, message⟩ ::
      a.completed k k' fun t => (h.sends q t).map (Sent.mk (h.since t)) := by
  rw [Act.accepts, if_pos hs, ha]
  rfl

theorem Act.accepts_eq (ha : a.report k k' = some Status.success.code → a.offers q = none) :
    a.accepts k k' h q = a.completed k k' fun t => (h.sends q t).map (Sent.mk (h.since t)) := by
  rw [Act.accepts]
  split_ifs with hs
  · rw [ha hs]
    rfl
  · rfl

theorem Act.delivers_asks (ha : a.asks q) (hr : k.running = some r)
    (hs : a.report k k' = some Status.success.code) :
    a.delivers k k' h q = (k'.regs r).r1 ::
      a.completed k k' fun t => if h.Receives q t then some (k'.regs t).r1 else none := by
  rw [Act.delivers, if_pos ⟨hs, ha⟩, hr]
  rfl

theorem Act.delivers_eq (ha : a.report k k' = some Status.success.code → a.asks q = false) :
    a.delivers k k' h q =
      a.completed k k' fun t => if h.Receives q t then some (k'.regs t).r1 else none := by
  rw [Act.delivers, if_neg]
  · rfl
  · rintro ⟨hs, hasks⟩
    rw [ha hs] at hasks
    cases hasks

/-- The first task on the list received or sent, which the status of the queue tells. -/
theorem Roles.head_receives (hi : Roles k h q) (hw : Waits k h L) (hh : k.handsOff q)
    (hb : k.blocked (.queue q) = some t) : h.Receives q t := by
  have hl : k.OnList (.queue q) t := Objects.onList_of_blocked hb
  rcases WaitHistory.sends_or_receives (hw.pending_of_onList hl) with ⟨message, hm⟩ | hr
  · cases (hi.senders t message hl hm).1.symm.trans hh.2.2
  · exact hr

/-- What a step answers is part of the flow of the messages through the queue. -/
theorem QueueStep.transfer (hq : QueueStep k q k' a) (hi : Roles k h q) (hw : Waits k h L)
    (hc : Created k) (hs : machine.step k a k') (hf : Flagged k.toObjects) (hn : NextFree k)
    (hok : a.RefillsSender k h q) : Transfer k h q k' a := by
  have hnone {α : Type} {f : TaskId → Option α} (hx : a.Answers k k' []) :
      a.completed k k' f = [] := by
    apply Act.completed_nil
    intro t ht
    exact absurd ht (hx.not_completes List.not_mem_nil)
  have hone {α : Type} {t : TaskId} {f : TaskId → Option α} (hx : a.Answers k k' [t])
      (ht : a.Completes k k' t) (hb : k.blocked (.queue q) = some t) :
      a.completed k k' f = (f t).toList := by
    apply Act.completed_one hc.nodup _ ht
    · intro x hne
      apply hx.not_completes
      exact mt List.mem_singleton.1 hne
    · exact hc.mem_of_onList hw.blocked (Objects.onList_of_blocked hb)
  have hkeep {ts : List TaskId} (hx : a.Answers k k' ts) {x : TaskId}
      (hp : h.pending x = some (.queue q)) (hts : x ∉ ts) : k'.regs x = k.regs x := by
    refine (hx x (fun hcall => ?_) hts).1
    exact hw.not_calls hs.1 hcall.1 (by simp [hp]) hcall.2
  cases hq with
  | other ha hq =>
    have hregs {x : TaskId} (hp : h.pending x = some (.queue q)) (hwk : ¬ a.Wakes k x) :
        k'.regs x = k.regs x := by
      apply ((Act.run_waits hs.1 hs.2).framed hf hn).2
      exact hw.not_touches_of_ne hs.1 hp hwk ha
    have hnot {x : TaskId} (hp : h.pending x = some (.queue q)) : ¬ a.Completes k k' x := by
      rintro ⟨-, hwk, hne, he⟩
      rw [hregs hp hwk] at he
      exact hne he
    refine .keeps (by rw [hq]) ?_ ?_ fun x hp hwk => hregs hp hwk
    · rw [Act.accepts_eq fun _ => Act.not_offers ha]
      apply Act.completed_nil
      intro t ht
      rw [Option.map_eq_none_iff]
      by_contra hm
      obtain ⟨message, hm⟩ := Option.ne_none_iff_exists'.1 hm
      exact hnot (WaitHistory.pending_of_sends hm) ht
    · rw [Act.delivers_eq fun _ => Act.not_asks ha]
      apply Act.completed_nil
      intro t ht
      apply if_neg
      intro hr
      exact hnot (WaitHistory.pending_of_receives hr) ht
  | @sends _ message t ha hh hb hne hq hrep ht hb' hx hz =>
    obtain ⟨ho, hasks⟩ := ha.offers
    have hr := hi.head_receives hw hh hb
    have ht' := hi.completes hne ha.not_wakes hb (by rw [ht])
    refine @Transfer.hands k h q k' a t message hh hb hr hq ?_ ?_ (fun x hp hxt => ?_) hz
    · rw [Act.accepts_offers ho hrep, hone hx ht' hb, WaitHistory.not_sends hr]
      rfl
    · rw [Act.delivers_eq fun _ => hasks, hone hx ht' hb, if_pos hr, ht]
      rfl
    · exact hkeep hx hp (mt List.mem_singleton.1 hxt)
  | @stores _ message ha hh hn' hq hrep _ _ hx hz =>
    obtain ⟨ho, hasks⟩ := ha.offers
    refine @Transfer.stores k h q k' a message hn' hq ?_ ?_
      (fun x hp => hkeep hx hp List.not_mem_nil) hz
    · rw [Act.accepts_offers ho hrep, hnone hx]
    · rw [Act.delivers_eq fun _ => hasks, hnone hx]
  | fails ha _ hq hrep hx hz =>
    have hno : a.report k k' ≠ some Status.success.code := by
      rw [hrep]
      decide
    refine .keeps (by rw [hq]) ?_ ?_ fun x hp _ => hkeep hx hp List.not_mem_nil
    · rw [Act.accepts_eq fun h => absurd h hno, hnone hx]
    · rw [Act.delivers_eq fun h => absurd h hno, hnone hx]
  | blocksSend hr hh hn' hq hm hrefused hx | blocksReceive hr hn' hq hrefused hx =>
    have hno (call : Svc) : (Act.svc call).report k k' ≠ some Status.success.code := by
      rw [Act.report, hr, Option.map_some, hrefused]
      decide
    refine .keeps (by rw [hq]; rfl) ?_ ?_ fun x hp _ => hkeep hx hp List.not_mem_nil
    · rw [Act.accepts_eq fun h => absurd h (hno _), hnone hx]
    · rw [Act.delivers_eq fun h => absurd h (hno _), hnone hx]
  | @takes r timeout hr hn' hb hq hrefused hx hz =>
    have hrep : (Act.svc (.queueDequeue q timeout)).report k k' = some Status.success.code := by
      rw [Act.report, hr, Option.map_some, hrefused]
    refine .takes hn' hq ?_ ?_ (fun x hp => hkeep hx hp List.not_mem_nil) hz
    · rw [Act.accepts_eq fun _ => rfl, hnone hx]
    · rw [Act.delivers_asks (by simp [Act.asks, Svc.asks]) hr hrep, hnone hx, hrefused]
  | @refills r t timeout hr hn' hst hb hne hq hrefused ht hb' hx hz =>
    have hrep : (Act.svc (.queueDequeue q timeout)).report k k' = some Status.success.code := by
      rw [Act.report, hr, Option.map_some, hrefused]
    have hasks : (Act.svc (.queueDequeue q timeout)).asks q := by simp [Act.asks, Svc.asks]
    have hl : k.OnList (.queue q) t := Objects.onList_of_blocked hb
    have hnr : ¬ h.Receives q t := hok hasks hn' hst t hb
    obtain ⟨message, hm⟩ :=
      (WaitHistory.sends_or_receives (hw.pending_of_onList hl)).resolve_right hnr
    have hct : k.c t = message := (hi.senders t message hl hm).2.2
    have ht' := hi.completes (a := .svc (.queueDequeue q timeout))
      (fun hcall => hne (Option.some.inj (hr.symm.trans hcall.2))) id hb (by rw [ht])
    refine .refills hn' hb (hm.trans (by rw [hct])) hq ?_ ?_ (by rw [ht]) hb'
      (fun x hp hxt => hkeep hx hp (mt List.mem_singleton.1 hxt)) hz
    · rw [Act.accepts_eq fun _ => rfl, hone hx ht' hb, hm, hct]
      rfl
    · rw [Act.delivers_asks hasks hr hrep, hone hx ht' hb, if_neg hnr, hrefused]
      rfl

/-- What is in the ring and what is accepted comes out in this order. -/
theorem Transfer.conserved (ht : Transfer k h q k' a) (hi : Roles k h q) :
    (k.queue q).contents ++ (a.accepts k k' h q).map Sent.message =
      a.delivers k k' h q ++ (k'.queue q).contents := by
  have hring := hi.ring
  cases ht with
  | keeps hc hacc hdel =>
    rw [hacc, hdel, hc]
    exact List.append_nil _
  | hands hh hb hr hq hacc hdel =>
    have hempty : (k.queue q).contents = [] := by
      rw [Queue.contents, (hi.receivers _ (Objects.onList_of_blocked hb) hr hh.1).2]
      rfl
    rw [hacc, hdel, hq, hempty]
    rfl
  | stores hn hq hacc hdel =>
    rw [hacc, hdel, hq, (hring.setStatus .fine).store_contents hn]
    rfl
  | takes hn hq hacc hdel =>
    rw [hacc, hdel, hq, hring.take_contents hn]
    exact List.append_nil _
  | refills hn _ _ hq hacc hdel =>
    have hne : (k.queue q).take.number ≠ (k.queue q).take.size := by
      have hle := hring.number_le
      change (k.queue q).number - 1 ≠ (k.queue q).size
      omega
    rw [hacc, hdel, hq, (hring.take hn).store_contents hne, hring.take_contents hn]
    rfl

end Transfer

theorem WaitHistory.since_asleep {h : WaitHistory} (ht : (h.record k a k').asleep t ≠ none) :
    (h.record k a k').since t = h.time ∧ a.Sleeps k k' t ∨
      (h.record k a k').since t = h.since t ∧ h.asleep t ≠ none ∧ ¬ a.Wakes k t := by
  by_cases hsl : a.Sleeps k k' t
  · exact .inl ⟨if_pos hsl, hsl⟩
  · refine .inr ⟨WaitHistory.since_record hsl, fun hnone => ht ?_, fun hwk => ht ?_⟩
    · simp only [WaitHistory.record, if_neg hsl, hnone, ite_self]
    · simp only [WaitHistory.record, if_neg hsl, if_pos hwk]

/-- The tasks that sleep went to sleep in different steps. -/
structure Dated (h : WaitHistory) : Prop where
  past : ∀ t, h.asleep t ≠ none → h.since t < h.time
  injective : ∀ t x, h.asleep t ≠ none → h.asleep x ≠ none → h.since t = h.since x → t = x

theorem Dated.start : Dated .start := ⟨fun _ ht => absurd rfl ht, fun _ _ ht => absurd rfl ht⟩

theorem Dated.step {h : WaitHistory} (hd : Dated h) : Dated (h.record k a k') := by
  constructor
  · intro t ht
    change _ < h.time + 1
    rcases WaitHistory.since_asleep ht with ⟨hs, -⟩ | ⟨hs, ht, -⟩
    · rw [hs]
      exact Nat.lt_succ_self _
    · rw [hs]
      exact Nat.lt_succ_of_lt (hd.past t ht)
  · intro t x ht hx he
    rcases WaitHistory.since_asleep ht with ⟨hst, hslt⟩ | ⟨hst, ht, -⟩
    · rcases WaitHistory.since_asleep hx with ⟨-, hslx⟩ | ⟨hsx, hx, -⟩
      · exact Option.some.inj (hslt.2.1.symm.trans hslx.2.1)
      · rw [hst, hsx] at he
        exact absurd he.symm (Nat.ne_of_lt (hd.past x hx))
    · rcases WaitHistory.since_asleep hx with ⟨hsx, -⟩ | ⟨hsx, hx, -⟩
      · rw [hst, hsx] at he
        exact absurd he (Nat.ne_of_lt (hd.past t ht))
      · exact hd.injective t x ht hx (hst.symm.trans (he.trans hsx))

/-- What was accepted was delivered or is in the ring, in the order of the calls. A task that
blocked in an enqueue finds success in its frame exactly when its message was accepted. -/
structure Flow (k : Kernel) (h : QueueHistory) (q : QueueId) : Prop where
  conserved : (h.accepted q).map Sent.message = h.delivered q ++ (k.queue q).contents
  order : (h.accepted q).Pairwise fun m m' => m.call < m'.call
  past : ∀ m ∈ h.accepted q, m.call < h.time
  before : ∀ t message, k.OnList (.queue q) t → h.sends q t = some message →
    ∀ m ∈ h.accepted q, m.call < h.since t
  reported : ∀ t message, h.sends q t = some message →
    (k.regs t).r0 = Status.success.code ∧ ⟨h.since t, message⟩ ∈ h.accepted q ∨
      (k.regs t).r0 = Status.errorTo.code ∧ ∀ m ∈ h.accepted q, m.call ≠ h.since t

/-- The message that a step accepts is that of its own call, when no sender is on the list, or that
of the first task on the list, which leaves it. -/
inductive Accepted (k : Kernel) (h : WaitHistory) (q : QueueId) (k' : Kernel) (m : Sent) : Prop
  | called (hm : m.call = h.time)
    (hn : ∀ t message, k.OnList (.queue q) t → h.sends q t ≠ some message)
  | served {t : TaskId} (hb : k.blocked (.queue q) = some t)
    (hs : h.sends q t = some m.message) (hm : m.call = h.since t)
    (hb' : ¬ k'.OnList (.queue q) t)

theorem Transfer.accepted {h : WaitHistory} (ht : Transfer k h q k' a) (hi : Roles k h q) :
    a.accepts k k' h q = [] ∨
      a.Returns k k' ∧ ∃ m, a.accepts k k' h q = [m] ∧ Accepted k h q k' m := by
  cases ht with
  | keeps _ hacc | takes _ _ hacc => exact .inl hacc
  | hands hh _ _ _ hacc _ _ hz =>
    refine .inr ⟨hz, _, hacc, .called rfl fun t message hl hs => ?_⟩
    cases (hi.senders t message hl hs).1.symm.trans hh.2.2
  | stores hn _ hacc _ _ hz =>
    refine .inr ⟨hz, _, hacc, .called rfl fun t message hl hs => ?_⟩
    exact hn (hi.senders t message hl hs).2.1
  | refills _ hb hm _ hacc _ _ hb' _ hz => exact .inr ⟨hz, _, hacc, .served hb hm rfl hb'⟩

theorem Transfer.mem_accepted {h : QueueHistory} {m : Sent}
    (ht : Transfer k h.toWaitHistory q k' a) (hi : Roles k h.toWaitHistory q)
    (hm : m ∈ (h.record k a k').accepted q) :
    m ∈ h.accepted q ∨ a.Returns k k' ∧ Accepted k h.toWaitHistory q k' m := by
  apply (List.mem_append.1 hm).imp_right
  intro hm
  rcases ht.accepted hi with hacc | ⟨hz, m', hacc, hm'⟩
  · rw [hacc] at hm
    cases hm
  · rw [hacc, List.mem_singleton] at hm
    exact ⟨hz, hm ▸ hm'⟩

namespace Flow
variable {h : QueueHistory} (hfl : Flow k h q)
include hfl

theorem conserved_step (ht : Transfer k h.toWaitHistory q k' a) (hi : Roles k h.toWaitHistory q) :
    ((h.record k a k').accepted q).map Sent.message =
      (h.record k a k').delivered q ++ (k'.queue q).contents := by
  change (h.accepted q ++ _).map Sent.message = (h.delivered q ++ _) ++ _
  rw [List.map_append, hfl.conserved, List.append_assoc, ht.conserved hi, List.append_assoc]

theorem order_step (ht : Transfer k h.toWaitHistory q k' a) (hi : Roles k h.toWaitHistory q) :
    ((h.record k a k').accepted q).Pairwise fun m m' => m.call < m'.call := by
  change (h.accepted q ++ _).Pairwise _
  rcases ht.accepted hi with hacc | ⟨-, m', hacc, hm'⟩
  · rw [hacc, List.append_nil]
    exact hfl.order
  · rw [hacc, List.pairwise_append]
    refine ⟨hfl.order, List.pairwise_singleton _ _, fun m hm x hx => ?_⟩
    rw [List.mem_singleton.1 hx]
    cases hm' with
    | called hc =>
      rw [hc]
      exact hfl.past m hm
    | served hb hs hc =>
      rw [hc]
      exact hfl.before _ _ (Objects.onList_of_blocked hb) hs m hm

theorem past_step (ht : Transfer k h.toWaitHistory q k' a) (hi : Roles k h.toWaitHistory q)
    (hd : Dated h.toWaitHistory) :
    ∀ m ∈ (h.record k a k').accepted q, m.call < (h.record k a k').time := by
  intro m hm
  change _ < h.time + 1
  rcases ht.mem_accepted hi hm with hm | ⟨-, hc | ⟨-, hs, hc, -⟩⟩
  · exact Nat.lt_succ_of_lt (hfl.past m hm)
  · rw [hc]
    exact Nat.lt_succ_self _
  · rw [hc]
    exact Nat.lt_succ_of_lt (hd.past _ (WaitHistory.asleep_of_sends hs))

theorem before_step (hq : QueueStep k q k' a) (ht : Transfer k h.toWaitHistory q k' a)
    (hi : Roles k h.toWaitHistory q) (hw : Waits k h.toWaitHistory L)
    (hs : machine.step k a k') (hf : Flagged k.toObjects) (hn : NextFree k)
    (hok : a.RestartsFree k) (hl : k'.OnList (.queue q) t)
    (hm : (h.record k a k').sends q t = some message) :
    ∀ m ∈ (h.record k a k').accepted q, m.call < (h.record k a k').since t := by
  intro m hacc
  rcases hq.listed hw hs hf hn hok hl with ⟨hl₀, hkept⟩ | ⟨hsl, -⟩
  · have hm₀ : h.sends q t = some message :=
      (WaitHistory.sends_of_asleep hkept.asleep).symm.trans hm
    change m.call < (h.toWaitHistory.record k a k').since t
    rw [hkept.since]
    rcases ht.mem_accepted hi hacc with hacc | ⟨-, ⟨-, hno⟩ | @⟨t₀, hb, hs₀, hc, hb'⟩⟩
    · exact hfl.before t message hl₀ hm₀ m hacc
    · exact absurd hm₀ (hno t message hl₀)
    · -- `t` is on the list behind the task that is served
      have hne : t ≠ t₀ := fun he => hb' (he ▸ hl)
      rw [hc]
      exact hw.first hb hl₀ hne
  · have hsince : (h.record k a k').since t = h.time := if_pos hsl
    rw [hsince]
    rcases ht.mem_accepted hi hacc with hacc | ⟨hz, -⟩
    · exact hfl.past m hacc
    · exact absurd (hz hsl.1 t hsl.2.1) hsl.2.2

theorem reported_step (hq : QueueStep k q k' a) (ht : Transfer k h.toWaitHistory q k' a)
    (hi : Roles k h.toWaitHistory q) (hd : Dated h.toWaitHistory)
    (hm : (h.record k a k').sends q t = some message) :
    (k'.regs t).r0 = Status.success.code ∧
        ⟨(h.record k a k').since t, message⟩ ∈ (h.record k a k').accepted q ∨
      (k'.regs t).r0 = Status.errorTo.code ∧
        ∀ m ∈ (h.record k a k').accepted q, m.call ≠ (h.record k a k').since t := by
  by_cases hsl : a.Sleeps k k' t
  · -- the call of this step, which is refused for now
    have hsince : (h.record k a k').since t = h.time := if_pos hsl
    have ha : a.target = some (.queue q) :=
      (WaitHistory.pending_sleeps hsl).symm.trans (WaitHistory.pending_of_sends hm)
    obtain ⟨call, -, ⟨_, hb⟩ | hb⟩ := hq.blocks (h := h.toWaitHistory) hsl ha
    all_goals
      refine .inr ⟨hb.refused, fun m hacc => ?_⟩
      rw [hsince]
      rcases ht.mem_accepted hi hacc with hacc | ⟨hz, -⟩
      · exact Nat.ne_of_lt (hfl.past m hacc)
      · exact absurd (hz hsl.1 t hsl.2.1) hsl.2.2
  · have hwk : ¬ a.Wakes k t := fun hwk => by
      have hnone : (h.record k a k').asleep t = none :=
        (if_neg hsl).trans (if_pos hwk)
      exact WaitHistory.asleep_of_sends hm hnone
    have hm₀ : h.sends q t = some message :=
      (WaitHistory.sends_of_asleep (WaitHistory.asleep_record hsl hwk)).symm.trans hm
    have hsince : (h.record k a k').since t = h.since t := WaitHistory.since_record hsl
    have hp := WaitHistory.pending_of_sends hm₀
    have hasleep := WaitHistory.asleep_of_sends hm₀
    rw [hsince]
    have hsame {l : List Sent} (hregs : k'.regs t = k.regs t)
        (hl : ∀ m ∈ l, m.call ≠ h.since t) :
        (k'.regs t).r0 = Status.success.code ∧ ⟨h.since t, message⟩ ∈ h.accepted q ++ l ∨
          (k'.regs t).r0 = Status.errorTo.code ∧
            ∀ m ∈ h.accepted q ++ l, m.call ≠ h.since t := by
      rw [hregs]
      rcases hfl.reported t message hm₀ with ⟨hr, hm⟩ | ⟨hr, hno⟩
      · exact .inl ⟨hr, List.mem_append_left _ hm⟩
      · exact .inr ⟨hr, fun m hm => (List.mem_append.1 hm).elim (hno m) (hl m)⟩
    change _ ∧ _ ∈ h.accepted q ++ _ ∨ _ ∧ ∀ m ∈ h.accepted q ++ _, _
    have hpast : h.time ≠ h.since t := (Nat.ne_of_lt (hd.past t hasleep)).symm
    cases ht with
    | keeps _ hacc _ hx =>
      rw [hacc]
      exact hsame (hx t hp hwk) (by simp)
    | takes _ _ hacc _ hx =>
      rw [hacc]
      exact hsame (hx t hp) (by simp)
    | stores _ _ hacc _ hx =>
      rw [hacc]
      exact hsame (hx t hp) (by simpa using hpast)
    | @hands t₀ _ _ _ hr _ hacc _ hx =>
      have hne : t ≠ t₀ := by
        rintro rfl
        cases (WaitHistory.not_sends hr).symm.trans hm₀
      rw [hacc]
      exact hsame (hx t hp hne) (by simpa using hpast)
    | @refills t₀ _ _ hs₀ _ hacc _ ht₀ _ hx =>
      rw [hacc]
      by_cases he : t = t₀
      · subst he
        cases hs₀.symm.trans hm₀
        exact .inl ⟨ht₀, by simp⟩
      · apply hsame (hx t hp he)
        intro m hm hc
        rw [List.mem_singleton.1 hm] at hc
        exact he (hd.injective t t₀ hasleep (WaitHistory.asleep_of_sends hs₀) hc.symm)

end Flow

theorem Flow.step {h : QueueHistory} (hfl : Flow k h q) (hs : machine.step k a k')
    (hi : Roles k h.toWaitHistory q) (hw : Waiting k h.toWaitHistory) (hd : Dated h.toWaitHistory)
    (hc : Created k) (hok : a.RestartsFree k) (hr : a.RefillsSender k h.toWaitHistory q) :
    Flow k' (h.record k a k') q := by
  obtain ⟨hf, hn, L, hw⟩ := hw
  have hq := Act.queueStep hs hf hn hw.blocked q
  have ht := hq.transfer hi hw hc hs hf hn hr
  exact ⟨hfl.conserved_step ht hi, hfl.order_step ht hi, hfl.past_step ht hi hd,
    fun t message hl hm => hfl.before_step hq ht hi hw hs hf hn hok hl hm,
    fun t message hm => hfl.reported_step hq ht hi hd hm⟩

theorem Flow.init (hk : machine.init k) : Flow k .start q := by
  obtain ⟨b, hb⟩ := hk
  have hu := b.start_unused hb
  have hq : k.queue q = osiQueueCreate (b.queues q) := by
    rw [hu.queue]
    rfl
  constructor
  · rw [hq]
    rfl
  · exact List.Pairwise.nil
  · intro m hm
    cases hm
  · intro t message _ hm
    cases hm
  · intro t message hm
    cases hm

/-- An enqueue that returned reported success exactly when its message was accepted, and that does
not change any more. -/
structure Settled (h : QueueHistory) (q : QueueId) : Prop where
  accepted : ∀ m status, (m, status) ∈ h.reports q →
    (status = Status.success.code ↔ m ∈ h.accepted q)
  past : ∀ p ∈ h.reports q, p.1.call < h.time
  gone : ∀ p ∈ h.reports q, ∀ t, h.asleep t ≠ none → h.since t ≠ p.1.call

section Settled
variable {h : QueueHistory} {m : Sent} {status : Nat}

theorem Settled.mem_step (hst : Settled h q) (ht : Transfer k h.toWaitHistory q k' a)
    (hi : Roles k h.toWaitHistory q) (hm : (m, status) ∈ h.reports q) :
    m ∈ (h.record k a k').accepted q ↔ m ∈ h.accepted q := by
  constructor
  · intro hacc
    rcases ht.mem_accepted hi hacc with hacc | ⟨-, hc | ⟨-, hs, hc, -⟩⟩
    · exact hacc
    · exact absurd hc (Nat.ne_of_lt (hst.past _ hm))
    · exact absurd hc.symm (hst.gone _ hm _ (WaitHistory.asleep_of_sends hs))
  · exact fun hacc => List.mem_append_left _ hacc

theorem Act.mem_returned (hm : (m, status) ∈ a.returned k k' h.toWaitHistory q) :
    (∀ t, ¬ a.Sleeps k k' t) ∧ a.offers q = some m.message ∧ a.report k k' = some status ∧
        m.call = h.time ∨
      a = .contextSwitch ∧ ∃ t, k.scheduled = some t ∧ h.sends q t = some m.message ∧
        m.call = h.since t ∧ status = (k.regs t).r0 := by
  rcases List.mem_append.1 hm with hm | hm
  · apply Or.inl
    split_ifs at hm with hsl
    · cases hm
    · obtain ⟨message, ho, hm⟩ := Option.bind_eq_some_iff.1 (Option.mem_toList.1 hm)
      obtain ⟨s, hs, he⟩ := Option.map_eq_some_iff.1 hm
      cases he
      refine ⟨fun t ht => hsl ?_, ho, hs, rfl⟩
      rw [ht.2.1, Option.any_some]
      exact decide_eq_true ht
  · apply Or.inr
    split_ifs at hm with ha
    · obtain ⟨t, ht, hm⟩ := Option.bind_eq_some_iff.1 (Option.mem_toList.1 hm)
      obtain ⟨message, hs, he⟩ := Option.map_eq_some_iff.1 hm
      cases he
      exact ⟨ha, t, ht, hs, rfl, rfl⟩
    · cases hm

theorem Act.mem_accepts_call (hd : Dated h.toWaitHistory) (ho : a.offers q = some m.message)
    (hc : m.call = h.time) :
    m ∈ a.accepts k k' h.toWaitHistory q ↔ a.report k k' = some Status.success.code := by
  constructor
  · intro hm
    by_contra hs
    rw [Act.accepts_eq fun h => absurd h hs] at hm
    obtain ⟨t, -, ht⟩ := List.mem_filterMap.1 hm
    split_ifs at ht
    obtain ⟨message, hsend, he⟩ := Option.map_eq_some_iff.1 ht
    have hlt := hd.past t (WaitHistory.asleep_of_sends hsend)
    rw [← he] at hc
    exact absurd hc (Nat.ne_of_lt hlt)
  · intro hs
    rw [Act.accepts_offers ho hs, ← hc]
    exact List.mem_cons_self

theorem Settled.returned (hs : machine.step k a k') (hfl : Flow k h q)
    (hd : Dated h.toWaitHistory) (hm : (m, status) ∈ a.returned k k' h.toWaitHistory q) :
    (status = Status.success.code ↔ m ∈ (h.record k a k').accepted q) ∧ m.call ≤ h.time ∧
      ∀ t, (h.record k a k').asleep t ≠ none → (h.record k a k').since t ≠ m.call := by
  rcases Act.mem_returned hm with ⟨hsl, ho, hrep, hc⟩ | ⟨rfl, t, ht, hsend, hc, rfl⟩
  · refine ⟨?_, hc.le, fun t ht => ?_⟩
    · have hold : m ∉ h.accepted q := fun hm => Nat.ne_of_lt (hfl.past m hm) hc
      have hrep' : status = Status.success.code ↔
          a.report k k' = some Status.success.code := by
        rw [hrep, Option.some.injEq]
      rw [hrep', ← Act.mem_accepts_call hd ho hc]
      exact (List.mem_append.trans (or_iff_right hold)).symm
    · rcases WaitHistory.since_asleep ht with ⟨-, hs⟩ | ⟨hs, ht, -⟩
      · exact absurd hs (hsl t)
      · exact fun he => Nat.ne_of_lt (hd.past t ht) (hs.symm.trans (he.trans hc))
  · have hasleep := WaitHistory.asleep_of_sends hsend
    have hregs : k'.regs = k.regs := by
      cases hs.2
      rfl
    have hacc : Act.contextSwitch.accepts k k' h.toWaitHistory q = [] := by
      rw [Act.accepts_eq fun _ => rfl]
      apply Act.completed_nil
      rintro x ⟨-, -, hne, he⟩
      exact absurd (hregs ▸ he) hne
    have hsame : (h.record k .contextSwitch k').accepted q = h.accepted q := by
      change h.accepted q ++ _ = _
      rw [hacc, List.append_nil]
    refine ⟨?_, ?_, fun x hx => ?_⟩
    · rw [hsame]
      rcases hfl.reported t m.message hsend with ⟨hr, hm⟩ | ⟨hr, hno⟩
      · rw [← hc] at hm
        exact iff_of_true hr hm
      · refine iff_of_false ?_ fun hm => hno m hm hc
        rw [hr]
        decide
    · rw [hc]
      exact (hd.past t hasleep).le
    · rcases WaitHistory.since_asleep hx with ⟨-, hs⟩ | ⟨hs, hx, hwk⟩
      · cases hs.1
      · intro he
        have hxt := hd.injective x t hx hasleep (hs.symm.trans (he.trans hc))
        exact hwk (hxt ▸ ht)

theorem Settled.step (hst : Settled h q) (hs : machine.step k a k') (hfl : Flow k h q)
    (ht : Transfer k h.toWaitHistory q k' a) (hi : Roles k h.toWaitHistory q)
    (hd : Dated h.toWaitHistory) : Settled (h.record k a k') q := by
  constructor
  · intro m status hm
    rcases List.mem_append.1 hm with hm | hm
    · rw [hst.mem_step ht hi hm]
      exact hst.accepted m status hm
    · exact (Settled.returned hs hfl hd hm).1
  · intro p hp
    change _ < h.time + 1
    rcases List.mem_append.1 hp with hp | hp
    · exact Nat.lt_succ_of_lt (hst.past p hp)
    · exact Nat.lt_succ_of_le (Settled.returned hs hfl hd hp).2.1
  · intro p hp t hasleep
    rcases List.mem_append.1 hp with hp | hp
    · rcases WaitHistory.since_asleep hasleep with ⟨hs, -⟩ | ⟨hs, hasleep, -⟩
      · exact fun he => Nat.ne_of_lt (hst.past p hp) (he.symm.trans hs)
      · exact fun he => hst.gone p hp t hasleep (hs.symm.trans he)
    · exact (Settled.returned hs hfl hd hp).2.2 t hasleep

theorem Settled.start : Settled .start q := by
  constructor
  · intro m status hm
    cases hm
  · intro p hp
    cases hp
  · intro p hp
    cases hp

end Settled

def queueMachine : System (Kernel × QueueHistory) Act :=
  machine.withHistory .start QueueHistory.record

structure Queueing (k : Kernel) (h : WaitHistory) (q : QueueId) : Prop where
  waiting : Waiting k h
  dated : Dated h
  roles : 0 < (k.queue q).size → Roles k h q

theorem Queueing.size {h : WaitHistory} (hi : Queueing k h q) (hs : machine.step k a k') :
    (k'.queue q).flags = (k.queue q).flags ∧ (k'.queue q).size = (k.queue q).size := by
  obtain ⟨hf, hn, L, hw⟩ := hi.waiting
  exact (Act.queueStep hs hf hn hw.blocked q).config

theorem reach_queueing {ok : Kernel × QueueHistory → Act → Prop} {h : QueueHistory}
    (hreach : queueMachine.Reach ok (k, h)) (hok : ∀ p a, ok p a → a.RestartsFree p.1) :
    Queueing k h.toWaitHistory q := by
  apply System.Reach.history_invariant (J := fun k h => Queueing k h.toWaitHistory q) hreach
  · exact fun k hk => ⟨.init hk, .start, fun hsize => .init hk hsize⟩
  · intro k h a k' _ hi ha hs
    have hfree := hok _ _ ha
    constructor
    · exact hi.waiting.step hs hfree
    · exact hi.dated.step
    · intro hsize
      rw [(hi.size hs).2] at hsize
      exact (hi.roles hsize).step hs hi.waiting hfree

def RefillsInOrder (q : QueueId) (p : Kernel × QueueHistory) (a : Act) : Prop :=
  a.RestartsFree p.1 ∧ a.RefillsSender p.1 p.2.toWaitHistory q

theorem reach_flow {h : QueueHistory} (hreach : queueMachine.Reach (RefillsInOrder q) (k, h))
    (hsize : 0 < (k.queue q).size) : Flow k h q ∧ Settled h q := by
  have hinv : 0 < (k.queue q).size → Flow k h q ∧ Settled h q := by
    apply System.Reach.history_invariant
      (J := fun k h => 0 < (k.queue q).size → Flow k h q ∧ Settled h q) hreach
    · exact fun k hk _ => ⟨.init hk, .start⟩
    · intro k h a k' hreach hi ha hs hsize
      have hqueue := reach_queueing (q := q) hreach fun _ _ h => h.1
      have hc : Created k := reach_created hreach.forget
      rw [(hqueue.size hs).2] at hsize
      have hroles := hqueue.roles hsize
      obtain ⟨hf, hn, L, hw⟩ := id hqueue.waiting
      obtain ⟨hfl, hst⟩ := hi hsize
      have ht := (Act.queueStep hs hf hn hw.blocked q).transfer hroles hw hc hs hf hn ha.2
      exact ⟨hfl.step hs hroles hqueue.waiting hqueue.dated hc ha.1 ha.2,
        hst.step hs hfl ht hroles hqueue.dated⟩
  exact hinv hsize

theorem Roles.refillsSender (hi : Roles k h q) (hflags : (k.queue q).flags &&& queueOnly = 0) :
    a.RefillsSender k h q := by
  intro _ hn _ t hb hr
  have hempty := (hi.receivers t (Objects.onList_of_blocked hb) hr hflags).2
  omega

/-- Every run of such a queue takes its refills from senders. -/
theorem reach_refillsInOrder {p : Kernel × QueueHistory}
    (hreach : queueMachine.Reach (fun p a => a.RestartsFree p.1) p)
    (hflags : (p.1.queue q).flags &&& queueOnly = 0) (hsize : 0 < (p.1.queue q).size) :
    queueMachine.Reach (RefillsInOrder q) p := by
  induction hreach with
  | init h => exact .init h
  | @step p p' a hreach hok hs ih =>
    have hqueue : Queueing p.1 p.2.toWaitHistory q := reach_queueing hreach fun _ _ h => h
    obtain ⟨hflags', hsize'⟩ := hqueue.size hs.1
    rw [hflags'] at hflags
    rw [hsize'] at hsize
    exact .step (ih hflags hsize) ⟨hok, (hqueue.roles hsize).refillsSender hflags⟩ hs

/-- What a queue delivered is what was passed to enqueues that report success, in the order of their
calls. -/
structure Exchange (k : Kernel) (h : QueueHistory) (q : QueueId) : Prop where
  delivered : h.delivered q <+: (h.accepted q).map Sent.message
  order : (h.accepted q).Pairwise fun m m' => m.call < m'.call
  waiting : ∀ t message, h.sends q t = some message →
    (k.regs t).r0 = Status.success.code ∧ ⟨h.since t, message⟩ ∈ h.accepted q ∨
      (k.regs t).r0 = Status.errorTo.code ∧ ∀ m ∈ h.accepted q, m.call ≠ h.since t
  reports : ∀ m status, (m, status) ∈ h.reports q →
    (status = Status.success.code ↔ m ∈ h.accepted q)

theorem reach_exchange {h : QueueHistory} (hreach : queueMachine.Reach (RefillsInOrder q) (k, h))
    (hsize : 0 < (k.queue q).size) : Exchange k h q := by
  obtain ⟨hflow, hst⟩ := reach_flow hreach hsize
  constructor
  · rw [hflow.conserved]
    exact List.prefix_append _ _
  · exact hflow.order
  · exact hflow.reported
  · exact hst.accepted

/-- A queue of `n` messages as a FIFO. -/
structure BoundedFifo (k : Kernel) (h : QueueHistory) (q : QueueId) (n : Nat) : Prop
    extends Exchange k h q where
  first_lt : (k.queue q).first < n
  last_lt : (k.queue q).last < n
  number_le : (k.queue q).number ≤ n
  first_eq : (k.queue q).first = ((k.queue q).last + (k.queue q).number) % n
  roles : k.blocked (.queue q) ≠ none →
    (∀ t, k.OnList (.queue q) t → h.Receives q t) ∧ (k.queue q).number = 0 ∨
      (∀ t, k.OnList (.queue q) t → (h.sends q t).isSome) ∧ (k.queue q).number = n

theorem Roles.separate (hi : Roles k h q) (hw : Waits k h L)
    (hflags : (k.queue q).flags &&& queueOnly = 0) (hb : k.blocked (.queue q) ≠ none) :
    (∀ t, k.OnList (.queue q) t → h.Receives q t) ∧ (k.queue q).number = 0 ∨
      (∀ t, k.OnList (.queue q) t → (h.sends q t).isSome) ∧
        (k.queue q).number = (k.queue q).size := by
  obtain ⟨t, hb⟩ := Option.ne_none_iff_exists'.1 hb
  have hl : k.OnList (.queue q) t := Objects.onList_of_blocked hb
  have hcases {x : TaskId} (hx : k.OnList (.queue q) x) :=
    WaitHistory.sends_or_receives (hw.pending_of_onList hx)
  have hpos := hi.ring.size_pos
  rcases hcases hl with ⟨message, hs⟩ | hr
  · obtain ⟨hst, hnum, -⟩ := hi.senders t message hl hs
    refine .inr ⟨fun x hx => ?_, hnum⟩
    rcases hcases hx with ⟨message, hs⟩ | hr
    · rw [hs]
      rfl
    · cases hst.symm.trans (hi.receivers x hx hr hflags).1
  · obtain ⟨hst, hnum⟩ := hi.receivers t hl hr hflags
    refine .inl ⟨fun x hx => ?_, hnum⟩
    rcases hcases hx with ⟨message, hs⟩ | hr
    · cases hst.symm.trans (hi.senders x message hx hs).1
    · exact hr

/-- In every run, a queue created with `OS_QUEUE_FLAGS_NONE` is a bounded FIFO. -/
theorem reach_boundedFifo {h : QueueHistory}
    (hreach : queueMachine.Reach (fun p a => a.RestartsFree p.1) (k, h))
    (hflags : (k.queue q).flags &&& queueOnly = 0) (hsize : 0 < (k.queue q).size) :
    BoundedFifo k h q (k.queue q).size := by
  have hqueue := reach_queueing (q := q) hreach fun _ _ h => h
  have hroles := hqueue.roles hsize
  obtain ⟨-, -, L, hw⟩ := hqueue.waiting
  obtain ⟨-, -, hfirst, hlast, hnum, hring⟩ := hroles.ring
  have hexchange := reach_exchange (reach_refillsInOrder hreach hflags hsize) hsize
  exact ⟨hexchange, hfirst, hlast, hnum, hring, hroles.separate hw hflags⟩

set_option maxRecDepth 10000 in
theorem boundedFifo_after_refill : ∃ (k : Kernel) (h : QueueHistory),
    (k.queue 0).contents = [6, 7] ∧ (k.regs 2).r1 = 5 ∧ (k.regs 1).r0 = Status.success.code ∧
      BoundedFifo k h 0 (k.queue 0).size := by
  obtain ⟨k, hk, hc, hr1, hr0, hflags, hsize⟩ := (Boot.simple [0, 16, 16] (by simp)).exists_after
    (fun _ a => ¬ a.restarts)
    (fun k => (k.queue 0).contents = [6, 7] ∧ (k.regs 2).r1 = 5 ∧
      (k.regs 1).r0 = Status.success.code ∧ (k.queue 0).flags &&& queueOnly = 0 ∧
        0 < (k.queue 0).size)
    [.schedule, .contextSwitch, .svc (.queueEnqueue 0 5 0), .svc (.queueEnqueue 0 6 0),
      .svc (.queueEnqueue 0 7 uint32Max), .contextSwitch, .svc (.queueDequeue 0 0)] (by decide)
  have hhist : ∃ h, queueMachine.Reach (fun p a => a.RestartsFree p.1) (k, h) :=
    hk.exists_history fun k _ a _ hra => .of_not_restarts hra
  obtain ⟨h, hh⟩ := hhist
  exact ⟨k, h, hc, hr1, hr0, reach_boundedFifo hh hflags hsize⟩

end Osh
