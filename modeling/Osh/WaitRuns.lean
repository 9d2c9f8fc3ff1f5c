import Osh.BootSpec
import Osh.Frames

namespace Osh
open Function (update)
open Lib

variable {k k' k₁ : Kernel} {s : Sched} {t x : TaskId} {o o' : Objects} {w : Waitable} {a : Act}
  {L : Waitable → List TaskId}

/-- The scheduler dispatched at most one task. -/
inductive Switched (k k' : Kernel) : Prop
  | same (ho : k'.toObjects = k.toObjects) (hr : k'.running = k.running)
    (hs : k'.scheduled = k.scheduled)
  | dispatched {x : TaskId} (hd : Detaches k.toObjects x k'.toObjects) (hne : k.running ≠ some x)
    (hr : k'.running = k.running) (hs : k'.scheduled = some x)

theorem Dispatches.switched (h : Dispatches k x k') : Switched k k' := by
  refine .dispatched ?_ h.running_ne h.running h.scheduled
  obtain ⟨running, o, s, -, -, ho, -, rfl⟩ := h
  exact ⟨_, o, ho, rfl⟩

theorem osiSchedule_switched (h : osiSchedule k = .ok k') : Switched k k' := by
  rcases osiSchedule_cases h with rfl | ⟨running, s, new, -, -, -, hw, -, ⟨-, rfl⟩ | ⟨t, -, hd⟩⟩
  · exact .same rfl rfl rfl
  · have hs := wakeLoop_rethreaded hw
    exact .same rfl hs.running hs.scheduled
  · have hs := wakeLoop_rethreaded hw
    have hrun : s.running = k.running := hs.running
    cases hd.switched with
    | same ho hr hs' => exact .same ho (hr.trans hrun) (hs'.trans hs.scheduled)
    | dispatched hd hne hr hs' =>
      exact .dispatched hd (fun he => hne (hrun.trans he)) (hr.trans hrun) hs'

theorem Reschedules.switched (h : Reschedules k s k') (hr : s.running = k.running)
    (hs : s.scheduled = k.scheduled) : Switched k k' := by
  rcases h with ⟨-, h⟩ | ⟨-, rfl⟩
  · cases osiSchedule_switched h with
    | same ho hr' hs' => exact .same ho (hr'.trans hr) (hs'.trans hs)
    | dispatched hd hne hr' hs' =>
      exact .dispatched hd (fun he => hne (hr.trans he)) (hr'.trans hr) hs'
  · exact .same rfl hr hs

theorem osiDispatchOrQueue_switched (h : osiDispatchOrQueue k t = .ok k') : Switched k k' := by
  rcases osiDispatchOrQueue_cases h with ⟨-, s, hs, hr⟩ | ⟨-, hd⟩
  · unfold MakesRunnable at hs
    split_ifs at hs
    · subst hs
      exact hr.switched rfl rfl
    · have hs' := osiTaskStatusSet_rethreaded hs
      exact hr.switched hs'.running hs'.scheduled
  · rcases osiDispatch_eq_ok.1 hd with ⟨-, rfl⟩ | hd
    · exact .same rfl rfl rfl
    · exact hd.switched

theorem svcDelay_switched {ms : Nat} (h : svcDelay k ms = .ok k') (hn : k.scheduled = none) :
    ∃ x, Detaches k.toObjects x k'.toObjects ∧ k.running ≠ some x ∧ k'.running = k.running ∧
      k'.scheduled = some x := by
  obtain ⟨running, delay, s, -, -, hset, hr, hne⟩ := svcDelay_cases h
  have hs := osiTaskStatusSet_rethreaded hset
  cases hr.switched hs.running hs.scheduled with
  | same ho hr hs => exact absurd (hs.trans hn) hne
  | dispatched hd hne hr hs => exact ⟨_, hd, hne, hr, hs⟩

theorem svcAbort_switched (h : svcAbort k = .ok k') (hn : k.scheduled = none) :
    ∃ x, Detaches k.toObjects x k'.toObjects ∧ k.running ≠ some x ∧ k'.running = k.running ∧
      k'.scheduled = some x := by
  obtain ⟨running, s, -, hset, hr, hne⟩ := svcAbort_cases h
  have hs := osiTaskStatusSet_rethreaded hset
  cases hr.switched hs.running hs.scheduled with
  | same ho hr hs => exact absurd (hs.trans hn) hne
  | dispatched hd hne hr hs => exact ⟨_, hd, hne, hr, hs⟩

def NextFree (k : Kernel) : Prop :=
  ∀ t, k.next = some t → k.flags t = 0

def Objects.OnList (o : Objects) (w : Waitable) (t : TaskId) : Prop :=
  ∃ pre, Segment o.nblocked (o.blocked w) pre (some t)

theorem Objects.onList_of_blocked (h : o.blocked w = some t) : o.OnList w t := ⟨[], h⟩

theorem Objects.not_onList (h : o.blocked w = none) : ¬ o.OnList w t := by
  rintro ⟨pre, hp⟩
  rw [h] at hp
  cases pre <;> simp [Segment] at hp

theorem BlockedInv.mem_iff (hi : BlockedInv o L) : t ∈ L w ↔ o.OnList w t :=
  (hi.lists.chain w).mem_iff

theorem Act.onList_of_grantee (h : a.grantee o = some t) :
    ∃ w, a.target = some w ∧ o.OnList w t := by
  cases a <;> simp only [Act.grantee, reduceCtorEq] at h
  case svc call =>
    cases call <;> simp only [Svc.grantee, reduceCtorEq] at h
    case mutexRelease m =>
      split_ifs at h
      exact ⟨.mutex m, rfl, [], h⟩
    case semaphoreRelease s => exact ⟨.semaphore s, rfl, [], h⟩
    case queueEnqueue q _ _ | queueDequeue q _ =>
      split_ifs at h
      exact ⟨.queue q, rfl, [], h⟩
    case rwlockRelease l => exact ⟨.rwlock l, rfl, [], (Objects.nextWriter_eq_some.1 h).1⟩
  case enqueueIsr q message =>
    split_ifs at h
    exact ⟨.queue q, rfl, [], h⟩

theorem Act.onList_of_grantsReader (h : a.GrantsReader o t) :
    ∃ w, a.target = some w ∧ o.OnList w t := by
  cases a <;> try exact h.elim
  case svc call =>
    cases call <;> try exact h.elim
    case rwlockRelease l =>
      obtain ⟨-, pre, hf⟩ := h
      exact ⟨.rwlock l, rfl, pre, hf.path⟩

/-- A step restarts only tasks that are on no blocked list. -/
def Act.RestartsFree (k : Kernel) : Act → Prop
  | .taskStart t _ _ => ∀ w, ¬ k.OnList w t
  | _ => True

theorem Act.RestartsFree.of_not_restarts (h : ¬ a.restarts) : a.RestartsFree k := by
  cases a with
  | taskStart => exact absurd rfl h
  | _ => trivial

inductive WaitEdit (k : Kernel) : Act → Objects → Prop
  | same {a : Act} {o : Objects} (h : Quiet a.target (a.Touches k) k.toObjects o) : WaitEdit k a o
  | grant {a : Act} {o : Objects} {w : Waitable} {pre : List TaskId} {t : TaskId}
    (ht : a.target = some w) (hp : Segment k.nblocked (k.blocked w) pre (some t))
    (h : Quiet a.target (a.Touches k) (k.toObjects.unlink w pre.getLast? t) o) : WaitEdit k a o
  | restart {t : TaskId} {priority params : Nat} :
    WaitEdit k (.taskStart t priority params) (k.toObjects.restarted t params)

/-- What an action does to the objects and to the next task. -/
inductive WaitEffect (k k' : Kernel) : Act → Prop
  | edit {a : Act} {o : Objects} {k₁ : Kernel} (he : WaitEdit k a o)
    (hs : Switched { k with toObjects := o } k₁)
    (hw : Quiet a.target (a.Touches k) k₁.toObjects k'.toObjects)
    (hr : k'.running = k₁.running) (hs' : k'.scheduled = k₁.scheduled) : WaitEffect k k' a
  | block {call : Svc} {w : Waitable} {t x : TaskId} {o₀ o o₁ : Objects}
    (ht : call.target = some w) (hn : k.scheduled = none) (hr : k.running = some t)
    (h₀ : Quiet call.target ((Act.svc call).Touches k) k.toObjects o₀) (hb : Blocks o₀ w t o)
    (hd : Detaches o x o₁) (hne : t ≠ x)
    (hw : Quiet call.target ((Act.svc call).Touches k) o₁ k'.toObjects)
    (hr' : k'.running = some t) (hs' : k'.scheduled = some x) : WaitEffect k k' (.svc call)
  | contextSwitch (ho : k'.toObjects = k.toObjects) (hr : k'.running = k.scheduled)
    (hs : k'.scheduled = none) : WaitEffect k k' .contextSwitch

theorem WaitEffect.same (ho : Quiet a.target (a.Touches k) k.toObjects k'.toObjects)
    (hr : k'.running = k.running) (hs : k'.scheduled = k.scheduled) : WaitEffect k k' a :=
  .edit (.same .refl) (.same rfl rfl rfl) ho hr hs

theorem WaitEffect.switched (h : Switched k k') : WaitEffect k k' a :=
  .edit (.same .refl) h .refl rfl rfl

section Call
variable {call : Svc} {v : StackedRegs}

/-- The state when a call of `t` that ended in `k₁` has stored its result. -/
def Kernel.answered (k : Kernel) (t : TaskId) (v : StackedRegs) : Kernel :=
  { k with regs := update k.regs t v }

theorem Quiet.answered (hr : k.running = some t) :
    Quiet call.target ((Act.svc call).Touches k) k₁.toObjects (k₁.answered t v).toObjects :=
  .setRegs (.inl hr) v

theorem WaitEffect.keeps (hr : k.running = some t)
    (ho : Quiet call.target ((Act.svc call).Touches k) k.toObjects o) :
    WaitEffect k (Kernel.answered { k with toObjects := o } t v) (.svc call) :=
  .same (ho.trans (.setRegs (.inl hr) v)) rfl rfl

theorem WaitEffect.sleeps (hr : k.running = some t) (hd : Detaches k.toObjects x k₁.toObjects)
    (hne : k.running ≠ some x) (hr' : k₁.running = k.running) (hs : k₁.scheduled = some x) :
    WaitEffect k (k₁.answered t v) (.svc call) :=
  .edit (.same .refl) (.dispatched hd hne hr' hs) (.answered hr) rfl rfl

theorem WaitEffect.blocks {timeout : Nat} (hr : k.running = some t) (hn : k.scheduled = none)
    (h : Osh.block { k with toObjects := o } w t timeout = .ok k₁)
    (ho : Quiet call.target ((Act.svc call).Touches k) k.toObjects o) (ht : call.target = some w) :
    WaitEffect k (k₁.answered t v) (.svc call) := by
  obtain ⟨o₁, ho₁, hd⟩ := (block_eq_ok (k := { k with toObjects := o }) hr).1 h
  obtain ⟨x, hdet, hne, hrun, hsched⟩ := svcDelay_switched hd hn
  exact .block ht hn hr ho ⟨_, o₁, ho₁, rfl⟩ hdet (fun he => hne (hr.trans (congrArg some he)))
    (.answered hr) (hrun.trans hr) hsched

theorem WaitEffect.grants {y : TaskId} (hr : k.running = some t)
    (h : osiDispatchOrQueue { k with toObjects := o } y = .ok k₁) (hb : k.blocked w = some y)
    (ho : Quiet call.target ((Act.svc call).Touches k) (k.toObjects.unlink w none y) o)
    (ht : call.target = some w) : WaitEffect k (k₁.answered t v) (.svc call) := by
  have hp : Segment k.nblocked (k.blocked w) [] (some y) := hb
  exact .edit (.grant ht hp ho) (osiDispatchOrQueue_switched h) (.answered hr) rfl rfl

theorem Svc.call_waits {status : Status} {value : Option Nat} (hr : k.running = some t)
    (hn : k.scheduled = none) (h : call.call k = .ok (k₁, status, value)) :
    WaitEffect k (k₁.answered t v) (.svc call) := by
  have htask {task : TaskId} (h : k.running = some task) : task = t :=
    Option.some.inj (h.symm.trans hr)
  cases call <;> simp only [Svc.call, bind_eq_ok, pure_eq_ok, Prod.mk.injEq, Prod.exists] at h
  case delay ms =>
    obtain ⟨k₂, h, rfl, -⟩ := h
    obtain ⟨x, hd, hne, hr', hs'⟩ := svcDelay_switched h hn
    exact .sleeps hr hd hne hr' hs'
  case abort =>
    obtain ⟨k₂, h, rfl, -⟩ := h
    obtain ⟨x, hd, hne, hr', hs'⟩ := svcAbort_switched h hn
    exact .sleeps hr hd hne hr' hs'
  case mutexAcquire m timeout =>
    obtain ⟨k₂, st, h, rfl, -⟩ := h
    obtain ⟨task, hrun, hc⟩ := osiMutexAcquire_cases h
    obtain rfl := htask hrun
    cases hc with
    | free | again => exact .keeps hr (.setMutex _ _)
    | full | busy => exact .keeps hr .refl
    | blocks _ _ hb => exact .blocks hr hn hb .refl rfl
  case mutexRelease m =>
    obtain ⟨k₂, st, h, rfl, -⟩ := h
    obtain ⟨-, task, -, -, hc⟩ := osiMutexRelease_cases h
    cases hc with
    | nested | free => exact .keeps hr (.setMutex _ _)
    | grant hl _ hb _ hd =>
      exact .grants hr hd hb (.grantMutex (.inr (.inl (by simp [Svc.grantee, hl, hb])))) rfl
  case semaphoreAcquire s timeout =>
    obtain ⟨k₂, st, h, rfl, -⟩ := h
    obtain ⟨task, hrun, hc⟩ := osiSemaphoreAcquire_cases h
    obtain rfl := htask hrun
    cases hc with
    | free => exact .keeps hr (.setTokens _)
    | busy => exact .keeps hr .refl
    | blocks _ hb => exact .blocks hr hn hb .refl rfl
  case semaphoreRelease s =>
    obtain ⟨k₂, st, h, rfl, -⟩ := h
    obtain ⟨-, hc⟩ := osiSemaphoreRelease_cases h
    cases hc with
    | free => exact .keeps hr (.setTokens _)
    | grant hb _ hd => exact .grants hr hd hb (.grantSemaphore (.inr (.inl hb))) rfl
  case queueEnqueue q message timeout =>
    obtain ⟨k₂, st, h, rfl, -⟩ := h
    obtain ⟨task, hrun, -, hc⟩ := osiQueueEnqueue_cases h
    obtain rfl := htask hrun
    cases hc with
    | send hh hsend =>
      obtain ⟨y, hb, -, hd⟩ := hsend
      refine .grants hr hd hb (.sendQueue (.inr (.inl ?_)) message) rfl
      simp only [Svc.grantee, if_pos hh, hb]
    | full => exact .keeps hr .refl
    | store => exact .keeps hr (.setQueue _)
    | blocks _ _ hb => exact .blocks hr hn hb ((Quiet.setQueue _).trans (.setC (.inl hr) _)) rfl
  case queueDequeue q timeout =>
    obtain ⟨k₂, st, r, h, rfl, -⟩ := h
    obtain ⟨task, hrun, -, hc⟩ := osiQueueDequeue_cases h
    obtain rfl := htask hrun
    cases hc with
    | take => exact .keeps hr (.setQueue _)
    | refill hn' hst hrec =>
      obtain ⟨y, hb, -, hd⟩ := hrec
      have hb' : k.blocked (.queue q) = some y := hb
      refine .grants hr hd hb ((Quiet.setQueue _).unlink.trans (.receiveQueue (.inr (.inl ?_)))) rfl
      simp only [Svc.grantee, if_pos (And.intro hn' hst), hb']
    | empty => exact .keeps hr .refl
    | blocks _ hb => exact .blocks hr hn hb (.setQueue _) rfl
  case rwlockAcquireRead l timeout =>
    obtain ⟨k₂, st, h, rfl, -⟩ := h
    obtain ⟨task, hrun, hc⟩ := osiRwlockAcquireRead_cases h
    obtain rfl := htask hrun
    cases hc with
    | free => exact .keeps hr (.setRwlock _)
    | busy => exact .keeps hr .refl
    | blocks _ hb => exact .blocks hr hn hb (.setC (.inl hr) _) rfl
  case rwlockAcquireWrite l timeout =>
    obtain ⟨k₂, st, h, rfl, -⟩ := h
    obtain ⟨task, hrun, hc⟩ := osiRwlockAcquireWrite_cases h
    obtain rfl := htask hrun
    cases hc with
    | free => exact .keeps hr (.setRwlock _)
    | busy => exact .keeps hr .refl
    | blocks _ hb => exact .blocks hr hn hb (.setC (.inl hr) _) rfl
  case rwlockRelease l =>
    obtain ⟨k₂, st, h, rfl, -⟩ := h
    obtain ⟨-, task, -, -, -, hc⟩ := osiRwlockRelease_cases h
    cases hc with
    | free | skip => exact .keeps hr (.setRwlock _)
    | write hw hd =>
      refine .grants hr hd (Objects.nextWriter_eq_some.1 hw).1 ?_ rfl
      exact (Quiet.setRwlock _).unlink.trans (.grantWrite (.inr (.inl hw)))
    | @read pre y s hw hf hset =>
      have hset' := osiTaskStatusSet_rethreaded hset
      have hsw : Switched { k with toObjects := (k.dropRwlock l).grantRead l pre.getLast? y }
          { toSched := s, toObjects := (k.dropRwlock l).grantRead l pre.getLast? y } :=
        .same rfl hset'.running hset'.scheduled
      refine .edit (.grant rfl hf.path ?_) hsw (.setRegs (.inl hr) v) rfl rfl
      exact (Quiet.setRwlock _).unlink.trans (.grantRead (.inr (.inr ⟨hw, pre, hf⟩)))

end Call

theorem osTaskStartOptions_objects {priority params : Nat}
    (h : osTaskStartOptions k t priority params = .ok k') :
    k'.toObjects = k.toObjects.restarted t params := by
  simp only [osTaskStartOptions, bind_eq_ok, osAssert_eq_ok, pure_eq_ok] at h
  obtain ⟨_, -, o, ho, s₁, -, s₂, -, s₃, -, rfl⟩ := h
  rw [initializeStack_cases ho]
  simp [Objects.restarted]

/-- Every step of the machine has one of these effects. -/
theorem Act.run_waits (he : a.Enabled k) (h : a.run k = .ok k') : WaitEffect k k' a := by
  cases a <;> simp only [Act.run, bind_eq_ok, pure_eq_ok] at h
  case svc call =>
    simp only [svcHandler, bind_eq_ok, pure_eq_ok, Prod.exists] at h
    obtain ⟨caller, hr, k₁, status, value, h, rfl⟩ := h
    exact Svc.call_waits (Kernel.self_eq_ok.1 hr) he h
  case taskFinished =>
    obtain ⟨s, h, rfl⟩ := h
    obtain ⟨running, -, -, h⟩ := taskFinished_cases h
    have hs := osiTaskStatusSet_rethreaded h
    exact .same .refl hs.running hs.scheduled
  case taskStart t priority params =>
    have hs := osTaskStartOptions_rethreaded h
    have ho := osTaskStartOptions_objects h
    have hsw : Switched { k with toObjects := k.toObjects.restarted t params } k' :=
      .same ho hs.running hs.scheduled
    exact .edit .restart hsw .refl rfl rfl
  case taskSuspend t =>
    obtain ⟨s, h, rfl⟩ := h
    simp only [osTaskSuspend, bind_eq_ok, osAssert_eq_ok] at h
    obtain ⟨_, -, h⟩ := h
    have hs := osiTaskStatusSet_rethreaded h
    exact .same .refl hs.running hs.scheduled
  case taskResume t =>
    obtain ⟨s, h, rfl⟩ := h
    simp only [osTaskResume, bind_eq_ok, osAssert_eq_ok] at h
    obtain ⟨_, -, h⟩ := h
    have hs := osiTaskStatusSet_rethreaded h
    exact .same .refl hs.running hs.scheduled
  case systick =>
    unfold osiIrsSystick at h
    split_ifs at h
    · exact .switched (osiSchedule_switched h)
    · cases h
      exact .same .refl rfl rfl
  case schedule => exact .switched (osiSchedule_switched h)
  case enqueueIsr q message =>
    simp only [Prod.exists] at h
    obtain ⟨k₁, status, h, rfl⟩ := h
    cases osiQueueEnqueueIsr_cases h with
    | send hh hs =>
      obtain ⟨t, hb, -, hd⟩ := hs
      have hp : Segment k.nblocked (k.blocked (.queue q)) [] (some t) := hb
      refine .edit (.grant rfl hp (.sendQueue ?_ message)) (osiDispatchOrQueue_switched hd) .refl
        rfl rfl
      simp only [Act.Touches, Act.grantee, if_pos hh, hb]
    | full => exact .same .refl rfl rfl
    | store => exact .same (.setQueue _) rfl rfl
  case contextSwitch =>
    cases h
    exact .contextSwitch rfl rfl rfl
  case clock uptime micros =>
    cases h
    exact .same .refl rfl rfl

theorem WaitEdit.flagged (h : WaitEdit k a o) (hf : Flagged k.toObjects) : Flagged o := by
  cases h with
  | same h => exact hf.of_same h.toSameWaits
  | grant _ _ h => exact hf.unlink h.toSameWaits
  | restart => exact hf.restarted _

theorem WaitEdit.flags (h : WaitEdit k a o) (ht : k.flags t = 0) : o.flags t = 0 := by
  cases h with
  | same h | grant _ _ h =>
    rw [h.flags]
    exact ht
  | restart =>
    simp only [Objects.restarted, Function.update_apply, ht, ite_self]

theorem Detaches.flags_self (hf : Flagged o) (h : Detaches o t o') : o'.flags t = 0 := by
  rw [(h.fields hf).1]
  exact Function.update_self ..

theorem WaitEffect.flagged (h : WaitEffect k k' a) (hf : Flagged k.toObjects) (hn : NextFree k) :
    Flagged k'.toObjects ∧ NextFree k' := by
  cases h with
  | edit he hs hw hr hs' =>
    have hf₁ := he.flagged hf
    cases hs with
    | same ho hrun hsched =>
      rw [ho] at hw
      constructor
      · exact hf₁.of_same hw.toSameWaits
      · intro t ht
        rw [hw.flags]
        refine he.flags (hn t ?_)
        rw [← ht, Sched.next, Sched.next, hr, hs', hrun, hsched]
    | dispatched hd _ _ hsched =>
      constructor
      · exact (hd.flagged hf₁).of_same hw.toSameWaits
      · intro t ht
        rw [next_of_scheduled (hs'.trans hsched)] at ht
        cases ht
        rw [hw.flags]
        exact hd.flags_self hf₁
  | block _ hs hr h₀ hb hd _ hw _ hs' =>
    have hz := hn _ ((next_of_none hs).trans hr)
    have hf₁ := hb.flagged (hf.of_same h₀.toSameWaits) (by rw [h₀.flags]; exact hz)
    constructor
    · exact (hd.flagged hf₁).of_same hw.toSameWaits
    · intro t ht
      rw [next_of_scheduled hs'] at ht
      cases ht
      rw [hw.flags]
      exact hd.flags_self hf₁
  | contextSwitch ho hr hs =>
    rw [ho]
    constructor
    · exact hf
    · intro t ht
      rw [next_of_none hs, hr] at ht
      rw [ho]
      exact hn t (next_of_scheduled ht)

/-- How an action changes the blocked lists before the scheduler is entered. A caller that joins no
list is not blocked afterwards. -/
inductive Relists (k k' : Kernel) (L : Waitable → List TaskId) :
    Act → (Waitable → List TaskId) → Prop
  | same {a : Act} (hf : a.isCall → ∀ t, k.running = some t → k'.flags t = 0) :
    Relists k k' L a L
  | leave {a : Act} {w : Waitable} {pre post : List TaskId} {t : TaskId}
    (hf : a.isCall → ∀ t, k.running = some t → k'.flags t = 0)
    (ht : a.target = some w) (hw : L w = pre ++ t :: post) :
    Relists k k' L a (update L w (pre ++ post))
  | join {call : Svc} {w : Waitable} {t x : TaskId} (ht : call.target = some w)
    (hr : k.running = some t) (hs : k'.scheduled = some x) (hne : t ≠ x) :
    Relists k k' L (.svc call) (update L w (L w ++ [t]))

theorem Relists.mem {L' : Waitable → List TaskId} (h : Relists k k' L a L') (hx : x ∈ L' w) :
    x ∈ L w ∨ a.isCall ∧ a.target = some w ∧ k.running = some x := by
  cases h with
  | same => exact .inl hx
  | @leave _ w' pre post t _ ht hw =>
    by_cases he : w = w'
    · subst he
      rw [Function.update_self] at hx
      rw [hw]
      simp only [List.mem_append, List.mem_cons] at hx ⊢
      tauto
    · exact .inl (by rwa [Function.update_of_ne he] at hx)
  | @join call w' t _ ht hr =>
    by_cases he : w = w'
    · subst he
      rw [Function.update_self, List.mem_append, List.mem_singleton] at hx
      rcases hx with hx | rfl
      · exact .inl hx
      · exact .inr ⟨rfl, ht, hr⟩
    · exact .inl (by rwa [Function.update_of_ne he] at hx)

def without (L : Waitable → List TaskId) (next : Option TaskId) (w : Waitable) : List TaskId :=
  (L w).filter fun x => next ≠ some x

theorem mem_without {next : Option TaskId} : x ∈ without L next w ↔ x ∈ L w ∧ next ≠ some x := by
  simp [without]

theorem without_eq_self {next : Option TaskId} (h : ∀ x, next = some x → ∀ w, x ∉ L w) :
    without L next = L := by
  funext w
  apply List.filter_eq_self.2
  intro x hx
  simpa using fun he => h x he w hx

theorem Switched.blockedInv (h : Switched k k') (hf : Flagged k.toObjects)
    (hi : BlockedInv k.toObjects L) (hn : ∀ t, k.scheduled = some t → k.flags t = 0) :
    BlockedInv k'.toObjects (without L k'.scheduled) := by
  cases h with
  | same ho _ hs =>
    rw [ho, hs, without_eq_self fun x hx => hi.notMem (hn x hx)]
    exact hi
  | @dispatched x hd _ _ hs =>
    have hL : without L k'.scheduled = fun w => (L w).erase x := by
      funext w
      rw [without, hs, (hi.lists.nodup w).erase_eq_filter]
      apply List.filter_congr
      intro y _
      by_cases hy : y = x
      · simp [hy]
      · simp [hy, Ne.symm hy]
    rw [hL]
    exact hd.blockedInv hf hi

theorem Switched.flags (h : Switched k k') (hf : Flagged k.toObjects) (ht : k.flags t = 0) :
    k'.flags t = 0 := by
  cases h with
  | same ho =>
    rw [ho]
    exact ht
  | dispatched hd =>
    rw [(hd.fields hf).1]
    simp only [Function.update_apply, ht, ite_self]

theorem WaitEdit.blockedInv (h : WaitEdit k a o) (hi : BlockedInv k.toObjects L)
    (hok : a.RestartsFree k) (hf : a.isCall → ∀ t, k.running = some t → k'.flags t = 0) :
    ∃ L₁, Relists k k' L a L₁ ∧ BlockedInv o L₁ := by
  cases h with
  | same h => exact ⟨L, .same hf, hi.of_same h.toSameWaits⟩
  | @grant _ _ w pre t ht hp h =>
    obtain ⟨post, hpost⟩ := (hi.lists.chain w).eq_append hp
    exact ⟨_, .leave hf ht hpost, hi.unlink hpost h.toSameWaits⟩
  | restart => exact ⟨L, .same hf, hi.restarted (fun w h => hok w (hi.mem_iff.1 h)) _⟩

/-- Every step keeps the blocked lists. It changes only the list of the object it works on, apart
from taking a task that it schedules off its list. -/
theorem WaitEffect.blockedInv (h : WaitEffect k k' a) (he : a.Enabled k)
    (hf : Flagged k.toObjects) (hn : NextFree k) (hi : BlockedInv k.toObjects L)
    (hok : a.RestartsFree k) :
    ∃ L₁, Relists k k' L a L₁ ∧ BlockedInv k'.toObjects (without L₁ k'.scheduled) := by
  cases h with
  | @edit _ o k₁ hed hs hw hr hs' =>
    have hf₁ := hed.flagged hf
    have hrunning : a.isCall → ∀ t, k.running = some t → k'.flags t = 0 := by
      intro hc t ht
      have hnext : k.next = some t := by
        cases a <;> first | exact (next_of_none he).trans ht | cases hc
      rw [hw.flags]
      exact hs.flags hf₁ (hed.flags (hn t hnext))
    obtain ⟨L₁, hL₁, hi₁⟩ := hed.blockedInv hi hok hrunning
    refine ⟨L₁, hL₁, ?_⟩
    rw [hs']
    refine (hs.blockedInv hf₁ hi₁ fun t ht => ?_).of_same hw.toSameWaits
    exact hed.flags (hn t (next_of_scheduled ht))
  | @block call w t x o₀ o o₁ ht hs hr h₀ hb hd hne hw hr' hs' =>
    have hz : o₀.flags t = 0 := by
      rw [h₀.flags]
      exact hn _ ((next_of_none hs).trans hr)
    have hi₁ := hb.blockedInv (hi.of_same h₀.toSameWaits) hz
    have hf₁ := hb.flagged (hf.of_same h₀.toSameWaits) hz
    have hsw : Switched { k with toObjects := o } { k' with toObjects := o₁ } :=
      .dispatched hd (fun he => hne (Option.some.inj (hr.symm.trans he))) (hr'.trans hr.symm) hs'
    refine ⟨_, .join ht hr hs' hne, (hsw.blockedInv hf₁ hi₁ fun y hy => ?_).of_same hw.toSameWaits⟩
    cases hs.symm.trans hy
  | contextSwitch ho hr hs =>
    refine ⟨L, .same (fun h => by cases h), ?_⟩
    rw [ho, hs, without_eq_self (by simp)]
    exact hi

theorem Switched.framed (h : Switched k k') (hf : Flagged k.toObjects) :
    Framed none (fun x => k'.scheduled = some x) k.toObjects k'.toObjects ∧ k'.regs = k.regs := by
  cases h with
  | same ho =>
    rw [ho]
    exact ⟨.refl, rfl⟩
  | dispatched hd _ _ hs =>
    obtain ⟨hd, hregs⟩ := hd.framed hf
    exact ⟨hd.mono (fun _ => id) fun y hy => hs.trans (congrArg some hy.symm), hregs⟩

theorem Switched.handed {pre post : List TaskId} (h : Switched { k with toObjects := o } k')
    (hq : Quiet (some w) (fun x => x = t) (k.toObjects.unlink w pre.getLast? t) o)
    (hL : L w = pre ++ t :: post) (hf : Flagged k.toObjects) (hn : NextFree k)
    (hi : BlockedInv k.toObjects L) : ¬ k'.OnList w t ∧ k'.regs = o.regs ∧
      (∀ x, k.flags x = 0 → k'.flags x = 0) ∧
      Framed none (fun x => k'.scheduled = some x) o k'.toObjects := by
  have hf₁ : Flagged o := hf.unlink hq.toSameWaits
  have hi₁ := hi.unlink hL hq.toSameWaits
  have hflags {x : TaskId} (hx : k.flags x = 0) : o.flags x = 0 := by
    rw [hq.flags]
    exact hx
  have hi' := h.blockedInv hf₁ hi₁ fun x hx => hflags (hn x (next_of_scheduled hx))
  refine ⟨fun hl => ?_, (h.framed hf₁).2, fun x hx => h.flags hf₁ (hflags hx), (h.framed hf₁).1⟩
  have hm := (mem_without.1 (hi'.mem_iff.2 hl)).1
  have hnd := hi.lists.nodup w
  rw [Function.update_self] at hm
  rw [hL, List.nodup_middle] at hnd
  exact (List.nodup_cons.1 hnd).1 hm

theorem BlockedInv.next_ne (hi : BlockedInv k.toObjects L) (hn : NextFree k) (ht : t ∈ L w) :
    k.next ≠ some t := fun hnext => hi.notMem (hn t hnext) w ht

theorem Switched.handed_head (h : Switched { k with toObjects := o } k')
    (hb : k.blocked w = some t)
    (hq : Quiet (some w) (fun x => x = t) (k.toObjects.unlink w none t) o)
    (hf : Flagged k.toObjects) (hn : NextFree k) (hi : BlockedInv k.toObjects L) :
    k.next ≠ some t ∧ ¬ k'.OnList w t ∧ k'.regs = o.regs ∧
      (∀ x, k.flags x = 0 → k'.flags x = 0) ∧
      Framed none (fun x => k'.scheduled = some x) o k'.toObjects := by
  obtain ⟨rest, hL⟩ := hi.lists.head hb
  have hmem : t ∈ L w := by
    rw [hL]
    exact List.mem_cons_self
  have hq' : Quiet (some w) (fun x => x = t)
    (k.toObjects.unlink w ([] : List TaskId).getLast? t) o := hq
  exact ⟨hi.next_ne hn hmem, h.handed hq' hL hf hn hi⟩

theorem block_framed {timeout : Nat} (hr : k.running = some t) (hn : k.scheduled = none)
    (h : Osh.block k w t timeout = .ok k') (hf : Flagged k.toObjects) (hz : k.flags t = 0) :
    Framed none (fun x => k'.scheduled = some x) k.toObjects k'.toObjects ∧ k'.regs = k.regs ∧
      k'.scheduled ≠ some t := by
  obtain ⟨o, ho, hd⟩ := (block_eq_ok hr).1 h
  obtain ⟨x, hdet, hne, hrun, hsched⟩ := svcDelay_switched hd hn
  have hb : Blocks k.toObjects w t { o with flags := update o.flags t (o.flags t ||| w.flag) } :=
    ⟨_, o, ho, rfl⟩
  have hsw : Switched
      { k with toObjects := { o with flags := update o.flags t (o.flags t ||| w.flag) } } k' :=
    .dispatched hdet hne hrun hsched
  obtain ⟨hfr, hregs⟩ := hsw.framed (hb.flagged hf hz)
  obtain ⟨o₁, hrel, -, he⟩ := hb.fields hz
  refine ⟨(hb.framed hz).trans hfr, hregs.trans ?_, fun he => hne ?_⟩
  · exact (congrArg Objects.regs he).trans (by rw [hrel]; cases w <;> rfl)
  · exact hr.trans (he.symm.trans hsched)

/-- Of what is not a list, pointer or flag, a step writes the object that it works on, the frames
and unions of the tasks that it touches, and the union of the task that it schedules. -/
theorem WaitEffect.framed (h : WaitEffect k k' a) (hf : Flagged k.toObjects) (hn : NextFree k) :
    Framed a.target (fun x => a.Touches k x ∨ k'.scheduled = some x) k.toObjects k'.toObjects ∧
      ∀ x, ¬ a.Touches k x → k'.regs x = k.regs x := by
  have hmono {w : Option Waitable} {ts : TaskId → Prop} {o o' : Objects} (h : Framed w ts o o') :
      Framed w (fun x => ts x ∨ k'.scheduled = some x) o o' := h.mono (fun _ => id) fun _ => .inl
  have hdisp {w : Option Waitable} {ts : TaskId → Prop} {o o' : Objects} {x : TaskId}
      (hs : k'.scheduled = some x) (h : Framed none (fun y => y = x) o o') :
      Framed w (fun x => ts x ∨ k'.scheduled = some x) o o' :=
    h.mono (fun _ h => by cases h) fun y hy => .inr (hs.trans (congrArg some hy.symm))
  cases h with
  | @edit _ o k₁ he hs hw hr hs' =>
    have he' : Framed a.target (a.Touches k) k.toObjects o := by
      cases he with
      | same h => exact h.toFramed
      | grant _ _ h => exact ⟨h.regs, h.c, h.mutex, h.queue, h.semaphore, h.rwlock⟩
      | restart => exact .restarted rfl _
    cases hs with
    | same ho =>
      rw [ho] at hw
      exact ⟨hmono (he'.trans hw.toFramed), (he'.trans hw.toFramed).regs⟩
    | dispatched hd _ _ hs'' =>
      obtain ⟨hd, hregs⟩ := hd.framed (he.flagged hf)
      refine ⟨(hmono he').trans ((hdisp (hs'.trans hs'') hd).trans (hmono hw.toFramed)),
        fun x hx => ?_⟩
      rw [hw.regs x hx, hregs, he'.regs x hx]
  | @block call w t x o₀ o o₁ ht hs hr h₀ hb hd hne hw hr' hs' =>
    have hz : o₀.flags t = 0 := by
      rw [h₀.flags]
      exact hn _ ((next_of_none hs).trans hr)
    obtain ⟨hd, hregs⟩ := hd.framed (hb.flagged (hf.of_same h₀.toSameWaits) hz)
    have hb' : Framed call.target ((Act.svc call).Touches k) k.toObjects o :=
      h₀.toFramed.trans (hb.framed hz)
    constructor
    · exact (hmono hb').trans ((hdisp hs' hd).trans (hmono hw.toFramed))
    · intro x hx
      rw [hw.regs x hx, hregs, hb'.regs x hx]
  | contextSwitch ho => rw [ho]; exact ⟨.refl, fun _ _ => rfl⟩

theorem WaitEffect.scheduled (hs : WaitEffect k k' a) (ha : a ≠ .contextSwitch) :
    k'.running = k.running ∧ (k.scheduled ≠ none → k'.scheduled ≠ none) := by
  cases hs with
  | @edit _ o k₁ _ hsw _ hr hs' =>
    rw [hr, hs']
    cases hsw with
    | same _ hr hs => exact ⟨hr, fun h => by rwa [hs]⟩
    | dispatched _ _ hr hs => exact ⟨hr, fun _ => by rw [hs]; simp⟩
  | block _ _ hr _ _ _ _ _ hr' hs' => exact ⟨hr'.trans hr.symm, fun _ => by rw [hs']; simp⟩
  | contextSwitch => exact absurd rfl ha

structure Unused (b : Boot) (o : Objects) : Prop where
  waits : SameWaits b.initialized.toObjects o
  mutex : o.mutex = b.initialized.mutex
  queue : o.queue = b.initialized.queue
  semaphore : o.semaphore = b.initialized.semaphore
  rwlock : o.rwlock = b.initialized.rwlock

theorem Unused.created {b : Boot} (h : Unused b o) (options : TaskOptions) :
    Unused b (o.created t options) := by
  refine ⟨⟨h.waits.blocked, ?_, ?_, ?_, ?_, ?_, ?_⟩, h.mutex, h.queue, h.semaphore, h.rwlock⟩
  all_goals
    simp only [Objects.created, h.waits.nblocked, h.waits.taskQueue, h.waits.taskMutex,
      h.waits.taskSemaphore, h.waits.taskRwlock, h.waits.flags, Boot.initialized]
    exact Function.update_eq_self ..

theorem Boot.start_unused (b : Boot) (h : b.start = .ok k) : Unused b k.toObjects := by
  obtain ⟨k₀, i, hk, -, rfl⟩ := b.start_invariant (I := fun k => Unused b k.toObjects) h
    ⟨.refl, rfl, rfl, rfl, rfl⟩ fun k t options k' _ _ hst hk h => by
      obtain ⟨-, s, -, rfl⟩ := osTaskInitializeOptions_cases hst h
      exact hk.created options
  exact hk

theorem Unused.flagged {b : Boot} (h : Unused b o) : Flagged o := by
  refine Flagged.of_same ?_ h.waits
  constructor
  · exact fun _ => Nat.zero_le _
  · intro _
    simp [Boot.initialized, flagMutex]
  · intro _
    simp [Boot.initialized, flagQueue]
  · intro _
    simp [Boot.initialized, flagRwlock]
  · intro _ hz
    cases hz

theorem Unused.blockedInv {b : Boot} (h : Unused b o) : BlockedInv o fun _ => [] := by
  refine BlockedInv.of_same ?_ h.waits
  exact ⟨⟨fun _ => rfl, by simp, fun _ _ => rfl⟩, by simp⟩

/-- In every state of a run, flags and pointers agree and the next task is not blocked. -/
theorem reach_flagged {ok : Kernel → Act → Prop} (h : machine.Reach ok k) :
    Flagged k.toObjects ∧ NextFree k := by
  refine h.invariant (I := fun k => Flagged k.toObjects ∧ NextFree k) ?_ ?_
  · rintro k ⟨b, hb⟩
    have hu := b.start_unused hb
    constructor
    · exact hu.flagged
    · intro t _
      rw [hu.waits.flags]
      rfl
  · rintro k a k' ⟨hf, hn⟩ - ⟨he, hr⟩
    exact (Act.run_waits he hr).flagged hf hn

/-- As long as no task is restarted while it is on a blocked list, the blocked lists are intact. -/
theorem reach_blocked {ok : Kernel → Act → Prop} (h : machine.Reach ok k)
    (hok : ∀ k a, ok k a → a.RestartsFree k) : ∃ L, BlockedInv k.toObjects L := by
  induction h with
  | init h =>
    obtain ⟨b, hb⟩ := h
    exact ⟨_, (b.start_unused hb).blockedInv⟩
  | step h ha hs ih =>
    obtain ⟨L, hi⟩ := ih
    obtain ⟨hf, hn⟩ := reach_flagged h
    obtain ⟨L', -, hi'⟩ := (Act.run_waits hs.1 hs.2).blockedInv hs.1 hf hn hi (hok _ _ ha)
    exact ⟨_, hi'⟩

end Osh
