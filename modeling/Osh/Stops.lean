import Osh.DispatchRuns

namespace Osh
open Function (update)
open Lib

variable {k k' k₁ : Kernel} {s s' : Sched} {o o' : Objects} {t x r : TaskId} {w : Waitable}
  {a : Act} {n ms : Nat} {bad : Stop → Prop}

/-- A failed assertion on a blocked list, or the one on the idle task. -/
def Stop.isChecked : Stop → Prop
  | .assertion .blockedAppend | .assertion .blockedEnq | .assertion .blockedDeq
  | .assertion .dispatchIdle => True
  | _ => False

section Scheduler
variable {head first previous : Option TaskId} {nrp : TaskId → Option TaskId}

theorem osAssert_spares {site : Site} {p : Prop} [Decidable p] (hs : ¬ bad (.assertion site)) :
    Avoids bad (osAssert site p) := by
  unfold osAssert
  split_ifs
  · exact .ok
  · exact .error hs

theorem osAssert_avoids {site : Site} {p : Prop} [Decidable p]
    (hs : ¬ (Stop.assertion site).isChecked) : Avoids Stop.isChecked (osAssert site p) :=
  osAssert_spares hs

theorem osAssert_holds {site : Site} {p : Prop} [Decidable p] (h : p) :
    Avoids bad (osAssert site p) := by
  rw [osAssert_true h]
  exact .ok

theorem removeLoop_avoids :
    Avoids Stop.isChecked (removeLoop t head nrp n previous first) := by
  induction n generalizing first previous with
  | zero => cases first <;> first | exact .ok | exact .error id
  | succ n ih =>
    cases first with
    | none => exact .ok
    | some b =>
      unfold removeLoop
      split_ifs
      · exact .ok
      · exact .ok
      · exact ih

theorem runqueueRemove_avoids : Avoids Stop.isChecked (runqueueRemove s t) :=
  removeLoop_avoids.bind fun _ _ => .ok

theorem waitqueueRemove_avoids : Avoids Stop.isChecked (waitqueueRemove s t) :=
  removeLoop_avoids.bind fun _ _ => .ok

theorem runqueueAddLoop_avoids {priority : TaskId → Nat} :
    Avoids Stop.isChecked (runqueueAddLoop priority t head nrp n previous first) := by
  induction n generalizing first previous with
  | zero => cases first <;> exact .error id
  | succ n ih =>
    cases first with
    | none => exact .error id
    | some b =>
      unfold runqueueAddLoop
      split_ifs
      · exact .ok
      · exact .ok
      · exact .ok
      · exact ih

theorem runqueueAdd_avoids : Avoids Stop.isChecked (runqueueAdd s t) := by
  unfold runqueueAdd
  cases s.runqueue with
  | none => exact .ok
  | some head =>
    exact (osAssert_avoids id).bind fun _ _ => runqueueAddLoop_avoids.bind fun _ _ => .ok

theorem hasCyclesLoop_avoids {slow fast : TaskId} :
    Avoids Stop.isChecked (hasCyclesLoop nrp n slow fast) := by
  induction n generalizing slow fast with
  | zero => exact .error id
  | succ n ih =>
    unfold hasCyclesLoop
    split
    · exact .ok
    · split
      · split_ifs
        · exact .ok
        · exact ih
      · exact .ok

theorem waitqueueAddLoop_avoids {delay : TaskId → Nat} {bound : Nat} :
    Avoids Stop.isChecked (waitqueueAddLoop delay t head nrp bound n previous first) := by
  induction n generalizing first previous with
  | zero => cases first <;> exact .error id
  | succ n ih =>
    cases first with
    | none => exact .error id
    | some b =>
      unfold waitqueueAddLoop
      apply (osAssert_avoids id).bind
      intro _ _
      split_ifs
      · exact .ok
      · apply Avoids.bind
        · unfold hasCycles
          cases head with
          | none => exact .ok
          | some b => exact hasCyclesLoop_avoids
        · intro _ _
          exact (osAssert_avoids id).bind fun _ _ => .ok
      · exact ih

theorem waitqueueAdd_avoids : Avoids Stop.isChecked (waitqueueAdd s t) := by
  unfold waitqueueAdd
  cases s.waitqueue with
  | none => exact .ok
  | some head => exact waitqueueAddLoop_avoids.bind fun _ _ => .ok

theorem osiTaskStatusSet_avoids {new : TaskStatus} :
    Avoids Stop.isChecked (osiTaskStatusSet s t new) := by
  unfold osiTaskStatusSet
  cases new with
  | wait => exact runqueueRemove_avoids.bind fun _ _ => waitqueueAdd_avoids
  | finished | panic | aborted => exact runqueueRemove_avoids
  | suspended => exact waitqueueRemove_avoids.bind fun _ _ => runqueueRemove_avoids
  | idle =>
    dsimp only
    split_ifs
    · exact waitqueueRemove_avoids.bind fun _ _ => runqueueAdd_avoids
    · exact runqueueAdd_avoids
  | active => exact .ok

theorem findNewTaskLoop_avoids {ours : Nat} {task new lower : Option TaskId} :
    Avoids Stop.isChecked (findNewTaskLoop s ours first n task new lower) := by
  induction n generalizing task new lower with
  | zero => exact .error id
  | succ n ih =>
    unfold findNewTaskLoop
    split_ifs
    · exact .ok
    · cases task with
      | none => exact .error id
      | some t =>
        dsimp only
        split_ifs <;> first | exact .ok | exact ih

theorem findNewTask_avoids {running : TaskId} :
    Avoids Stop.isChecked (findNewTask s running) := by
  apply findNewTaskLoop_avoids.bind
  intro p _
  dsimp only
  split_ifs <;> exact .pure

theorem wakeLoop_avoids {task : Option TaskId} :
    Avoids Stop.isChecked (wakeLoop s n task) := by
  induction n generalizing task with
  | zero => cases task <;> first | exact .ok | exact .error id
  | succ n ih =>
    cases task with
    | none => exact .ok
    | some t =>
      unfold wakeLoop
      split_ifs
      · exact osiTaskStatusSet_avoids
      · exact ih

theorem runqueueLength_avoids : Avoids Stop.isChecked (runqueueLength s n first) := by
  induction n generalizing first with
  | zero => cases first <;> first | exact .ok | exact .error id
  | succ n ih =>
    cases first with
    | none => exact .ok
    | some b => exact ih.bind fun _ _ => .pure

theorem hasHigherPriorityLoop_avoids :
    Avoids Stop.isChecked (hasHigherPriorityLoop s t n first) := by
  induction n generalizing first with
  | zero => cases first <;> first | exact .ok | exact .error id
  | succ n ih =>
    cases first with
    | none => exact .ok
    | some b =>
      unfold hasHigherPriorityLoop
      split_ifs
      · exact .ok
      · exact ih

theorem blockedRemove_avoids : Avoids Stop.isChecked (blockedRemove n o w t) := by
  unfold blockedRemove
  generalize o.blocked w = first
  generalize (none : Option TaskId) = previous
  induction n generalizing first previous with
  | zero => cases first <;> first | exact .ok | exact .error id
  | succ n ih =>
    cases first with
    | none => exact .ok
    | some b =>
      unfold blockedRemoveLoop
      split_ifs
      · exact .ok
      · exact ih _ _

theorem dispatchDetach_avoids : Avoids Stop.isChecked (dispatchDetach n o t) := by
  apply Avoids.bind
  · unfold detachMutex
    split_ifs
    · cases o.taskMutex t with
      | none => exact .error id
      | some m =>
        exact (osAssert_avoids id).bind fun _ _ => blockedRemove_avoids.bind fun _ _ => .pure
    · exact .ok
  intro o₁ _
  apply Avoids.bind
  · unfold detachQueue
    split_ifs
    · cases o₁.taskQueue t with
      | none => exact .error id
      | some q =>
        exact (osAssert_avoids id).bind fun _ _ => blockedRemove_avoids.bind fun _ _ => .pure
    · exact .ok
  intro o₂ _
  apply Avoids.bind
  · unfold detachSemaphore
    split_ifs
    · cases o₂.taskSemaphore t with
      | none => exact .error id
      | some s =>
        exact (osAssert_avoids id).bind fun _ _ => blockedRemove_avoids.bind fun _ _ => .pure
    · exact .ok
  intro o₃ _
  unfold detachRwlock
  split_ifs
  · cases o₃.taskRwlock t with
    | none => exact .error id
    | some l =>
      exact (osAssert_avoids id).bind fun _ _ => blockedRemove_avoids.bind fun _ _ => .pure
  · exact .ok

theorem self_avoids : Avoids Stop.isChecked k.self := by
  unfold Kernel.self
  split
  · exact .ok
  · exact .error id

theorem grantReadersLoop_avoids {l : RwlockId} :
    Avoids Stop.isChecked (grantReadersLoop l n k previous head) := by
  induction n generalizing k previous head with
  | zero => cases head <;> first | exact .ok | exact .error id
  | succ n ih =>
    cases head with
    | none => exact .ok
    | some b =>
      unfold grantReadersLoop
      split_ifs
      · exact osiTaskStatusSet_avoids.bind fun _ _ => ih
      · exact ih

end Scheduler

section Steps

/-- The blocked lists that a step of `k` works on, and the dispatches in it, do not fail in a way
that is `bad`. -/
structure Spared (bad : Stop → Prop) (k : Kernel) (a : Act) : Prop where
  checked : ∀ e, bad e → e.isChecked
  enq : a.isCall → ∀ o w t, SameWaits k.toObjects o → k.running = some t →
    Avoids bad (blockedEnq k.bound o w t)
  deq : ∀ o w, SameWaits k.toObjects o → Avoids bad (blockedDeq o w)
  dispatch : ∀ k₁ t, a.Dispatching k k₁ t → Avoids bad (osiDispatch k₁ t)

namespace Spared
variable {timeout : Nat} (hb : Spared bad k a)
include hb

theorem of_checked {α : Type} {x : Except Stop α} (hx : Avoids Stop.isChecked x) : Avoids bad x :=
  hx.mono hb.checked

theorem assert {site : Site} {p : Prop} [Decidable p] (hs : ¬ (Stop.assertion site).isChecked) :
    Avoids bad (osAssert site p) := hb.of_checked (osAssert_avoids hs)

theorem schedule (h : EntersSchedule k a k₁) : Avoids bad (osiSchedule k₁) := by
  unfold osiSchedule
  cases hr : k₁.running with
  | none => exact hb.of_checked (.error id)
  | some running =>
    dsimp only
    split_ifs with hi hs
    · exact .ok
    · exact .ok
    · apply (hb.of_checked wakeLoop_avoids).bind
      intro s hw
      apply (hb.of_checked findNewTask_avoids).bind
      intro new hn
      cases new with
      | none => exact .pure
      | some t =>
        dsimp only
        split_ifs with hne
        · have hd : a.Dispatching k { k₁ with toSched := s } t :=
            .found h hr hi (not_not.1 hs) hw hn hne
          exact (hb.dispatch _ t hd).bind fun _ _ => .pure
        · exact .pure

theorem dispatchOrQueue (h : HandsOver k a t o) :
    Avoids bad (osiDispatchOrQueue { k with toObjects := o } t) := by
  apply (hb.of_checked hasHigherPriorityLoop_avoids).bind
  intro higher hh
  have hjoin {s : Sched} (hs : MakesRunnable k.toSched t s) (hhigh : higher = true) : Avoids bad
      (if s.scheduled = none then osiSchedule { toSched := s, toObjects := o }
        else pure { toSched := s, toObjects := o }) := by
    split_ifs with hn
    · apply hb.schedule
      exact .queued h (hhigh ▸ hh) hs (hs.rethreaded.scheduled.symm.trans hn)
    · exact .pure
  split_ifs with hhigh hrun
  · have hs : MakesRunnable k.toSched t k.toSched := by
      unfold MakesRunnable
      exact if_pos hrun ▸ rfl
    exact hjoin hs hhigh
  · apply (hb.of_checked osiTaskStatusSet_avoids).bind
    intro s hs
    exact hjoin (by rwa [MakesRunnable, if_neg hrun]) hhigh
  · rw [Bool.eq_false_of_not_eq_true hhigh] at hh
    exact hb.dispatch _ t (.direct h hh)

theorem sleep {k₀ : Kernel} (hr : k₀.running = some r)
    (h : ∀ k₁, SleepsInto k₀ ms r k₁ → EntersSchedule k a k₁) : Avoids bad (svcDelay k₀ ms) := by
  rw [svcDelay_eq]
  cases hr' : k₀.running with
  | none => exact hb.of_checked (.error id)
  | some running =>
    obtain rfl : r = running := Option.some.inj (hr.symm.trans hr')
    apply (hb.assert id).bind
    intro _ _
    apply (hb.assert id).bind
    intro _ ht
    apply (hb.of_checked osiTaskStatusSet_avoids).bind
    intro s hset
    have hend {k : Kernel} : Avoids bad (do
        osAssert .svcDelay (k.scheduled ≠ none)
        osAssert .svcDelay (k.scheduled ≠ k.running)
        return k) :=
      (hb.assert id).bind fun _ _ => (hb.assert id).bind fun _ _ => .pure
    dsimp only
    split_ifs with hn
    · refine (hb.schedule (h _ ⟨hr, ?_, fun hms => ?_, s, hset, rfl⟩)).bind fun _ _ => hend
      · exact (osiTaskStatusSet_rethreaded hset).scheduled.symm.trans hn
      · have hdelay := osAssert_eq_ok.1 ht hms
        rwa [if_neg hms] at hdelay
    · exact hend

theorem block (h : Parks k r a w ms o) (hr : k.running = some r) :
    Avoids bad (Osh.block { k with toObjects := o } w r ms) := by
  have hcall : a.isCall := by cases h <;> rfl
  apply (hb.enq hcall o w r h.sameWaits hr).bind
  intro o' ho
  have hself : ({ k with toObjects := o' } : Kernel).self = .ok r := Kernel.self_eq_ok.2 hr
  unfold svcBlock
  rw [hself, ok_bind]
  apply hb.sleep
  · exact hr
  · intro k₁ hs
    exact .block h ho hs

theorem abort (hc : a = .svc .abort) : Avoids bad (svcAbort k) := by
  subst hc
  apply (hb.of_checked self_avoids).bind
  intro r hr
  apply (hb.of_checked osiTaskStatusSet_avoids).bind
  intro s hset
  have hend {k : Kernel} : Avoids bad (do
      osAssert .svcAbort (k.scheduled ≠ none)
      osAssert .svcAbort (k.scheduled ≠ k.running)
      return k) :=
    (hb.assert id).bind fun _ _ => (hb.assert id).bind fun _ _ => .pure
  dsimp only
  split_ifs with hn
  · have hn' : k.scheduled = none := (osiTaskStatusSet_rethreaded hset).scheduled.symm.trans hn
    exact (hb.schedule (.abort (Kernel.self_eq_ok.1 hr) hn' hset)).bind fun _ _ => hend
  · exact hend

theorem mutexAcquire {m : MutexId} (hc : a = .svc (.mutexAcquire m timeout)) :
    Avoids bad (osiMutexAcquire k m timeout) := by
  subst hc
  apply (hb.of_checked self_avoids).bind
  intro t hr
  apply (hb.assert id).bind
  intro _ hp
  dsimp only
  split_ifs with hl ho
  any_goals exact .pure
  rename_i ht
  apply (hb.block (.mutex (osAssert_eq_ok.1 hp) hl ho ht) (Kernel.self_eq_ok.1 hr)).bind
  exact fun _ _ => .pure

theorem mutexRelease {m : MutexId} (hc : a = .svc (.mutexRelease m)) :
    Avoids bad (osiMutexRelease k m) := by
  subst hc
  apply (hb.of_checked self_avoids).bind
  intro t hr
  apply (hb.assert id).bind
  intro _ hpos
  apply (hb.assert id).bind
  intro _ ho
  dsimp only
  split_ifs with hl
  · exact .pure
  · apply (hb.assert id).bind
    intro _ hp
    apply Avoids.bind
    · apply hb.deq
      exact ⟨rfl, rfl, rfl, rfl, rfl, rfl, rfl⟩
    · rintro ⟨o, first⟩ hd
      obtain ⟨hfirst, hw⟩ := blockedDeq_eq_ok.1 hd
      cases first with
      | none => exact .pure
      | some x =>
        obtain ⟨hw, rfl⟩ := hw
        have hlevel : (k.mutex m).level = 1 := by
          have hpos' := osAssert_eq_ok.1 hpos
          omega
        have hh : HandsOver k (.svc (.mutexRelease m)) x (k.grantMutex m x) :=
          .mutex (Kernel.self_eq_ok.1 hr) (osAssert_eq_ok.1 ho) hlevel hfirst
            (osAssert_eq_ok.1 hp) (by simpa [Objects.waitsOn] using hw)
        apply Avoids.bind
        · simpa [Objects.grantMutex, Objects.setMutex, Objects.unlink,
            Objects.setStackedReturn] using hb.dispatchOrQueue hh
        · exact fun _ _ => .pure

theorem semaphoreAcquire {s : SemaphoreId} (hc : a = .svc (.semaphoreAcquire s timeout)) :
    Avoids bad (osiSemaphoreAcquire k s timeout) := by
  subst hc
  apply (hb.of_checked self_avoids).bind
  intro t hr
  apply (hb.assert id).bind
  intro _ hp
  dsimp only
  split_ifs with htok ht
  · exact .pure
  · exact .pure
  · have hpark : Parks k t (.svc (.semaphoreAcquire s timeout)) (.semaphore s) timeout
        k.toObjects := .semaphore (osAssert_eq_ok.1 hp) (by omega) ht
    exact (hb.block hpark (Kernel.self_eq_ok.1 hr)).bind fun _ _ => .pure

theorem semaphoreRelease {s : SemaphoreId} (hc : a = .svc (.semaphoreRelease s))
    (hr : k.running = some r) : Avoids bad (osiSemaphoreRelease k s) := by
  subst hc
  apply (hb.deq _ _ .refl).bind
  rintro ⟨o, first⟩ hd
  obtain ⟨hfirst, hw⟩ := blockedDeq_eq_ok.1 hd
  cases first with
  | none => exact .pure
  | some x =>
    obtain ⟨hw, rfl⟩ := hw
    have hh : HandsOver k (.svc (.semaphoreRelease s)) x (k.grantSemaphore s x) :=
      .semaphore hr hfirst (by simpa [Objects.waitsOn] using hw)
    exact (hb.dispatchOrQueue hh).bind fun _ _ => .pure

theorem queueSend {q : QueueId} {message : Nat}
    (h : ∀ x, k.blocked (.queue q) = some x → k.taskQueue x = some q →
      HandsOver k a x (k.sendQueue q x message)) : Avoids bad (queueSendBlocked k q message) := by
  apply (hb.deq _ _ .refl).bind
  rintro ⟨o, first⟩ hd
  obtain ⟨hfirst, hw⟩ := blockedDeq_eq_ok.1 hd
  cases first with
  | none => exact hb.of_checked (.error id)
  | some x =>
    obtain ⟨hw, rfl⟩ := hw
    exact hb.dispatchOrQueue (h x hfirst (by simpa [Objects.waitsOn] using hw))

theorem queueEnqueueIsr {q : QueueId} {message : Nat} (hc : a = .enqueueIsr q message) :
    Avoids bad (osiQueueEnqueueIsr k q message) := by
  subst hc
  rw [osiQueueEnqueueIsr_eq]
  split_ifs with hh
  · exact (hb.queueSend fun x hx hw => .sendIsr hh hx hw).bind fun _ _ => .ok
  · exact .ok
  · exact .ok

theorem queueEnqueue {q : QueueId} {message : Nat}
    (hc : a = .svc (.queueEnqueue q message timeout)) :
    Avoids bad (osiQueueEnqueue k q message timeout) := by
  subst hc
  cases hr : k.running with
  | none =>
    rw [osiQueueEnqueue, hr]
    exact hb.of_checked (.error id)
  | some t =>
    rw [osiQueueEnqueue_eq hr]
    apply (hb.assert id).bind
    intro _ hn
    have hn := osAssert_eq_ok.1 hn
    split_ifs with hh hfull ht
    · exact (hb.queueSend fun x hx hw => .send hr hn hh hx hw).bind fun _ _ => .ok
    · exact .ok
    · exact (hb.block (.send hn hh hfull ht) hr).bind fun _ _ => .ok
    · exact .ok

theorem queueDequeue {q : QueueId} (hc : a = .svc (.queueDequeue q timeout)) :
    Avoids bad (osiQueueDequeue k q timeout) := by
  subst hc
  unfold osiQueueDequeue
  cases hr : k.running with
  | none => exact hb.of_checked (.error id)
  | some t =>
    apply (hb.assert id).bind
    intro _ hn
    have hn := osAssert_eq_ok.1 hn
    dsimp only
    split_ifs with hpos hst ht
    · apply Avoids.bind
      · apply Avoids.bind
        · apply hb.deq
          exact ⟨rfl, rfl, rfl, rfl, rfl, rfl, rfl⟩
        · rintro ⟨o, first⟩ hd
          obtain ⟨hfirst, hw⟩ := blockedDeq_eq_ok.1 hd
          cases first with
          | none => exact hb.of_checked (.error id)
          | some x =>
            obtain ⟨hw, rfl⟩ := hw
            exact hb.dispatchOrQueue
              (.receive hr hn hpos hst.2 hfirst (by simpa [Objects.waitsOn] using hw))
      · exact fun _ _ => .pure
    · exact .pure
    · exact .pure
    · exact (hb.block (.receive hn (by omega) ht) hr).bind fun _ _ => .pure

theorem rwlockAcquireRead {l : RwlockId} (hc : a = .svc (.rwlockAcquireRead l timeout)) :
    Avoids bad (osiRwlockAcquireRead k l timeout) := by
  subst hc
  apply (hb.of_checked self_avoids).bind
  intro t hr
  apply (hb.assert id).bind
  intro _ hp
  dsimp only
  split_ifs with hl ht
  · exact .pure
  · exact .pure
  · apply (hb.block (.read (osAssert_eq_ok.1 hp) hl ht) (Kernel.self_eq_ok.1 hr)).bind
    exact fun _ _ => .pure

theorem rwlockAcquireWrite {l : RwlockId} (hc : a = .svc (.rwlockAcquireWrite l timeout)) :
    Avoids bad (osiRwlockAcquireWrite k l timeout) := by
  subst hc
  apply (hb.of_checked self_avoids).bind
  intro t hr
  apply (hb.assert id).bind
  intro _ hp
  dsimp only
  split_ifs with hl ht
  · exact .pure
  · exact .pure
  · apply (hb.block (.write (osAssert_eq_ok.1 hp) hl ht) (Kernel.self_eq_ok.1 hr)).bind
    exact fun _ _ => .pure

theorem rwlockRelease {l : RwlockId} (hc : a = .svc (.rwlockRelease l)) :
    Avoids bad (osiRwlockRelease k l) := by
  subst hc
  apply (hb.of_checked self_avoids).bind
  intro t hr
  apply (hb.assert id).bind
  intro _ hh
  apply (hb.assert id).bind
  intro _ hw
  have hk : ({ k with rwlock := update k.rwlock l (k.rwlock l).drop } : Kernel) =
    { k with toObjects := k.dropRwlock l } := rfl
  simp only [Rwlock.drop_eq, hk]
  cases hfirst : k.blocked (.rwlock l) with
  | none => exact .pure
  | some x =>
    dsimp only
    split_ifs with hg
    · have hh : HandsOver k (.svc (.rwlockRelease l)) x ((k.dropRwlock l).grantWrite l x) :=
        .write (Kernel.self_eq_ok.1 hr) (osAssert_eq_ok.1 hh) (osAssert_eq_ok.1 hw)
          (Objects.nextWriter_eq_some.2 ⟨hfirst, hg⟩)
      exact (hb.dispatchOrQueue hh).bind fun _ _ => .pure
    · exact (hb.of_checked grantReadersLoop_avoids).bind fun _ _ => .pure

theorem call {call : Svc} (hc : a = .svc call) (hr : k.running = some r) :
    Avoids bad (call.call k) := by
  cases call with
  | delay ms =>
    subst hc
    exact (hb.sleep hr fun _ h => .delay h).bind fun _ _ => .pure
  | abort => exact (hb.abort hc).bind fun _ _ => .pure
  | mutexAcquire m timeout => exact (hb.mutexAcquire hc).bind fun _ _ => .pure
  | mutexRelease m => exact (hb.mutexRelease hc).bind fun _ _ => .pure
  | semaphoreAcquire s timeout => exact (hb.semaphoreAcquire hc).bind fun _ _ => .pure
  | semaphoreRelease s => exact (hb.semaphoreRelease hc hr).bind fun _ _ => .pure
  | queueEnqueue q message timeout => exact (hb.queueEnqueue hc).bind fun _ _ => .pure
  | queueDequeue q timeout => exact (hb.queueDequeue hc).bind fun _ _ => .pure
  | rwlockAcquireRead l timeout => exact (hb.rwlockAcquireRead hc).bind fun _ _ => .pure
  | rwlockAcquireWrite l timeout => exact (hb.rwlockAcquireWrite hc).bind fun _ _ => .pure
  | rwlockRelease l => exact (hb.rwlockRelease hc).bind fun _ _ => .pure

/-- What a step may fail in, it fails in on a blocked list or in a dispatch. -/
theorem run (hr : ¬ a.restarts) : Avoids bad (a.run k) := by
  cases a with
  | svc call =>
    apply (hb.of_checked self_avoids).bind
    intro t ht
    exact (hb.call rfl (Kernel.self_eq_ok.1 ht)).bind fun _ _ => .pure
  | taskFinished =>
    apply Avoids.bind
    · unfold Osh.taskFinished
      split
      · exact hb.of_checked (.error id)
      · apply (hb.assert id).bind
        intro _ _
        exact (hb.assert id).bind fun _ _ => hb.of_checked osiTaskStatusSet_avoids
    · exact fun _ _ => .pure
  | taskStart => exact absurd rfl hr
  | taskSuspend t | taskResume t =>
    apply Avoids.bind
    · exact (hb.assert id).bind fun _ _ => hb.of_checked osiTaskStatusSet_avoids
    · exact fun _ _ => .pure
  | systick =>
    unfold Act.run osiIrsSystick
    dsimp only
    split_ifs with h
    · exact hb.schedule (.systick h)
    · exact .ok
  | schedule => exact hb.schedule .schedule
  | enqueueIsr q message => exact (hb.queueEnqueueIsr rfl).bind fun _ _ => .pure
  | contextSwitch => exact .ok
  | clock uptime micros => exact .ok

end Spared
end Steps

end Osh
