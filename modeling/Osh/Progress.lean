import Osh.BlockedRuns
import Osh.Crashes
import Osh.SleepRuns

namespace Osh
open Function (update)
open Lib

variable {k k' k₁ : Kernel} {s s' : Sched} {o o' : Objects} {i t x r : TaskId} {w : Waitable}
  {a : Act} {l q : List TaskId} {ms n : Nat} {L : Waitable → List TaskId}

/-- What the functions of the interface assert of their callers. -/
def Act.Correct (k : Kernel) (r : TaskId) : Act → Prop
  | .svc (.mutexRelease m) => (k.mutex m).level > 0 ∧ (k.mutex m).owner = some r
  | .svc (.rwlockRelease l) => ((k.rwlock l).readers > 0 ∨ (k.rwlock l).writers = 1) ∧
    ((k.rwlock l).writers > 0 → (k.rwlock l).writer = some r)
  | .taskFinished => k.idle ≠ some r ∧ k.status r = .active
  | .taskStart t _ _ => (k.status t ≠ .idle ∧ k.status t ≠ .active) ∧
    k.stackSize t % 4 = 0 ∧ k.stackSize t ≥ stackMinimumSize
  | .taskSuspend t => k.status t = .idle ∨ k.status t = .active
  | .taskResume t => k.status t = .suspended
  | _ => True

/-- The time `ms` from now on comes before the clock wraps, or never. -/
def Sched.Ahead (s : Sched) (ms : Nat) : Prop :=
  ms = uint32Max ∨ 0 < ms ∧ s.uptime + ms < uint32Max

instance : Decidable (s.Ahead ms) :=
  inferInstanceAs (Decidable (ms = uint32Max ∨ 0 < ms ∧ s.uptime + ms < uint32Max))

/-- A call that may wait does so for a time that is ahead, and not for a semaphore, on which a task
that is dispatched still counts as waiting. -/
def Act.Timely (k : Kernel) : Act → Prop
  | .svc (.delay ms) => k.Ahead ms
  | .svc (.mutexAcquire _ timeout) | .svc (.queueEnqueue _ _ timeout)
  | .svc (.queueDequeue _ timeout) | .svc (.rwlockAcquireRead _ timeout)
  | .svc (.rwlockAcquireWrite _ timeout) => timeout = 0 ∨ k.Ahead timeout
  | .svc (.semaphoreAcquire s timeout) => timeout = 0 ∨ (k.semaphore s).tokens > 0
  | _ => True

instance (k : Kernel) (a : Act) : Decidable (a.Timely k) :=
  match a with
  | .svc (.delay ms) => inferInstanceAs (Decidable (k.Ahead ms))
  | .svc (.mutexAcquire _ timeout) | .svc (.queueEnqueue _ _ timeout)
  | .svc (.queueDequeue _ timeout) | .svc (.rwlockAcquireRead _ timeout)
  | .svc (.rwlockAcquireWrite _ timeout) =>
    inferInstanceAs (Decidable (timeout = 0 ∨ k.Ahead timeout))
  | .svc (.semaphoreAcquire s timeout) =>
    inferInstanceAs (Decidable (timeout = 0 ∨ (k.semaphore s).tokens > 0))
  | .svc .abort | .svc (.mutexRelease _) | .svc (.semaphoreRelease _) | .svc (.rwlockRelease _)
  | .taskFinished | .taskStart _ _ _ | .taskSuspend _ | .taskResume _ | .systick | .schedule
  | .enqueueIsr _ _ | .contextSwitch | .clock _ _ => inferInstanceAs (Decidable True)

section Semaphores

def NoSemaphores (o : Objects) : Prop := ∀ t, o.taskSemaphore t = none

theorem NoSemaphores.of_same (h : NoSemaphores o) (hs : SameWaits o o') : NoSemaphores o' := by
  intro t
  rw [hs.taskSemaphore]
  exact h t

theorem NoSemaphores.detaches (h : NoSemaphores o) (hf : Flagged o) (hd : Detaches o t o') :
    NoSemaphores o' := by
  rw [(hd.fields hf).1]
  exact h

theorem NoSemaphores.switched (h : NoSemaphores k.toObjects) (hf : Flagged k.toObjects)
    (hs : Switched k k') : NoSemaphores k'.toObjects := by
  cases hs with
  | same ho => rwa [ho]
  | dispatched hd => exact h.detaches hf hd

theorem NoSemaphores.blocks (h : NoSemaphores o) (hb : Blocks o w t o') (hz : o.flags t = 0)
    (hw : ∀ s, w ≠ .semaphore s) : NoSemaphores o' := by
  obtain ⟨o₁, hr, -, rfl⟩ := hb.fields hz
  have h₁ : NoSemaphores o₁ := by
    rw [hr]
    exact h
  cases w with
  | semaphore s => exact absurd rfl (hw s)
  | mutex | queue | rwlock => exact h₁

theorem NoSemaphores.blocked_none (h : NoSemaphores o) (hi : BlockedInv o L) {x : SemaphoreId} :
    o.blocked (.semaphore x) = none := by
  cases hb : o.blocked (.semaphore x) with
  | none => rfl
  | some t =>
    have hw := (hi.waits _ t (hi.mem_iff.2 (Objects.onList_of_blocked hb))).1
    simp [Objects.waitsOn, h t] at hw

theorem osiSemaphoreAcquire_timely {y : SemaphoreId} {timeout : Nat} {status : Status}
    (h : osiSemaphoreAcquire k y timeout = .ok (k', status))
    (ht : timeout = 0 ∨ (k.semaphore y).tokens > 0) : k'.taskSemaphore = k.taskSemaphore := by
  simp only [osiSemaphoreAcquire, bind_eq_ok, osAssert_eq_ok] at h
  obtain ⟨_, -, _, -, h⟩ := h
  split_ifs at h with htok hz
  · cases h
    rfl
  · cases h
    rfl
  · exact absurd ht (not_or.2 ⟨hz, htok⟩)

theorem NoSemaphores.release (h : NoSemaphores k.toObjects) (hi : BlockedInv k.toObjects L)
    {y : SemaphoreId} {status : Status} (hr : osiSemaphoreRelease k y = .ok (k', status)) :
    k'.taskSemaphore = k.taskSemaphore := by
  obtain ⟨-, hc⟩ := osiSemaphoreRelease_cases hr
  cases hc with
  | free => rfl
  | grant hb => cases (h.blocked_none hi).symm.trans hb

theorem NoSemaphores.step (h : NoSemaphores k.toObjects) (hf : Flagged k.toObjects)
    (hi : BlockedInv k.toObjects L) (hn : NextFree k) (hs : machine.step k a k')
    (ha : a.Timely k) : NoSemaphores k'.toObjects := by
  obtain ⟨he, hr⟩ := hs
  by_cases hacq : ∃ y timeout, a = .svc (.semaphoreAcquire y timeout)
  · obtain ⟨y, timeout, rfl⟩ := hacq
    simp only [Act.run, svcHandler, Svc.call, bind_eq_ok, pure_eq_ok] at hr
    obtain ⟨caller, -, ⟨k₁, status, value⟩, ⟨⟨k₂, status'⟩, hcall, hk₁⟩, rfl⟩ := hr
    cases hk₁
    exact fun t => (congrFun (osiSemaphoreAcquire_timely hcall ha) t).trans (h t)
  by_cases hrel : ∃ y, a = .svc (.semaphoreRelease y)
  · obtain ⟨y, rfl⟩ := hrel
    simp only [Act.run, svcHandler, Svc.call, bind_eq_ok, pure_eq_ok] at hr
    obtain ⟨caller, -, ⟨k₁, status, value⟩, ⟨⟨k₂, status'⟩, hcall, hk₁⟩, rfl⟩ := hr
    cases hk₁
    exact fun t => (congrFun (h.release hi hcall) t).trans (h t)
  cases Act.run_waits he hr with
  | @edit _ o k₁ he hs hw =>
    have ho : NoSemaphores o := by
      cases he with
      | same hq => exact h.of_same hq.toSameWaits
      | @grant _ _ w pre t _ _ hq =>
        have hu : NoSemaphores (k.toObjects.unlink w pre.getLast? t) := h
        exact hu.of_same hq.toSameWaits
      | restart => exact h
    have hk₁ := NoSemaphores.switched (k := { k with toObjects := o }) ho (he.flagged hf) hs
    exact hk₁.of_same hw.toSameWaits
  | @block call w t x o₀ o o₁ ht hs hrun h₀ hb hd _ hw =>
    have hz : o₀.flags t = 0 := by
      rw [h₀.flags]
      exact hn t ((next_of_none hs).trans hrun)
    have hf₀ := hf.of_same h₀.toSameWaits
    have hsem : ∀ s, w ≠ .semaphore s := by
      rintro s rfl
      cases call with
      | semaphoreAcquire y timeout => exact hacq ⟨y, timeout, rfl⟩
      | semaphoreRelease y => exact hrel ⟨y, rfl⟩
      | _ => cases ht
    have ho := (h.of_same h₀.toSameWaits).blocks hb hz hsem
    exact (ho.detaches (hb.flagged hf₀ hz) hd).of_same hw.toSameWaits
  | contextSwitch ho => rwa [ho]

end Semaphores

section Lists

end Lists

section Search

end Search

section Dispatch

variable (hi : IdleReady k.toSched i) (hs : Steady k L)
include hi hs

theorem IdleReady.dispatching (ha : a.SparesIdle k) (hd : a.Dispatching k k₁ t) :
    (k₁.status i).isRunning := by
  cases hd with
  | direct => exact hi.running
  | found he _ _ _ hw =>
    have hi₁ := hi.enters ha he
    rcases wakeExpired_status (he.keepsQueued hs.queued hs.next) hw i with hst | ⟨-, hst⟩
    · dsimp only
      rwa [hst]
    · dsimp only
      rw [hst]
      rfl

theorem IdleReady.runsAlone (hp : ∀ x ∈ k.tasks, x ≠ i → priorityIdle < k.priority x)
    (ha : a.SparesIdle k) (hd : a.Dispatching k k₁ i) : k₁.RunsAlone i := by
  obtain ⟨-, L', hc⟩ := hd.callable hs.callable hs.next hs.free
  obtain ⟨l, q, hq, hcomp⟩ := hd.keepsQueued hs.queued hs.next
  have htop : ∀ x, (k₁.status x).isRunning → k₁.priority x ≤ k₁.priority i :=
    fun x => hd.top hs.queued hs.next hc.created.used
  have halive : (k₁.status i).isAlive := TaskStatus.isAlive_iff.2 (.inl (hi.dispatching hs ha hd))
  apply Sched.OnlyIdle.runsAlone
  rw [hq.onlyIdle_iff (hcomp trivial) halive htop]
  intro x hxi hx
  have hmem : x ∈ k₁.tasks := by
    refine hc.created.used x (.inr (.inr fun he => ?_))
    rw [he] at hx
    cases hx
  rw [hd.requeued.tasks] at hmem
  rw [hd.requeued.priority, hi.priority]
  exact hp x hmem hxi

end Dispatch

section Timely

theorem Parks.not_semaphore (h : Parks k r a w ms o) (ha : a.Timely k) (y : SemaphoreId) :
    w ≠ .semaphore y := by
  rintro rfl
  cases h with
  | semaphore _ htok ht =>
    rcases ha with hz | hpos
    · exact ht hz
    · rw [htok] at hpos
      cases hpos

theorem NoSemaphores.handsOver (h : NoSemaphores k.toObjects) (hh : HandsOver k a t o) :
    NoSemaphores o := by
  obtain ⟨w, -, hq⟩ := hh.quiet
  have hu : NoSemaphores (k.toObjects.unlink w none t) := h
  exact hu.of_same hq.toSameWaits

theorem NoSemaphores.enters (h : NoSemaphores k.toObjects) (hs : Steady k L) (ha : a.Timely k)
    (he : EntersSchedule k a k₁) : NoSemaphores k₁.toObjects := by
  have hsleep {k₀ : Kernel} {r : TaskId} {ms : Nat} (h : NoSemaphores k₀.toObjects)
      (hs : SleepsInto k₀ ms r k₁) : NoSemaphores k₁.toObjects := by
    obtain ⟨-, -, -, s, -, rfl⟩ := hs
    exact h
  cases he with
  | schedule | systick | abort => exact h
  | delay hd => exact hsleep h hd
  | @block _ r w ms o₀ o _ hp hb hd =>
    have hz : o₀.flags r = 0 := by
      rw [hp.sameWaits.flags]
      exact hs.free r ((next_of_none hd.scheduled).trans hd.running)
    have hbl : Blocks o₀ w r { o with flags := update o.flags r (o.flags r ||| w.flag) } :=
      ⟨_, o, hb, rfl⟩
    apply hsleep _ hd
    exact (h.of_same hp.sameWaits).blocks hbl hz (hp.not_semaphore ha)
  | queued hh => exact h.handsOver hh

theorem NoSemaphores.dispatching (h : NoSemaphores k.toObjects) (hs : Steady k L)
    (ha : a.Timely k) (hd : a.Dispatching k k₁ t) : NoSemaphores k₁.toObjects := by
  cases hd with
  | direct hh => exact h.handsOver hh
  | @found _ _ k₂ _ he =>
    have h₂ : NoSemaphores k₂.toObjects := h.enters hs ha he
    exact h₂

end Timely

section Survival

theorem Unblocked.asserts {call : Svc} (hu : Unblocked k.toObjects L r)
    (hc : (Act.svc call).Correct k r) : (Act.svc call).Asserts k r := by
  have hmutex : k.taskMutex r = none := Option.map_eq_none_iff.1 (hu.pointers (.mutex 0))
  have hsem : k.taskSemaphore r = none := Option.map_eq_none_iff.1 (hu.pointers (.semaphore 0))
  have hlock : k.taskRwlock r = none := Option.map_eq_none_iff.1 (hu.pointers (.rwlock 0))
  cases call with
  | mutexAcquire => exact .inl hmutex
  | mutexRelease => exact ⟨hc, hmutex⟩
  | semaphoreAcquire => exact .inl hsem
  | queueEnqueue | queueDequeue => exact hu.link
  | rwlockAcquireRead | rwlockAcquireWrite => exact .inl hlock
  | rwlockRelease => exact hc
  | delay | abort | semaphoreRelease => trivial

theorem Steady.unblocked (hs : Steady k L) (hsem : NoSemaphores k.toObjects)
    (hn : k.scheduled = none) (hr : k.running = some r) : Unblocked k.toObjects L r := by
  have hflagged : SemaphoreFlagged k.toObjects := fun t ht => absurd (hsem t) ht
  apply hs.callable.flagged.unblocked hflagged hs.callable.lists
  exact hs.free r ((next_of_none hn).trans hr)

variable (hi : IdleReady k.toSched i) (hs : Steady k L) (hsem : NoSemaphores k.toObjects)
include hi hs hsem

end Survival

section Steps
variable {ok : Kernel → Act → Prop}

end Steps

end Osh
