import Osh.QueueRuns
import Osh.WaitRuns

namespace Osh
open Lib

variable {k k' : Kernel} {t : TaskId} {a : Act} {w : Waitable}

def Act.usesSemaphore : Act → Bool
  | .svc (.semaphoreAcquire _ _) | .svc (.semaphoreRelease _) => true
  | _ => false

/-- A step does not restart or resume the task that runs next, and a release of a read-write lock
does not let the running task in. -/
def Act.NextSafe (k : Kernel) : Act → Prop
  | .taskStart t _ _ | .taskResume t => k.next ≠ some t
  | .svc (.rwlockRelease l) =>
    ∀ t, (k.nextWriter l = some t ∨ ∃ pre, FirstReader k.toObjects (k.blocked (.rwlock l)) pre t) →
      k.running ≠ some t
  | _ => True

theorem Flagged.waitsOn_none {o : Objects} (hf : Flagged o) (hz : o.flags t = 0)
    (hw : ∀ s, w ≠ .semaphore s) : o.waitsOn w t ≠ some w := by
  cases w with
  | mutex m => simp [hf.mutex_none (by rw [hz]; decide : o.flags t ≠ flagMutex)]
  | queue q => simp [hf.queue_none (by rw [hz]; decide : o.flags t ≠ flagQueue)]
  | rwlock l => simp [hf.rwlock_none (by rw [hz]; decide : o.flags t ≠ flagRwlock)]
  | semaphore s => exact absurd rfl (hw s)

/-- Nothing is handed to the task that runs next through a mutex or a queue. -/
theorem Act.grantee_ne_next (h : a.run k = .ok k') (hf : Flagged k.toObjects) (hn : NextFree k)
    (hs : ¬ a.usesSemaphore) (hl : ¬ a.usesRwlock) (ht : a.grantee k.toObjects = some t) :
    k.next ≠ some t := by
  intro hnext
  obtain ⟨w, hw, hwt⟩ := (Act.run_grant h ht).2 hl
  refine hf.waitsOn_none (hn t hnext) (fun s he => ?_) hwt
  subst he
  cases a <;> simp only [Act.target, reduceCtorEq, Option.some.injEq] at hw
  case svc call =>
    cases call <;> simp only [Svc.target, reduceCtorEq, Option.some.injEq] at hw
    all_goals exact hs rfl

theorem Act.not_sets_next (he : a.Enabled k) (h : a.run k = .ok k') (hf : Flagged k.toObjects)
    (hn : NextFree k) (hs : ¬ a.usesSemaphore) (ha : a.NextSafe k) {new : TaskStatus}
    (hset : a.Sets k t new) (ht : k.next = some t) : new ≠ .idle := by
  have hgrant (hl : ¬ a.usesRwlock)
      (hset : a.grantee k.toObjects = some t ∨ a.GrantsReader k.toObjects t) : False := by
    rcases hset with hg | hr
    · exact Act.grantee_ne_next h hf hn hs hl hg ht
    · exact Act.not_grantsReader hl t hr
  cases a with
  | taskFinished => rw [hset.2]; decide
  | taskStart task _ _ | taskResume task => exact absurd ht (hset.1 ▸ ha)
  | taskSuspend task => rw [hset.2]; decide
  | svc call =>
    cases call with
    | rwlockRelease l =>
      have hg : k.nextWriter l = some t ∨
          ∃ pre, FirstReader k.toObjects (k.blocked (.rwlock l)) pre t := hset.1.imp_right And.right
      exact absurd ((next_of_none he).symm.trans ht) (ha t hg)
    | rwlockAcquireRead _ _ | rwlockAcquireWrite _ _ =>
      exact hset.1.elim (fun hg => by cases hg) False.elim
    | _ => exact (hgrant (by simp [Act.usesRwlock]) hset.1).elim
  | _ => exact (hgrant (by simp [Act.usesRwlock]) hset.1).elim

theorem next_not_idle_of_reach
    (h : machine.Reach (fun k a => ¬ a.usesSemaphore ∧ a.NextSafe k) k) :
    NextInv (fun st => st ≠ .wait ∧ st ≠ .idle) k.toSched := by
  induction h with
  | init h =>
    obtain ⟨-, hn⟩ := machine_init_sched h
    exact ⟨fun t ht => by rw [hn.status t ht]; decide, hn.apart⟩
  | @step k k' a h ha hs ih =>
    obtain ⟨hq, -⟩ := reach_queued (c := False) h fun hc => hc.elim
    obtain ⟨hf, hn⟩ := reach_flagged h
    apply ih.step hq (Act.run_effect hs.2) hs.1 (by decide) (by decide)
    intro t new hset ht
    constructor
    · rintro rfl
      exact Act.not_sets_wait hset
    · exact Act.not_sets_next hs.1 hs.2 hf hn ha.1 ha.2 hset ht

/-- As long as nothing makes the next task idle from outside, the scheduler is never entered with
an idle running task. -/
theorem running_not_idle_of_reach
    (h : machine.Reach (fun k a => ¬ a.usesSemaphore ∧ a.NextSafe k) k) (hs : k.scheduled = none) :
    ∀ t, k.running = some t → k.status t ≠ .idle := by
  intro t ht
  exact ((next_not_idle_of_reach h).status t ((next_of_none hs).trans ht)).2

set_option maxRecDepth 10000 in
theorem running_not_idle_after_other_resume : ∃ k : Kernel,
    k.running = some 1 ∧ k.status 2 = .idle ∧ k.status 1 ≠ .idle := by
  obtain ⟨k, hk, hs, hr, hst⟩ := (Boot.simple [0, 16, 16] (by simp)).exists_after
    (fun k a => (¬ a.usesSemaphore ∧ ¬ a.usesRwlock ∧ ¬ a.restarts) ∧
      (a.suspends → a = .taskSuspend 2 ∨ a = .taskResume 2) ∧ k.next ≠ some 2)
    (fun k => k.scheduled = none ∧ k.running = some 1 ∧ k.status 2 = .idle)
    [.schedule, .contextSwitch, .taskSuspend 2, .taskResume 2] (by decide)
  refine ⟨k, hr, hst, running_not_idle_of_reach (hk.mono fun k a ha => ⟨ha.1.1, ?_⟩) hs 1 hr⟩
  cases a with
  | taskResume t =>
    rcases ha.2.1 rfl with he | he
    · cases he
    · cases he
      exact ha.2.2
  | taskStart t p q => exact absurd rfl ha.1.2.2
  | svc call => cases call <;> first | trivial | exact absurd rfl ha.1.2.1
  | _ => trivial

set_option maxRecDepth 10000 in
/-- A task that is suspended and resumed while it runs is idle with nothing scheduled. -/
theorem running_idle_after_resume : ∃ k, machine.Reach
    (fun _ a => ¬ a.usesSemaphore) k ∧ k.scheduled = none ∧ k.running = some 1 ∧
      k.status 1 = .idle := by
  exact (Boot.simple [0, 16] (by simp)).exists_after (fun _ a => ¬ a.usesSemaphore)
    (fun k => k.scheduled = none ∧ k.running = some 1 ∧ k.status 1 = .idle)
    [.schedule, .contextSwitch, .taskSuspend 1, .taskResume 1] (by decide)

end Osh
