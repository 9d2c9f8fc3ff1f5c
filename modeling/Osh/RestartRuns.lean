import Osh.FixedRun
import Osh.WaitRuns

namespace Osh
open Function (update)
open Lib

variable {k k' : Kernel} {o o' : Objects} {t : TaskId} {w : Waitable} {a : Act}
  {L : Waitable → List TaskId}

structure Detached (o : Objects) (t : TaskId) : Prop where
  lists : ∀ w, ¬ o.OnList w t
  taskQueue : o.taskQueue t = none
  taskMutex : o.taskMutex t = none
  taskSemaphore : o.taskSemaphore t = none
  taskRwlock : o.taskRwlock t = none
  nblocked : o.nblocked t = none
  flags : o.flags t = 0

/-- Apart from `t`, the blocked lists hold the same tasks in the same order. -/
def SameOthers (t : TaskId) (o o' : Objects) : Prop :=
  ∀ w l, Chain o.nblocked (o.blocked w) l →
    ∃ l', Chain o'.nblocked (o'.blocked w) l' ∧ l'.erase t = l.erase t

/-- A step restarts only tasks that are on no blocked list and point to no semaphore. -/
def Act.RestartsClean (k : Kernel) : Act → Prop
  | .taskStart t _ _ => (∀ w, ¬ k.OnList w t) ∧ k.taskSemaphore t = none
  | _ => True

theorem Act.RestartsClean.free (h : a.RestartsClean k) : a.RestartsFree k := by
  cases a with
  | taskStart => exact h.1
  | _ => trivial

def Act.PutsOn (k : Kernel) (w : Waitable) (t : TaskId) (a : Act) : Prop :=
  a.isCall ∧ a.target = some w ∧ k.running = some t ∧ ∃ k', machine.step k a k' ∧ k'.OnList w t

/-- Until `t` blocks on `w` again, nothing that works on `w` hands anything to `t` or writes to its
stacked frame, the calls of `t` itself apart. Every restart on the way is clean as well. -/
def LeftAlone (k : Kernel) (t : TaskId) : Prop :=
  ∀ w k₁ a k₂, (machine.startingAt k).Reach (fun k a => a.RestartsClean k ∧ ¬ a.PutsOn k w t) k₁ →
    machine.step k₁ a k₂ → a.target = some w →
      a.grantee k₁.toObjects ≠ some t ∧ ¬ a.GrantsReader k₁.toObjects t ∧
        ((a.isCall → k₁.running ≠ some t) → k₂.regs t = k₁.regs t)

theorem Act.not_grants (hw : a.target = some w) (ht : ¬ k.OnList w t) :
    a.grantee k.toObjects ≠ some t ∧ ¬ a.GrantsReader k.toObjects t := by
  constructor
  · intro h
    obtain ⟨w', hw', hl⟩ := Act.onList_of_grantee h
    cases hw.symm.trans hw'
    exact ht hl
  · intro h
    obtain ⟨w', hw', hl⟩ := Act.onList_of_grantsReader h
    cases hw.symm.trans hw'
    exact ht hl

theorem not_onList_step (h : machine.Reach (fun k a => a.RestartsClean k) k)
    (hs : machine.step k a k') (ha : a.RestartsClean k) (hp : ¬ a.PutsOn k w t)
    (ht : ¬ k.OnList w t) : ¬ k'.OnList w t := by
  obtain ⟨L, hi⟩ := reach_blocked h fun _ _ ha => ha.free
  obtain ⟨hf, hn⟩ := reach_flagged h
  obtain ⟨L₁, hL, hi'⟩ := (Act.run_waits hs.1 hs.2).blockedInv hs.1 hf hn hi ha.free
  intro hl
  have hmem := (mem_without.1 (hi'.mem_iff.2 hl)).1
  rcases hL.mem hmem with hm | ⟨hc, hw, hr⟩
  · exact ht (hi.mem_iff.1 hm)
  · exact hp ⟨hc, hw, hr, k', hs, hl⟩

theorem leftAlone_of_not_onList (h : machine.Reach (fun k a => a.RestartsClean k) k)
    (ht : ∀ w, ¬ k.OnList w t) : LeftAlone k t := by
  intro w k₁ a k₂ hr hs hw
  have hinv : machine.Reach (fun k a => a.RestartsClean k) k₁ ∧ ¬ k₁.OnList w t := by
    refine hr.invariant (I := fun k => machine.Reach (fun k a => a.RestartsClean k) k ∧
      ¬ k.OnList w t) ?_ ?_
    · rintro _ rfl
      exact ⟨h, ht w⟩
    · rintro k a k' ⟨hk, hl⟩ ⟨ha, hp⟩ hs
      exact ⟨.step hk ha hs, not_onList_step hk hs ha hp hl⟩
  obtain ⟨hk, hl⟩ := hinv
  obtain ⟨hg, hgr⟩ := Act.not_grants hw hl
  obtain ⟨hf, hn⟩ := reach_flagged hk
  refine ⟨hg, hgr, fun hcall => ((Act.run_waits hs.1 hs.2).framed hf hn).2 t ?_⟩
  cases a with
  | svc call =>
    rintro (he | he | he)
    · exact hcall rfl he
    · exact hg he
    · exact hgr he
  | enqueueIsr => exact hg
  | taskStart => cases hw
  | _ => exact id

/-- The tasks before `t` are still there when `t` is restarted, and lead to it. -/
theorem BlockedInv.onList_restarted (hi : BlockedInv o L) (params : Nat) (ht : o.OnList w t) :
    (o.restarted t params).OnList w t := by
  obtain ⟨pre, hp⟩ := ht
  obtain ⟨post, hpost⟩ := (hi.lists.chain w).eq_append hp
  have hn := hi.lists.nodup w
  rw [hpost] at hn
  have htp : t ∉ pre := fun h => (List.nodup_append.1 hn).2.2 t h t List.mem_cons_self rfl
  exact ⟨pre, hp.update_of_notMem htp⟩

/-- A restart detaches the task, hurts no other and leaves nothing behind exactly if the task was
on no blocked list and pointed to no semaphore. -/
theorem taskStart_detaches_iff {priority params : Nat}
    (h : machine.Reach (fun k a => a.RestartsClean k) k)
    (hs : machine.step k (.taskStart t priority params) k') :
    Detached k'.toObjects t ∧ SameOthers t k.toObjects k'.toObjects ∧ LeftAlone k' t ↔
      (∀ w, ¬ k.OnList w t) ∧ k.taskSemaphore t = none := by
  have ho : k'.toObjects = k.toObjects.restarted t params := osTaskStartOptions_objects hs.2
  obtain ⟨L, hi⟩ := reach_blocked h fun _ _ ha => ha.free
  constructor
  · rintro ⟨hd, -, -⟩
    rw [ho] at hd
    exact ⟨fun w hl => hd.lists w (hi.onList_restarted params hl), hd.taskSemaphore⟩
  · rintro ⟨hl, hsem⟩
    have hmem : ∀ w, t ∉ L w := fun w hm => hl w (hi.mem_iff.1 hm)
    have hi' := hi.restarted hmem params
    have hl' : ∀ w, ¬ (k.toObjects.restarted t params).OnList w t := fun w h =>
      hmem w (hi'.mem_iff.2 h)
    have hclean : Act.RestartsClean k (.taskStart t priority params) := ⟨hl, hsem⟩
    refine ⟨?_, fun w l hc => ?_, leftAlone_of_not_onList (.step h hclean hs) ?_⟩
    · rw [ho]
      exact ⟨hl', Function.update_self .., Function.update_self .., hsem,
        Function.update_self .., Function.update_self .., Function.update_self ..⟩
    · rw [ho]
      exact ⟨L w, hi'.lists.chain w, by rw [hc.unique (hi.lists.chain w)]⟩
    · rw [ho]
      exact hl'

theorem Act.RestartsClean.of_not_restarts (h : ¬ a.restarts) : a.RestartsClean k := by
  cases a with
  | taskStart => exact absurd rfl h
  | _ => trivial

set_option maxRecDepth 10000 in
theorem taskStart_detaches_finished : ∃ k k' : Kernel,
    k.status 1 = .finished ∧ k'.status 1 = .idle ∧ Detached k'.toObjects 1 ∧
      SameOthers 1 k.toObjects k'.toObjects ∧ LeftAlone k' 1 := by
  obtain ⟨k, k', hk, hs, ⟨hst, hf, hsem⟩, hst'⟩ := (Boot.simple [0, 16] (by simp)).exists_step
    (fun _ a => ¬ a.restarts)
    (fun k => k.status 1 = .finished ∧ k.flags 1 = 0 ∧ k.taskSemaphore 1 = none)
    (fun k' => k'.status 1 = .idle)
    [.schedule, .contextSwitch, .taskFinished, .schedule, .contextSwitch] (.taskStart 1 16 7)
    (by decide)
  have hk' := hk.mono fun k _ ha => Act.RestartsClean.of_not_restarts (k := k) ha
  obtain ⟨L, hi⟩ := reach_blocked hk' fun _ _ ha => ha.free
  refine ⟨k, k', hst, hst', (taskStart_detaches_iff hk' hs).2 ⟨fun w hw => ?_, hsem⟩⟩
  exact hi.notMem hf w (hi.mem_iff.2 hw)

set_option maxRecDepth 10000 in
/-- A task that is restarted while it waits for a mutex stays on the blocked list. -/
theorem taskStart_leaves_onList : ∃ k k', machine.Reach (fun k a => a.RestartsClean k) k ∧
    machine.step k (.taskStart 2 16 0) k' ∧ k'.OnList (.mutex 0) 2 := by
  obtain ⟨k, k', hk, hs, -, hb⟩ := (Boot.simple [0, 16, 16] (by simp)).exists_step
    (fun _ a => ¬ a.restarts) (fun _ => True) (fun k' => k'.blocked (.mutex 0) = some 2)
    [.schedule, .contextSwitch, .svc (.mutexAcquire 0 0), .systick, .contextSwitch,
      .svc (.mutexAcquire 0 uint32Max), .contextSwitch] (.taskStart 2 16 0) (by decide)
  exact ⟨k, k', hk.mono fun k _ ha => .of_not_restarts ha, hs, [], hb⟩

end Osh
