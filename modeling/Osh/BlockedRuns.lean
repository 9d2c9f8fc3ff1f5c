import Osh.Stops
import Osh.WaitHistory

namespace Osh
open Function (update)
open Lib

variable {k k' k₁ : Kernel} {s s' : Sched} {o o' : Objects} {t x r : TaskId} {w : Waitable}
  {a : Act} {h : WaitHistory} {L : Waitable → List TaskId} {n ms : Nat}

/-- A failed assertion of `blocked_append`, `blocked_enq` or `blocked_deq`. -/
def Stop.isBlocked : Stop → Prop
  | .assertion .blockedAppend | .assertion .blockedEnq | .assertion .blockedDeq => True
  | _ => False

theorem Stop.isBlocked.isChecked {e : Stop} (h : e.isBlocked) : e.isChecked := by
  unfold Stop.isBlocked at h
  split at h
  any_goals exact trivial
  exact h.elim

theorem Stop.isBlocked.avoids {α : Type} {x : Except Stop α} (hx : Avoids Stop.isChecked x) :
    Avoids Stop.isBlocked x := hx.mono fun _ => Stop.isBlocked.isChecked

theorem dispatchSwitch_avoids {running : TaskId} :
    Avoids Stop.isBlocked (dispatchSwitch s running t) := by
  apply Avoids.bind
  · unfold dispatchLeave
    split <;> first | exact .ok | exact Stop.isBlocked.avoids runqueueRemove_avoids
  intro s₁ _
  apply Avoids.bind
  · unfold dispatchRequeue
    split_ifs
    · apply Stop.isBlocked.avoids
      exact waitqueueRemove_avoids.bind fun _ _ => runqueueAdd_avoids
    · exact .ok
  intro s₂ _
  apply Avoids.bind
  · unfold dispatchIdleCheck
    split_ifs
    · apply (Stop.isBlocked.avoids runqueueLength_avoids).bind
      intro l _
      exact osAssert_spares id
    · exact .ok
  · exact fun _ _ => .pure

theorem osiDispatch_avoids : Avoids Stop.isBlocked (osiDispatch k t) := by
  unfold osiDispatch
  cases k.running with
  | none => exact .error id
  | some running =>
    dsimp only
    split_ifs
    · exact .ok
    · apply (Stop.isBlocked.avoids dispatchDetach_avoids).bind
      exact fun _ _ => dispatchSwitch_avoids.bind fun _ _ => .pure

section Lists
variable {l : List TaskId}

structure Unblocked (o : Objects) (L : Waitable → List TaskId) (t : TaskId) : Prop where
  notMem : ∀ w, t ∉ L w
  link : o.nblocked t = none
  pointers : ∀ w, o.waitsOn w t = none

theorem Unblocked.of_same (h : Unblocked o L t) (hs : SameWaits o o') : Unblocked o' L t where
  notMem := h.notMem
  link := by rw [hs.nblocked]; exact h.link
  pointers w := by rw [hs.waitsOn]; exact h.pointers w

theorem blockedAppendLoop_avoids {b : TaskId} (hc : Chain o.nblocked (some b) l) (ht : t ∉ l) :
    Avoids Stop.isBlocked (blockedAppendLoop t n o b) := by
  induction n generalizing b l with
  | zero => exact .error id
  | succ n ih =>
    obtain ⟨l, rfl, hl⟩ := chain_some.1 hc
    rw [List.mem_cons, not_or] at ht
    have hlink : o.nblocked b ≠ some t := by
      intro he
      obtain ⟨m, rfl, -⟩ := chain_some.1 (he ▸ hl)
      exact ht.2 List.mem_cons_self
    unfold blockedAppendLoop
    apply (osAssert_holds hlink).bind
    intro _ _
    apply (osAssert_holds (Ne.symm ht.1)).bind
    intro _ _
    cases hb : o.nblocked b with
    | none => exact .ok
    | some c => exact ih (hb ▸ hl) ht.2

theorem blockedEnq_avoids (hi : BlockedInv o L) (ht : Unblocked o L t) :
    Avoids Stop.isBlocked (blockedEnq n o w t) := by
  apply Avoids.bind
  · apply (osAssert_holds ht.link).bind
    intro _ _
    have hc := hi.lists.chain w
    cases hb : o.blocked w with
    | none => exact .ok
    | some b => exact blockedAppendLoop_avoids (hb ▸ hc) (ht.notMem w)
  · intro o₁ ho
    have hw : o₁.waitsOn w t = none := by
      rw [blockedAppend_relisted ho]
      have hp := ht.pointers w
      cases w <;> exact hp
    exact (osAssert_holds hw).bind fun _ _ => .pure

theorem blockedDeq_avoids (hi : BlockedInv o L) : Avoids Stop.isBlocked (blockedDeq o w) := by
  have hc := hi.lists.chain w
  unfold blockedDeq
  cases hb : o.blocked w with
  | none => exact .ok
  | some t =>
    obtain ⟨m, hm, -⟩ := chain_some.1 (hb ▸ hc)
    have hw := (hi.waits w t (by rw [hm]; exact List.mem_cons_self)).1
    exact (osAssert_holds hw).bind fun _ _ => .pure

end Lists

theorem Act.run_avoids (hi : BlockedInv k.toObjects L)
    (hc : k.scheduled = none → ∀ t, k.running = some t → Unblocked k.toObjects L t)
    (he : a.Enabled k) (hr : ¬ a.restarts) : Avoids Stop.isBlocked (a.run k) := by
  apply Spared.run _ hr
  refine ⟨fun _ => Stop.isBlocked.isChecked, fun hcall o w t hs hrun => ?_, fun o w hs => ?_,
    fun _ _ _ => osiDispatch_avoids⟩
  · exact blockedEnq_avoids (hi.of_same hs) ((hc (he.of_call hcall) t hrun).of_same hs)
  · exact blockedDeq_avoids (hi.of_same hs)

def SemaphoreFlagged (o : Objects) : Prop :=
  ∀ t, o.taskSemaphore t ≠ none → o.flags t = flagSemaphore

theorem SemaphoreFlagged.of_same (h : SemaphoreFlagged o) (hs : SameWaits o o') :
    SemaphoreFlagged o' := by
  intro t ht
  rw [hs.flags]
  rw [hs.taskSemaphore] at ht
  exact h t ht

theorem SemaphoreFlagged.pointer_none (h : SemaphoreFlagged o) (ht : o.flags t = 0) :
    o.taskSemaphore t = none := by
  by_contra hne
  cases ht.symm.trans (h t hne)

/-- A task that is dispatched points to no semaphore: the assertion on mutexes fails otherwise. -/
theorem SemaphoreFlagged.detaches (h : SemaphoreFlagged o) (hf : Flagged o)
    (hd : Detaches o t o') : SemaphoreFlagged o' := by
  have hnone : o.taskSemaphore t = none := by
    rcases hd.cases hf with ⟨hz, -⟩ | ⟨_, _, _, -, -, hs, -, -⟩
    · exact h.pointer_none hz
    · exact hs
  obtain ⟨he, -⟩ := hd.fields hf
  intro x hx
  rw [he] at hx ⊢
  have hxt : x ≠ t := by
    rintro rfl
    exact hx hnone
  dsimp only
  rw [Function.update_of_ne hxt]
  exact h x hx

theorem SemaphoreFlagged.blocks (h : SemaphoreFlagged o) (hb : Blocks o w t o')
    (hz : o.flags t = 0) : SemaphoreFlagged o' := by
  obtain ⟨o₁, hr, -, rfl⟩ := hb.fields hz
  have hnone := h.pointer_none hz
  intro x hx
  rw [hr] at hx ⊢
  by_cases hxt : x = t
  · subst hxt
    cases w with
    | semaphore s => exact Function.update_self ..
    | _ => exact absurd hnone hx
  · dsimp only
    rw [Function.update_of_ne hxt]
    apply h x
    cases w with
    | semaphore s =>
      dsimp only [Objects.setWaitsOn] at hx
      rwa [Function.update_of_ne hxt] at hx
    | _ => exact hx

theorem SemaphoreFlagged.switched (h : SemaphoreFlagged k.toObjects) (hf : Flagged k.toObjects)
    (hs : Switched k k') : SemaphoreFlagged k'.toObjects := by
  cases hs with
  | same ho => rwa [ho]
  | dispatched hd => exact h.detaches hf hd

theorem SemaphoreFlagged.step (h : SemaphoreFlagged k.toObjects) (hf : Flagged k.toObjects)
    (hn : NextFree k) (heff : WaitEffect k k' a) (hr : ¬ a.restarts) :
    SemaphoreFlagged k'.toObjects := by
  cases heff with
  | @edit _ o k₁ he hs hw =>
    have ho : SemaphoreFlagged o := by
      cases he with
      | same hq => exact h.of_same hq.toSameWaits
      | @grant _ _ w pre t _ _ hq =>
        have hu : SemaphoreFlagged (k.toObjects.unlink w pre.getLast? t) := h
        exact hu.of_same hq.toSameWaits
      | restart => exact absurd rfl hr
    have hk₁ := SemaphoreFlagged.switched (k := { k with toObjects := o }) ho (he.flagged hf) hs
    exact hk₁.of_same hw.toSameWaits
  | @block call w t x o₀ o o₁ _ hs hrun h₀ hb hd _ hw =>
    have hz : o₀.flags t = 0 := by
      rw [h₀.flags]
      exact hn t ((next_of_none hs).trans hrun)
    have hf₀ := hf.of_same h₀.toSameWaits
    have ho := (h.of_same h₀.toSameWaits).blocks hb hz
    exact (ho.detaches (hb.flagged hf₀ hz) hd).of_same hw.toSameWaits
  | contextSwitch ho => rwa [ho]

def Objects.PointsOnly (o : Objects) (t : TaskId) : Waitable → Prop
  | .mutex m => o.taskMutex t = some m ∧ o.taskQueue t = none ∧ o.taskSemaphore t = none ∧
      o.taskRwlock t = none
  | .queue q => o.taskQueue t = some q ∧ o.taskMutex t = none ∧ o.taskSemaphore t = none ∧
      o.taskRwlock t = none
  | .semaphore s => o.taskSemaphore t = some s ∧ o.taskMutex t = none ∧ o.taskQueue t = none ∧
      o.taskRwlock t = none
  | .rwlock l => o.taskRwlock t = some l ∧ o.taskMutex t = none ∧ o.taskQueue t = none ∧
      o.taskSemaphore t = none

/-- The blocked list of each object `w` is the list `L w` of the tasks that blocked on it, in the
order in which they did. -/
structure Represents (k : Kernel) (h : WaitHistory) (L : Waitable → List TaskId) : Prop where
  chain : ∀ w, Chain k.nblocked (k.blocked w) (L w)
  nodup : ∀ w, (L w).Nodup
  disjoint : ∀ w w' t, t ∈ L w → t ∈ L w' → w = w'
  points : ∀ w, ∀ t ∈ L w, k.PointsOnly t w
  pending : ∀ w, ∀ t ∈ L w, h.pending t = some w
  order : ∀ w, (L w).Pairwise fun t t' => h.since t < h.since t'
  running : k.scheduled = none → ∀ t, k.running = some t → ∀ w, t ∉ L w

theorem Flagged.pointsOnly (hf : Flagged o) (hs : SemaphoreFlagged o)
    (hw : o.waitsOn w t = some w) (hfl : o.flags t = w.flag) : o.PointsOnly t w := by
  have hm : w.flag ≠ flagMutex → o.taskMutex t = none := fun h => hf.mutex_none (hfl ▸ h)
  have hq : w.flag ≠ flagQueue → o.taskQueue t = none := fun h => hf.queue_none (hfl ▸ h)
  have hr : w.flag ≠ flagRwlock → o.taskRwlock t = none := fun h => hf.rwlock_none (hfl ▸ h)
  have hsem : w.flag ≠ flagSemaphore → o.taskSemaphore t = none := by
    intro h
    by_contra hne
    exact h (hfl.symm.trans (hs t hne))
  have hne : flagMutex ≠ flagQueue ∧ flagMutex ≠ flagSemaphore ∧ flagMutex ≠ flagRwlock ∧
      flagQueue ≠ flagSemaphore ∧ flagQueue ≠ flagRwlock ∧ flagSemaphore ≠ flagRwlock := by decide
  obtain ⟨hmq, hms, hmr, hqs, hqr, hsr⟩ := hne
  cases w with
  | mutex m => exact ⟨by simpa using hw, hq hmq, hsem hms, hr hmr⟩
  | queue q => exact ⟨by simpa using hw, hm hmq.symm, hsem hqs, hr hqr⟩
  | semaphore s => exact ⟨by simpa using hw, hm hms.symm, hq hqs.symm, hr hsr⟩
  | rwlock l => exact ⟨by simpa using hw, hm hmr.symm, hq hqr.symm, hsem hsr.symm⟩

theorem Flagged.unblocked (hf : Flagged o) (hs : SemaphoreFlagged o) (hi : BlockedInv o L)
    (hz : o.flags t = 0) : Unblocked o L t where
  notMem := hi.notMem hz
  link := hi.lists.unlinked t (hi.notMem hz)
  pointers w := by
    have hm := hf.mutex_none (t := t) (by rw [hz]; decide)
    have hq := hf.queue_none (t := t) (by rw [hz]; decide)
    have hr := hf.rwlock_none (t := t) (by rw [hz]; decide)
    have hsem := hs.pointer_none hz
    cases w with
    | mutex m => simp only [Objects.waitsOn, hm, Option.map_none]
    | queue q => simp only [Objects.waitsOn, hq, Option.map_none]
    | semaphore s => simp only [Objects.waitsOn, hsem, Option.map_none]
    | rwlock l => simp only [Objects.waitsOn, hr, Option.map_none]

theorem Waits.represents (hw : Waits k h L) (hf : Flagged k.toObjects) (hn : NextFree k)
    (hs : SemaphoreFlagged k.toObjects) : Represents k h L where
  chain := hw.blocked.lists.chain
  nodup := hw.blocked.lists.nodup
  disjoint := hw.blocked.lists.disjoint
  points w t ht := by
    obtain ⟨hp, hfl⟩ := hw.blocked.waits w t ht
    exact hf.pointsOnly hs hp hfl
  pending := hw.pending
  order := hw.order
  running hsched t hr w := hw.blocked.notMem (hn t ((next_of_none hsched).trans hr)) w

theorem machine_init_semaphoreFlagged (hk : machine.init k) : SemaphoreFlagged k.toObjects := by
  obtain ⟨b, hb⟩ := hk
  intro t ht
  rw [(b.start_unused hb).waits.taskSemaphore] at ht
  exact absurd rfl ht

/-- As long as no task is restarted, the blocked lists are intact and every task on one points back
to it alone, so that no step fails in an assertion of `blocked_append`, `blocked_enq` or
`blocked_deq`. -/
theorem represents_of_reach {p : Kernel × WaitHistory}
    (hp : (machine.withHistory .start .record).Reach (fun _ a => ¬ a.restarts) p) :
    (∃ L, Represents p.1 p.2 L) ∧ ∀ a : Act, a.Enabled p.1 → ¬ a.restarts →
      ∀ stop, a.run p.1 = .error stop → ¬ stop.isBlocked := by
  have hinv : Waiting p.1 p.2 ∧ SemaphoreFlagged p.1.toObjects := by
    refine hp.history_invariant (J := fun k h => Waiting k h ∧ SemaphoreFlagged k.toObjects)
      (fun k hk => ⟨.init hk, machine_init_semaphoreFlagged hk⟩) ?_
    intro k h a k' _ hi hr hs
    refine ⟨hi.1.step hs (.of_not_restarts hr), ?_⟩
    exact hi.2.step hi.1.1 hi.1.2.1 (Act.run_waits hs.1 hs.2) hr
  obtain ⟨⟨hf, hn, L, hw⟩, hs⟩ := hinv
  refine ⟨⟨L, hw.represents hf hn hs⟩, fun a he hr => Act.run_avoids hw.blocked ?_ he hr⟩
  intro hsched t hrun
  exact hf.unblocked hs hw.blocked (hn t ((next_of_none hsched).trans hrun))

set_option maxRecDepth 10000 in
theorem represents_after_two_blocks : ∃ (k : Kernel) (h : WaitHistory)
    (L : Waitable → List TaskId), L (.mutex 0) = [2, 3] ∧ Represents k h L := by
  obtain ⟨k, hk, h2, h3, hend⟩ := (Boot.simple [0, 16, 16, 16] (by simp)).exists_after
    (fun _ a => ¬ a.restarts)
    (fun k => k.blocked (.mutex 0) = some 2 ∧ k.nblocked 2 = some 3 ∧ k.nblocked 3 = none)
    [.schedule, .contextSwitch, .svc (.mutexAcquire 0 0), .systick, .contextSwitch,
      .svc (.mutexAcquire 0 uint32Max), .contextSwitch, .systick, .contextSwitch,
      .svc (.mutexAcquire 0 uint32Max)] (by decide)
  have hhist : ∃ h, (machine.withHistory WaitHistory.start WaitHistory.record).Reach
      (fun _ a => ¬ a.restarts) (k, h) := hk.exists_history fun _ _ _ _ ha => ha
  obtain ⟨h, hh⟩ := hhist
  obtain ⟨⟨L, hL⟩, -⟩ := represents_of_reach hh
  exact ⟨k, h, L, (hL.chain (.mutex 0)).unique ⟨h2, h3, hend⟩, hL⟩

end Osh
