import Osh.PriorityRuns
import Osh.SuspendRuns
import Osh.WakeRuns

namespace Osh
open Function (update)
open Lib

variable {k k' k₀ : Kernel} {s s' : Sched} {t x : TaskId} {a : Act} {ok : Kernel → Act → Prop}

/-- The task returned from its function, or was aborted. -/
def TaskStatus.hasEnded (st : TaskStatus) : Prop := st = .finished ∨ st = .aborted

instance (st : TaskStatus) : Decidable st.hasEnded :=
  inferInstanceAs (Decidable (st = .finished ∨ st = .aborted))

/-- The task rests, or was suspended while it rested. -/
def TaskStatus.IsParked (st : TaskStatus) : Prop := st.IsResting ∨ st = .suspended

theorem TaskStatus.IsParked.not_hasEnded {st : TaskStatus} (h : st.IsParked) : ¬ st.hasEnded := by
  rcases h with (rfl | rfl) | rfl <;> decide

theorem TaskStatus.hasEnded.not_isAlive {st : TaskStatus} (h : st.hasEnded) :
    st.isAlive = false := by
  rcases h with rfl | rfl <;> rfl

theorem TaskStatus.hasEnded.preempted {st : TaskStatus} (h : st.hasEnded) : st.preempted = st := by
  rcases h with rfl | rfl <;> rfl

theorem Shifted.hasEnded_iff (h : Shifted s s' x) :
    (s'.status x).hasEnded ↔ (s.status x).hasEnded := by
  cases h with
  | stays hst => rw [hst]
  | preempted _ hst =>
    rw [hst]
    cases s.status x <;> decide
  | woken ht hst =>
    rw [ht, hst]
    decide
  | dispatched ht hst =>
    constructor
    · intro he
      rw [hst] at he
      rcases he with he | he <;> cases he
    · intro he
      cases he.not_isAlive.symm.trans ht

section Parked

theorem Shifted.isParked (h : Shifted s s' x) (hx : (s.status x).IsParked)
    (hs : s'.scheduled ≠ some x) : (s'.status x).IsParked := by
  rcases hx with hx | hx
  · exact .inl (h.isResting hx hs)
  · exact .inr (h.suspended_iff.2 hx)

theorem TaskEffect.isParked (h : TaskEffect k k' x a) (hx : (k.status x).IsParked)
    (he : a.Enabled k) (hnext : k.next ≠ some x) (hs : k'.scheduled ≠ some x) :
    (k'.status x).IsParked := by
  cases h with
  | shifted h => exact h.isParked hx hs
  | leaves hrun => exact absurd ((next_of_none he).trans hrun) hnext
  | readied _ hst _ h => exact .inl (h.isResting (.inr hst) hs)
  | granted _ _ hs' => exact absurd hs' hs
  | finished _ ha =>
    rw [ha] at hx
    rcases hx with (hx | hx) | hx <;> cases hx
  | suspended hst => exact .inr hst
  | switched hst => rwa [hst]

def BlockedParked (k : Kernel) : Prop :=
  ∀ t, k.flags t ≠ 0 → (k.status t).IsParked

theorem Act.Sleeps.isResting (hsl : a.Sleeps k k' t) (hs : machine.step k a k')
    (hq : Queued False k.toSched) (hn : NextInv (· ≠ .wait) k.toSched) (hf : Flagged k.toObjects)
    (hfree : NextFree k) (hfree' : NextFree k') (hsched : k'.scheduled ≠ some t) :
    (k'.status t).IsResting := by
  obtain ⟨o, w, ms, k₁, hb, hk⟩ := Act.sleeps_cases hs hf hfree hfree' hsl
  obtain ⟨o', -, hd⟩ := (block_eq_ok (k := { k with toObjects := o }) hsl.2.1).1 hb
  obtain ⟨r, delay, s, hrun, -, hset, hsched', -⟩ := svcDelay_cases hd
  obtain rfl : t = r := Option.some.inj (hsl.2.1.symm.trans hrun)
  have he : k.scheduled = none := hs.1.of_call hsl.1
  have hst : s.status = update k.status t .wait := (osiTaskStatusSet_rethreaded hset).status
  rw [hk] at hsched ⊢
  apply (Shifted.reschedules (hq.sleeps hn he hrun hset) hsched').isResting _ hsched
  rw [hst, Function.update_self]
  exact .inl rfl

theorem BlockedParked.step (h : BlockedParked k) (hs : machine.step k a k')
    (hq : Queued False k.toSched) (hn : NextInv (· ≠ .wait) k.toSched) (hf : Flagged k.toObjects)
    (hfree : NextFree k) : BlockedParked k' := by
  intro x hx
  have hwaits := Act.run_waits hs.1 hs.2
  have hfree' := (hwaits.flagged hf hfree).2
  have hsched : k'.scheduled ≠ some x := fun he => hx (hfree' x (next_of_scheduled he))
  by_cases hz : k.flags x = 0
  · have hc : a.isCall ∧ k.running = some x :=
      by_contra fun hc => hx (hwaits.flags hf hfree hz hc)
    have hsl : a.Sleeps k k' x := ⟨hc.1, hc.2, hx⟩
    exact .inl (hsl.isResting hs hq hn hf hfree hfree' hsched)
  · have heff := (Act.run_effect hs.2).task hq hn hs.1 x
    exact heff.isParked (h x hz) hs.1 (fun hnext => hz (hfree x hnext)) hsched

theorem reach_blockedParked (h : machine.Reach ok k) : BlockedParked k := by
  induction h with
  | init h => exact fun t ht => .inl (BlockedRest.init h t ht)
  | step h _ hs ih =>
    obtain ⟨hq, hn⟩ := reach_queued (c := False) h fun hc => hc.elim
    obtain ⟨hf, hfree⟩ := reach_flagged h
    exact ih.step hs hq hn hf hfree

end Parked

section Runs

def Act.Starts (t : TaskId) : Act → Prop
  | .taskStart task _ _ => task = t
  | _ => False

instance : Decidable (a.Starts t) :=
  match a with
  | .taskStart task _ _ => inferInstanceAs (Decidable (task = t))
  | .svc _ | .taskFinished | .taskSuspend _ | .taskResume _ | .systick | .schedule
  | .contextSwitch | .enqueueIsr _ _ | .clock _ _ => inferInstanceAs (Decidable False)

/-- `task_finished` ends in an infinite loop: a task that finished makes no call. -/
def Act.ByUnfinished (k : Kernel) (a : Act) : Prop :=
  a.isCall → k.running.map k.status ≠ some .finished

instance : Decidable (a.ByUnfinished k) :=
  inferInstanceAs (Decidable (a.isCall → ¬ k.running.map k.status = some .finished))

theorem reach_next_not_aborted (h : machine.Reach ok k) :
    NextInv (fun st => st ≠ .wait ∧ st ≠ .aborted) k.toSched := by
  induction h with
  | init h =>
    obtain ⟨-, hn⟩ := machine_init_sched h
    exact ⟨fun t ht => by rw [hn.status t ht]; decide, hn.apart⟩
  | @step k k' a h _ hs ih =>
    obtain ⟨hq, -⟩ := reach_queued (c := False) h fun hc => hc.elim
    apply ih.step hq (Act.run_effect hs.2) hs.1 (by decide) (by decide)
    intro t new hset _
    cases a <;> obtain ⟨-, rfl⟩ := hset <;> decide

/-- A task ends only while it runs. -/
theorem TaskEffect.not_hasEnded (h : TaskEffect k k' x a) (hx : ¬ (k.status x).hasEnded)
    (hr : k.running ≠ some x) : ¬ (k'.status x).hasEnded := by
  cases h with
  | shifted h => exact fun he => hx (h.hasEnded_iff.1 he)
  | leaves hrun | finished hrun => exact absurd hrun hr
  | readied _ hst _ h =>
    rw [h.hasEnded_iff, hst]
    decide
  | granted _ hst | suspended hst =>
    rw [hst]
    decide
  | switched hst => rwa [hst]

theorem reach_scheduled_not_ended (h : machine.Reach ok k) :
    ∀ t, k.scheduled = some t → ¬ (k.status t).hasEnded := by
  induction h with
  | init h =>
    obtain ⟨b, hb⟩ := h
    obtain ⟨-, hs, -⟩ := b.start_sched hb
    exact fun t ht => by cases hs.symm.trans ht
  | @step k k' a h _ hs ih =>
    obtain ⟨hq, hn⟩ := reach_queued (c := False) h fun hc => hc.elim
    intro t ht
    have heff := (Act.run_effect hs.2).task hq hn hs.1 t
    rcases heff.dispatched ht with ht | hact
    · exact heff.not_hasEnded (ih t ht) (hn.apart t ht)
    · rw [hact]
      decide

theorem not_onList_of_hasEnded (h : machine.Reach (fun k a => a.RestartsFree k) k)
    (ht : (k.status t).hasEnded) (w : Waitable) : ¬ k.OnList w t := by
  intro hl
  obtain ⟨L, hi⟩ := reach_blocked h fun _ _ ha => ha
  have hw : k.flags t = w.flag := (hi.waits w t (hi.mem_iff.2 hl)).2
  exact (reach_blockedParked h t (hw ▸ flag_ne_zero w)).not_hasEnded ht

theorem ended_step (h : machine.Reach (fun k a => a.RestartsFree k) k) (hs : machine.step k a k')
    (ht : (k.status t).hasEnded) (ha : ¬ a.Starts t) (hcall : a.isCall → k.running ≠ some t) :
    k'.status t = k.status t := by
  obtain ⟨hq, hn⟩ := reach_queued (c := False) h fun hc => hc.elim
  have hlist := not_onList_of_hasEnded h ht
  have hgrant : ¬ (a.grantee k.toObjects = some t ∨ a.GrantsReader k.toObjects t) := by
    rintro (hg | hg)
    · obtain ⟨w, -, hl⟩ := Act.onList_of_grantee hg
      exact hlist w hl
    · obtain ⟨w, -, hl⟩ := Act.onList_of_grantsReader hg
      exact hlist w hl
  cases (Act.run_effect hs.2).task hq hn hs.1 t with
  | shifted h =>
    cases h with
    | stays hst => exact hst
    | preempted _ hst => rw [hst, ht.preempted]
    | woken hw =>
      rw [hw] at ht
      rcases ht with ht | ht <;> cases ht
    | dispatched hal => cases ht.not_isAlive.symm.trans hal
  | leaves hr => exact absurd hr (hcall rfl)
  | readied hset =>
    cases a with
    | taskStart => exact absurd hset.1.symm ha
    | taskResume x =>
      obtain rfl := hset.1
      have hrun := hs.2
      simp only [Act.run, osTaskResume, bind_eq_ok, osAssert_eq_ok] at hrun
      obtain ⟨_, ⟨_, hsus, _⟩, _⟩ := hrun
      rw [hsus] at ht
      rcases ht with ht | ht <;> cases ht
    | taskFinished | taskSuspend => cases hset.2
    | _ => exact absurd hset.1 hgrant
  | granted hg => exact absurd (.inl hg) hgrant
  | finished _ hact =>
    rw [hact] at ht
    rcases ht with ht | ht <;> cases ht
  | suspended hst =>
    have hrun := hs.2
    simp only [Act.run, osTaskSuspend, bind_eq_ok, osAssert_eq_ok] at hrun
    obtain ⟨_, ⟨_, hact, _⟩, _⟩ := hrun
    rcases ht with ht | ht <;> rw [ht] at hact <;> rcases hact with hact | hact <;> cases hact
  | switched hst => exact hst

theorem Accounted.running {c : Prop} (h : Accounted c s s') : s'.running = s.running := by
  cases h with
  | same h => exact h.running
  | dispatched _ _ _ h => rw [h, dispatchAccount_eq]

theorem Turn.running (h : Turn k k' a) : k'.running = k.running ∨ k'.running = k.scheduled := by
  cases h with
  | step h => exact .inl h.running
  | contextSwitch h => exact .inr (by rw [h])
  | clock h => exact .inl (by rw [h])
  | restart h => exact .inl (osTaskStartOptions_rethreaded h).running

theorem Queues.notMem_of_hasEnded {r w : List TaskId} (hq : Queues s r w)
    (ht : (s.status t).hasEnded) : t ∉ r ∧ t ∉ w := by
  constructor
  · intro hr
    have hrun := hq.runnable t hr
    rcases ht with ht | ht <;> rw [ht] at hrun <;> cases hrun
  · intro hw
    rw [(hq.waiting t).1 hw] at ht
    rcases ht with ht | ht <;> cases ht

/-- A task that has ended never runs again, and nothing in the kernel refers to it, until it is
started anew. -/
theorem ended_stays (h : machine.Reach (fun k a => a.RestartsFree k) k₀)
    (ht : (k₀.status t).hasEnded)
    (hk : (machine.startingAt k₀).Reach
      (fun k a => a.RestartsFree k ∧ a.ByUnfinished k ∧ ¬ a.Starts t) k) :
    k.status t = k₀.status t ∧ (k.running = some t → k₀.running = some t) ∧
      k.scheduled ≠ some t ∧ (∀ w, ¬ k.OnList w t) ∧
      ∀ r w, Chain k.nrp k.runqueue r → Chain k.nrp k.waitqueue w → t ∉ r ∧ t ∉ w := by
  have hreach {k : Kernel} (hk : (machine.startingAt k₀).Reach
      (fun k a => a.RestartsFree k ∧ a.ByUnfinished k ∧ ¬ a.Starts t) k) :
      machine.Reach (fun k a => a.RestartsFree k) k := h.trans (hk.mono fun _ _ ha => ha.1)
  have hrun : k.status t = k₀.status t ∧ (k.running = some t → k₀.running = some t) := by
    induction hk with
    | init hk =>
      cases hk
      exact ⟨rfl, id⟩
    | @step k k' a hk ha hs ih =>
      obtain ⟨hst, hr⟩ := ih
      have hend : (k.status t).hasEnded := hst ▸ ht
      -- an aborted task is not next, and a finished one makes no call
      have hcall : a.isCall → k.running ≠ some t := by
        intro hc hrun
        rcases hend with hend | hend
        · exact ha.2.1 hc (by rw [hrun, Option.map_some, hend])
        · have hnext := (next_of_none (hs.1.of_call hc)).trans hrun
          exact ((reach_next_not_aborted (hreach hk)).status t hnext).2 hend
      constructor
      · exact (ended_step (hreach hk) hs hend ha.2.2 hcall).trans hst
      · intro hrun
        rcases (Act.run_effect hs.2).turn.running with he | he
        · exact hr (he.symm.trans hrun)
        · exact absurd hend (reach_scheduled_not_ended (hreach hk) t (he.symm.trans hrun))
  have hend : (k.status t).hasEnded := hrun.1 ▸ ht
  refine ⟨hrun.1, hrun.2, fun hs => reach_scheduled_not_ended (hreach hk) t hs hend,
    not_onList_of_hasEnded (hreach hk) hend, fun r w hr hw => ?_⟩
  exact (reach_queues (hreach hk) hr hw).notMem_of_hasEnded hend

set_option maxRecDepth 10000 in
theorem ended_stays_aborted : ∃ k₀ k : Kernel, k₀.running = some 2 ∧ k₀.status 2 = .aborted ∧
    k.running = some 0 ∧ k.status 2 = .aborted ∧ k.scheduled ≠ some 2 := by
  obtain ⟨k₀, hk₀, hr, hst, hend⟩ := (Boot.simple [0, 16, 17] (by simp)).exists_after
    (fun _ a => ¬ a.restarts)
    (fun k => k.running = some 2 ∧ k.status 2 = .aborted ∧
      (runWith (fun k a => ¬ a.restarts ∧ a.ByUnfinished k ∧ ¬ a.Starts 2) k
        [.contextSwitch, .svc (.delay 5), .contextSwitch]).any fun k => k.running = some 0)
    [.schedule, .contextSwitch, .svc .abort] (by decide)
  obtain ⟨k, hk, hp⟩ := (Option.any_eq_true _ _).1 hend
  have hreach := runWith_reach (S := machine.startingAt k₀) rfl (.init rfl) hk
  obtain ⟨hstay, -, hs, -⟩ := ended_stays (hk₀.mono fun _ _ => .of_not_restarts) (t := 2)
    (.inr hst) (hreach.mono fun _ _ ha => ⟨.of_not_restarts ha.1, ha.2⟩)
  exact ⟨k₀, k, hr, hst, of_decide_eq_true hp, hstay.trans hst, hs⟩

end Runs

end Osh
