import Osh.QueueRuns

namespace Osh
open Function (update)
open Lib

variable {k k' k₀ k₁ : Kernel} {s s' : Sched} {t x : TaskId} {a : Act}

def Act.Revives (t : TaskId) : Act → Prop
  | .taskResume task | .taskStart task _ _ => task = t
  | _ => False

/-- A step spares the suspended task `t`: it is no call of `t` itself that would put `t` to sleep or
end it, and nothing is handed over to `t` that has an effect on its status. -/
structure Act.Spares (k : Kernel) (t : TaskId) (a : Act) : Prop where
  call : ∀ call, a = .svc call → k.running = some t → ¬ call.Leaves k.toObjects t
  grant : a.grantee k.toObjects = some t →
    k.running = some t ∧ runqueueHasHigherPriority k.toSched t = .ok false
  read : ¬ a.GrantsReader k.toObjects t

def StaysSuspended (k : Kernel) (t : TaskId) (k' : Kernel) : Prop :=
  k'.status t = .suspended ∧ (k'.scheduled = some t → k.scheduled = some t)

theorem TaskStatus.preempted_eq_suspended {st : TaskStatus} :
    st.preempted = .suspended ↔ st = .suspended := by
  cases st <;> decide

/-- The scheduler neither suspends a task nor makes a suspended one do anything else. -/
theorem Shifted.suspended_iff (h : Shifted s s' t) :
    s'.status t = .suspended ↔ s.status t = .suspended := by
  cases h with
  | stays hst => rw [hst]
  | preempted _ hst =>
    rw [hst]
    exact TaskStatus.preempted_eq_suspended
  | woken ht hst => simp [ht, hst]
  | dispatched ht hst =>
    rw [hst]
    constructor
    · exact nofun
    · intro hs
      rw [hs] at ht
      cases ht

theorem Shifted.staysSuspended (h : Shifted s k'.toSched t) (hst : s.status t = .suspended)
    (hs : s.scheduled = k.scheduled) : StaysSuspended k t k' := by
  have ht := h.suspended_iff.2 hst
  constructor
  · exact ht
  · intro hx
    rcases h.of_scheduled hx with hx | hact
    · exact hs ▸ hx
    · cases ht.symm.trans hact

theorem osiDispatchOrQueue_suspended_self (hq : Queued False k.toSched)
    (h : osiDispatchOrQueue k t = .ok k') (ht : k.status t = .suspended) :
    StaysSuspended k t k' ↔
      k.running = some t ∧ runqueueHasHigherPriority k.toSched t = .ok false := by
  rcases osiDispatchOrQueue_cases h with ⟨hh, s, hm, hr⟩ | ⟨hh, hd⟩
  · constructor
    · intro hs
      have hsus := (Shifted.reschedules (hq.makesRunnable hm) hr).suspended_iff.1 hs.1
      unfold MakesRunnable at hm
      rw [if_neg (by rw [ht]; decide)] at hm
      have hst : s.status = update k.status t .idle := (osiTaskStatusSet_rethreaded hm).status
      rw [hst, Function.update_self] at hsus
      cases hsus
    · intro hs
      cases hh.symm.trans hs.2
  · rcases osiDispatch_eq_ok.1 hd with ⟨hr, rfl⟩ | hd
    · exact ⟨fun _ => ⟨hr, hh⟩, fun _ => ⟨ht, id⟩⟩
    · constructor
      · intro hs
        cases hd.status_self.symm.trans hs.1
      · exact fun hs => absurd hs.1 hd.running_ne

theorem Reschedules.not_suspended {new : TaskStatus} {delay : TaskId → Nat} {x : TaskId}
    (h : Reschedules k s k') (hq : Queued False s)
    (hset : osiTaskStatusSet { k.toSched with delay := delay } x new = .ok s)
    (hnew : new ≠ .suspended) (ht : k.status t = .suspended) :
    StaysSuspended k t k' ↔ x ≠ t := by
  have hs := osiTaskStatusSet_rethreaded hset
  have hst : s.status = update k.status x new := hs.status
  have hres : Shifted s k'.toSched t := .reschedules hq h
  constructor
  · intro hstay he
    have hsus := hres.suspended_iff.1 hstay.1
    rw [hst, he, Function.update_self] at hsus
    exact hnew hsus
  · intro hx
    refine hres.staysSuspended ?_ hs.scheduled
    rw [hst, Function.update_of_ne hx.symm, ht]

theorem TaskEffect.staysSuspended (h : TaskEffect k k' t a) (hc : ¬ a.isCall)
    (ht : k.status t = .suspended) (hv : ¬ a.Revives t) (hg : a.grantee k.toObjects = none) :
    StaysSuspended k t k' := by
  cases h with
  | shifted h => exact h.staysSuspended ht rfl
  | leaves => exact absurd rfl hc
  | readied hset =>
    cases a with
    | svc call => exact absurd rfl hc
    | taskStart | taskResume => exact absurd hset.1.symm hv
    | taskFinished | taskSuspend => cases hset.2
    | enqueueIsr => exact (hset.1.resolve_left (by rw [hg]; nofun)).elim
    | _ => rcases hset.1 with hx | hx <;> cases hx
  | granted hx => cases hg.symm.trans hx
  | finished _ ha => cases ha.symm.trans ht
  | suspended hst hs => exact ⟨hst, fun hx => hs ▸ hx⟩
  | switched hst _ _ hs => exact ⟨hst.trans ht, fun hx => by cases hs.symm.trans hx⟩

theorem staysSuspended_congr (hs : k'.toSched = { k₁.toSched with pendSv := k'.pendSv }) :
    StaysSuspended k t k' ↔ StaysSuspended k t k₁ := by
  unfold StaysSuspended
  rw [hs]

theorem Svc.spares_iff {call : Svc} (hg : (Act.svc call).grantee k.toObjects = none)
    (hr : ∀ x, ¬ (Act.svc call).GrantsReader k.toObjects x) :
    (Act.svc call).Spares k t ↔ (k.running = some t → ¬ call.Leaves k.toObjects t) := by
  constructor
  · intro h
    exact h.call call rfl
  · intro h
    constructor
    · intro c hc
      cases hc
      exact h
    · intro hx
      cases hg.symm.trans hx
    · exact hr t

theorem Svc.staysSuspended_iff {call : Svc} {caller : TaskId} {status : Status}
    {value : Option Nat} (h : call.call k = .ok (k₁, status, value)) (hc : k.running = some caller)
    (hq : Queued False k.toSched) (hn : NextInv (· ≠ .wait) k.toSched) (hs : k.scheduled = none)
    (ht : k.status t = .suspended) (hg : (Act.svc call).grantee k.toObjects = none)
    (hr : ∀ x, ¬ (Act.svc call).GrantsReader k.toObjects x) :
    StaysSuspended k t k₁ ↔ (Act.svc call).Spares k t := by
  have hcaller : k.running = some t ↔ caller = t := by
    rw [hc]
    exact Option.some_inj
  rw [Svc.spares_iff hg hr, hcaller]
  have hdelay {o : Objects} {ms : Nat} (hd : svcDelay { k with toObjects := o } ms = .ok k₁) :
      StaysSuspended k t k₁ ↔ caller ≠ t := by
    obtain ⟨r, delay, s, hrun, -, hset, hsched, -⟩ := svcDelay_cases hd
    obtain rfl : caller = r := Option.some.inj (hc.symm.trans hrun)
    exact Reschedules.not_suspended (k := { k with toObjects := o }) hsched
      (hq.sleeps hn hs hrun hset) hset (by decide) ht
  have hleaves (hl : call.Leaves k.toObjects caller) (hstay : StaysSuspended k t k₁ ↔ caller ≠ t) :
      StaysSuspended k t k₁ ↔ (caller = t → ¬ call.Leaves k.toObjects t) := by
    rw [hstay]
    constructor
    · exact fun hne he => absurd he hne
    · rintro h rfl
      exact h rfl hl
  cases Svc.call_cases h hc with
  | @leaves o _ _ hl hb =>
    obtain ⟨o', -, hd⟩ := (block_eq_ok (k := { k with toObjects := o }) hc).1 hb
    exact hleaves hl (hdelay hd)
  | delay he hd =>
    subst he
    exact hleaves trivial (hdelay hd)
  | abort he ha =>
    subst he
    obtain ⟨r, s, hrun, hset, hsched, -⟩ := svcAbort_cases ha
    obtain rfl : caller = r := Option.some.inj (hc.symm.trans hrun)
    exact hleaves trivial (hsched.not_suspended (hq.aborts hn hs hrun hset) hset (by decide) ht)
  | keep hl hk =>
    constructor
    · rintro - rfl
      exact hl
    · intro _
      unfold StaysSuspended
      rw [hk]
      exact ⟨ht, id⟩
  | grant _ hx => cases hg.symm.trans hx
  | read _ hx => exact absurd hx (hr _)

/-- A step other than resumption and restart leaves a suspended task alone exactly if it spares
it. -/
theorem staysSuspended_step (hq : Queued False k.toSched) (hn : NextInv (· ≠ .wait) k.toSched)
    (hs : machine.step k a k') (ht : k.status t = .suspended) (hv : ¬ a.Revives t) :
    StaysSuspended k t k' ↔ a.Spares k t := by
  obtain ⟨he, hr⟩ := hs
  cases hg : a.grantee k.toObjects with
  | some x =>
    -- something is handed over, and the step does nothing else to the statuses
    obtain ⟨⟨o, k₁, hd, hk₁⟩, -⟩ := Act.run_grant hr hg
    have hread : ¬ a.GrantsReader k.toObjects t := Act.not_grantsReader_of_grantee hg
    have hcall : ∀ call, a = .svc call → k.running = some t → ¬ call.Leaves k.toObjects t := by
      rintro call rfl - hl
      cases hg.symm.trans (Svc.grantee_of_leaves hl)
    rw [staysSuspended_congr hk₁]
    by_cases hx : x = t
    · subst hx
      have hself := osiDispatchOrQueue_suspended_self (k := { k with toObjects := o }) hq hd ht
      exact hself.trans ⟨fun h => ⟨hcall, fun _ => h, hread⟩, fun h => h.grant hg⟩
    · have hshift := Shifted.dispatchOrQueue (k := { k with toObjects := o }) hq hd (Ne.symm hx)
      have hother := hshift.staysSuspended (k := k) ht rfl
      refine ⟨fun _ => ⟨hcall, fun h => ?_, hread⟩, fun _ => hother⟩
      exact absurd (Option.some.inj (hg.symm.trans h)) hx
  | none =>
    have hgrant : a.grantee k.toObjects = some t →
        k.running = some t ∧ runqueueHasHigherPriority k.toSched t = .ok false := by
      rw [hg]
      nofun
    by_cases hread : ∃ x, a.GrantsReader k.toObjects x
    · obtain ⟨x, hx⟩ := hread
      have hset := Act.run_read hr hx
      have hst : k'.status = update k.status x .idle := (osiTaskStatusSet_rethreaded hset).status
      by_cases hxt : x = t
      · subst hxt
        constructor
        · intro h
          have hidle := h.1
          rw [hst, Function.update_self] at hidle
          cases hidle
        · exact fun h => absurd hx h.read
      · have hstay : StaysSuspended k t k' :=
          (Shifted.set hset (Ne.symm hxt)).staysSuspended ht rfl
        refine ⟨fun _ => ⟨?_, hgrant, fun h => ?_⟩, fun _ => hstay⟩
        · rintro call rfl - hl
          cases call <;> first | exact hl | exact hx.elim
        · exact hxt (Act.grantsReader_unique hx h)
    · have hread : ∀ x, ¬ a.GrantsReader k.toObjects x := fun x hx => hread ⟨x, hx⟩
      by_cases hc : a.isCall
      · cases a with
        | svc call =>
          simp only [Act.run, svcHandler, bind_eq_ok, pure_eq_ok, Prod.exists,
            Kernel.self_eq_ok] at hr
          obtain ⟨caller, hc, k₁, status, value, h, rfl⟩ := hr
          change StaysSuspended k t k₁ ↔ _
          exact Svc.staysSuspended_iff h hc hq hn he ht hg hread
        | _ => cases hc
      · have hstay := ((Act.run_effect hr).task hq hn he t).staysSuspended hc ht hv hg
        refine ⟨fun _ => ⟨?_, hgrant, hread t⟩, fun _ => hstay⟩
        rintro call rfl
        exact absurd rfl hc

/-- Until it is resumed or restarted, a suspended task stays suspended and is not scheduled for as
long as every step spares it, and no longer. -/
theorem staysSuspended_of_reach (h : machine.Reach (fun _ _ => True) k₀)
    (hs : machine.step k₀ (.taskSuspend t) k₁)
    (hk : (machine.startingAt k₁).Reach (fun k a => ¬ a.Revives t ∧ a.Spares k t) k) :
    k.status t = .suspended ∧ ∀ a k', ¬ a.Revives t → machine.step k a k' →
      (StaysSuspended k t k' ↔ a.Spares k t) := by
  have hstart : machine.Reach (fun _ _ => True) k₁ := .step h trivial hs
  have hqueued {k : Kernel} (hk : (machine.startingAt k₁).Reach
      (fun k a => ¬ a.Revives t ∧ a.Spares k t) k) :
      Queued False k.toSched ∧ NextInv (· ≠ .wait) k.toSched :=
    reach_queued (hstart.trans (hk.mono fun _ _ _ => trivial)) fun hc => hc.elim
  have hst : k.status t = .suspended := by
    induction hk with
    | init he =>
      obtain rfl := he
      obtain ⟨-, hr⟩ := hs
      simp only [Act.run, osTaskSuspend, bind_eq_ok, osAssert_eq_ok, pure_eq_ok] at hr
      obtain ⟨s, ⟨_, -, hset⟩, rfl⟩ := hr
      have hst : s.status = update k₀.status t .suspended :=
        (osiTaskStatusSet_rethreaded hset).status
      exact (congrFun hst t).trans (Function.update_self ..)
    | step hk ha hstep ih =>
      obtain ⟨hq, hn⟩ := hqueued hk
      exact ((staysSuspended_step hq hn hstep ih ha.1).2 ha.2).1
  obtain ⟨hq, hn⟩ := hqueued hk
  exact ⟨hst, fun a k' hv hstep => staysSuspended_step hq hn hstep hst hv⟩

set_option maxRecDepth 10000 in
/-- A task that suspends itself and then calls `os_delay` waits, and will be woken. -/
theorem not_staysSuspended_after_delay : ∃ k₀ k₁ k : Kernel,
    machine.Reach (fun _ _ => True) k₀ ∧ machine.step k₀ (.taskSuspend 1) k₁ ∧
      (machine.startingAt k₁).Reach (fun _ a => ¬ a.Revives 1) k ∧ k.status 1 = .wait := by
  obtain ⟨k₀, k₁, hk₀, hs, -, hd⟩ := (Boot.simple [0, 16] (by simp)).exists_step
    (fun _ _ => True) (fun _ => True)
    (fun k => (Act.svc (.delay 5)).Enabled k ∧
      ((Act.svc (.delay 5)).run k).toOption.any fun k => k.status 1 = .wait)
    [.schedule, .contextSwitch] (.taskSuspend 1) (by decide)
  obtain ⟨he, hd⟩ := hd
  obtain ⟨k, hr, hw⟩ := exists_of_toOption_any hd
  exact ⟨k₀, k₁, k, hk₀, hs, .step (.init rfl) id ⟨he, hr⟩, hw⟩

set_option maxRecDepth 10000 in
theorem staysSuspended_after_systick : ∃ k : Kernel,
    k.running = some 1 ∧ k.scheduled = some 3 ∧ k.status 2 = .suspended := by
  obtain ⟨k₀, k₁, hk₀, hs, -, hr, he, hd⟩ := (Boot.simple [0, 16, 16, 16] (by simp)).exists_step
    (fun _ _ => True) (fun _ => True)
    (fun k => k.running = some 1 ∧ Act.systick.Enabled k ∧
      (Act.systick.run k).toOption.any fun k => k.running = some 1 ∧ k.scheduled = some 3)
    [.schedule, .contextSwitch] (.taskSuspend 2) (by decide)
  obtain ⟨k, hrun, hr', hsch⟩ := exists_of_toOption_any hd
  have hspares : Act.systick.Spares k₁ 2 := by
    constructor
    · intro _ hc
      cases hc
    · intro hg
      cases hg
    · exact fun hg => hg.elim
  exact ⟨k, hr', hsch, (staysSuspended_of_reach hk₀ hs
    (.step (.init rfl) ⟨id, hspares⟩ ⟨he, hrun⟩)).1⟩

end Osh
