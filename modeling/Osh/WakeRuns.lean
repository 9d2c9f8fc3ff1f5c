import Osh.SleepRuns
import Osh.Turns

namespace Osh
open Function (update)
open Lib

variable {k k' k₀ k₁ : Kernel} {s s' m : Sched} {t x : TaskId} {a : Act} {call : Svc}
  {r w pre post : List TaskId} {n : Nat}

def Thins (s s' : Sched) : Prop :=
  ∀ ⦃r w⦄, Queues s r w → ∃ r' w', Queues s' r' w' ∧ w'.Sublist w

namespace Thins

theorem of_eq (hr : s'.runqueue = s.runqueue) (hw : s'.waitqueue = s.waitqueue)
    (hn : s'.nrp = s.nrp) (hst : s'.status = s.status) (hp : s'.priority = s.priority)
    (hd : s'.delay = s.delay) : Thins s s' := by
  intro r w hq
  refine ⟨r, w, hq.congr ⟨?_, ?_, hq.disjoint⟩ hp (fun x _ => congrFun hd x)
    (fun x => by rw [hst]) (fun x => by rw [hst]), .refl w⟩
  · rw [hr, hn]
    exact hq.run
  · rw [hw, hn]
    exact hq.wait

theorem refl : Thins s s :=
  of_eq rfl rfl rfl rfl rfl rfl

theorem trans (h : Thins s m) (h' : Thins m s') : Thins s s' := by
  intro r w hq
  obtain ⟨r₁, w₁, hq₁, hw₁⟩ := h hq
  obtain ⟨r₂, w₂, hq₂, hw₂⟩ := h' hq₁
  exact ⟨r₂, w₂, hq₂, hw₂.trans hw₁⟩

theorem idle (h : osiTaskStatusSet s t .idle = .ok s') : Thins s s' := by
  intro r w hq
  by_cases ht : t ∈ r
  · obtain ⟨l, m, rfl⟩ := List.append_of_mem ht
    exact ⟨_, w, (osiTaskStatusSet_idle_mem h hq).1, .refl w⟩
  · exact ⟨_, _, (osiTaskStatusSet_idle h hq ht).1, List.erase_sublist⟩

theorem stopped {new : TaskStatus} (h : osiTaskStatusSet s t new = .ok s')
    (hnew : new = .finished ∨ new = .panic ∨ new = .aborted) (ht : s.status t ≠ .wait) :
    Thins s s' := by
  intro r w hq
  exact ⟨_, w, (osiTaskStatusSet_stopped h hnew hq ht).1, .refl w⟩

theorem suspended (h : osiTaskStatusSet s t .suspended = .ok s') : Thins s s' := by
  intro r w hq
  exact ⟨_, _, (osiTaskStatusSet_suspended h hq).1, List.erase_sublist⟩

theorem makesRunnable (h : MakesRunnable s t s') : Thins s s' := by
  unfold MakesRunnable at h
  split_ifs at h
  · exact h ▸ refl
  · exact idle h

theorem wakes (h : wakeExpired s = .ok s') : Thins s s' := by
  intro r w hq
  rcases wakeLoop_spec h hq.wait with rfl | ⟨x, -, -, -, hset⟩
  · exact refl hq
  · exact idle hset hq

theorem dispatches (h : Dispatches k t k') : Thins k.toSched k'.toSched := by
  intro r w hq
  obtain ⟨running, o, s, -, hne, -, hs, rfl⟩ := h
  refine ⟨_, _, (dispatchSwitch_queues hs hq hne).1, ?_⟩
  unfold dispatchWait
  split_ifs
  · exact List.erase_sublist
  · exact .refl w

theorem schedule (h : osiSchedule k = .ok k') : Thins k.toSched k'.toSched := by
  rcases osiSchedule_cases h with rfl | ⟨r, s, new, -, -, -, hw, -, ⟨-, rfl⟩ | ⟨t, -, hd⟩⟩
  · exact refl
  · exact wakes hw
  · exact (wakes hw).trans (dispatches hd)

theorem reschedules (h : Reschedules k s k') : Thins s k'.toSched := by
  rcases h with ⟨-, h⟩ | ⟨-, rfl⟩
  · exact schedule h
  · exact refl

theorem dispatchOrQueue (h : osiDispatchOrQueue k t = .ok k') : Thins k.toSched k'.toSched := by
  rcases osiDispatchOrQueue_cases h with ⟨-, s, hm, hr⟩ | ⟨-, hd⟩
  · exact (makesRunnable hm).trans (reschedules hr)
  · rcases osiDispatch_eq_ok.1 hd with ⟨-, rfl⟩ | hd
    · exact refl
    · exact dispatches hd

theorem start {priority params : Nat} (h : osTaskStartOptions k t priority params = .ok k') :
    Thins k.toSched k'.toSched := by
  intro r w hq
  obtain ⟨hst, s₁, s₂, h₁, h₂, h₃⟩ := osTaskStartOptions_sched h
  have htr : t ∉ r := hq.notMem_run hst
  have hl : Lists (k.restarted t priority) r w := ⟨hq.run, hq.wait, hq.disjoint⟩
  obtain ⟨hl₁, -⟩ := waitqueueRemove_lists h₁ hl
  obtain ⟨hl₂, -⟩ := runqueueRemove_lists h₂ hl₁
  rw [List.erase_of_not_mem htr] at hl₂
  obtain ⟨hl₃, -⟩ := runqueueAdd_lists h₃ hl₂ htr hq.nodup_wait.not_mem_erase
  obtain ⟨r', w', hq', -⟩ := Queued.start (c := False) ⟨r, w, hq, fun hc => hc.elim⟩ h
  refine ⟨r', w', hq', ?_⟩
  rw [hq'.wait.unique hl₃.wait]
  exact List.erase_sublist

theorem before (h : Thins s s') (hq : Queues s r (pre ++ t :: post)) (ht : s'.status t = .wait) :
    ∃ r' pre' post', Queues s' r' (pre' ++ t :: post') ∧ pre'.Sublist pre := by
  obtain ⟨r', w', hq', hw⟩ := h hq
  obtain ⟨pre', post', rfl⟩ := List.append_of_mem ((hq'.waiting t).2 ht)
  exact ⟨r', pre', post', hq', sublist_before hq.nodup_wait hw⟩

end Thins

theorem SchedEffect.thins (h : SchedEffect k k' a) (hc : ¬ a.isCall) :
    Thins k.toSched k'.toSched := by
  cases h with
  | keep h | contextSwitch h | clock h =>
    rw [h]
    exact .of_eq rfl rfl rfl rfl rfl rfl
  | sleep | abort => exact absurd rfl hc
  | grant _ h hs =>
    have hd := Thins.dispatchOrQueue h
    rw [hs]
    exact hd.trans (.of_eq rfl rfl rfl rfl rfl rfl)
  | read _ h => exact .idle h
  | finish h =>
    obtain ⟨r, -, ha, hset⟩ := taskFinished_cases h
    exact .stopped hset (.inl rfl) (by rw [ha]; decide)
  | start h => exact .start h
  | suspend h =>
    simp only [osTaskSuspend, bind_eq_ok, osAssert_eq_ok] at h
    obtain ⟨_, -, hset⟩ := h
    exact .suspended hset
  | resume h =>
    simp only [osTaskResume, bind_eq_ok, osAssert_eq_ok] at h
    obtain ⟨_, -, hset⟩ := h
    exact .idle hset
  | schedule h => exact .schedule h

/-- `x` joins the wait queue for `ms` milliseconds, and the rest of the step thins the queue. -/
def JoinsWait (s : Sched) (x : TaskId) (ms : Nat) (s' : Sched) : Prop :=
  ∃ m, osiTaskStatusSet (s.withDelay x ms) x .wait = .ok m ∧ Thins m s'

theorem Svc.call_thins {status : Status} {value : Option Nat}
    (h : call.call k = .ok (k₁, status, value)) (hr : k.running = some x)
    (hs : k.scheduled = none) (hx : k.status x ≠ .wait) :
    Thins k.toSched k₁.toSched ∨
      ∃ ms, call.timeout = some ms ∧ JoinsWait k.toSched x ms k₁.toSched := by
  have habort (ha : svcAbort k = .ok k₁) : Thins k.toSched k₁.toSched := by
    obtain ⟨r, s, hr', hset, hsched, -⟩ := svcAbort_cases ha
    cases hr.symm.trans hr'
    exact (Thins.stopped hset (.inr (.inr rfl)) hx).trans (.reschedules hsched)
  have hsleep (hl : call.Leaves k.toObjects x) (hne : call ≠ .abort) :
      ∃ ms, call.timeout = some ms ∧ JoinsWait k.toSched x ms k₁.toSched := by
    obtain ⟨o, ms, hms, hd⟩ := Svc.call_sleeps h hr hl hne
    obtain ⟨-, s, hset, hsched, -⟩ := (svcDelay_eq_ok (k := { k with toObjects := o }) hr hs).1 hd
    exact ⟨ms, hms, s, hset, Thins.schedule hsched⟩
  cases Svc.call_cases h hr with
  | leaves hl hb =>
    by_cases hne : call = .abort
    · subst hne
      simp only [Svc.call, bind_eq_ok, pure_eq_ok, Prod.mk.injEq] at h
      obtain ⟨k₂, h, rfl, -⟩ := h
      exact .inl (habort h)
    · exact .inr (hsleep hl hne)
  | delay hc hd =>
    subst hc
    exact .inr (hsleep trivial (by simp))
  | abort hc ha => exact .inl (habort ha)
  | keep _ hk => exact .inl (hk ▸ .refl)
  | @grant _ o _ _ hd =>
    exact .inl (Thins.dispatchOrQueue (k := { k with toObjects := o }) hd)
  | read _ _ hset => exact .inl (.idle hset)

section Places

/-- A task whose deadline is not before that of `t` joins the wait queue behind `t`. -/
theorem JoinsWait.before {ms : Nat} (h : JoinsWait s x ms s') (hq : Queues s r (pre ++ t :: post))
    (hx : s.status x ≠ .wait) (hd : s.delay t ≤ s.deadline ms) (ht : s'.status t = .wait) :
    ∃ r' pre' post', Queues s' r' (pre' ++ t :: post') ∧ pre'.Sublist pre := by
  obtain ⟨m, hset, hm⟩ := h
  have hxw : x ∉ pre ++ t :: post := fun hm => hx ((hq.waiting x).1 hm)
  have hq' : Queues (s.withDelay x ms) r (pre ++ t :: post) := hq.setDelay hxw
  have hins : insertByDelay (s.withDelay x ms).delay x (pre ++ t :: post) =
      pre ++ t :: insertByDelay (s.withDelay x ms).delay x post := by
    have hpre : ∀ b ∈ pre ++ [t], ¬ (s.withDelay x ms).delay x < (s.withDelay x ms).delay b := by
      intro b hb
      have hbw : b ∈ pre ++ t :: post := by
        rw [List.append_cons]
        exact List.mem_append_left post hb
      have hbt : s.delay b ≤ s.delay t := by
        rcases List.mem_append.1 hb with hb | hb
        · exact (List.pairwise_append.1 hq.ordered).2.2 b hb t List.mem_cons_self
        · rw [List.mem_singleton.1 hb]
      have hbx : b ≠ x := ne_of_mem_of_not_mem hbw hxw
      simp only [Sched.withDelay, Function.update_self, Function.update_of_ne hbx]
      omega
    rw [List.append_cons, insertByDelay]
    exact (orderedInsert_append hpre).trans (List.append_assoc ..)
  obtain ⟨hq₁, -⟩ := osiTaskStatusSet_wait hset hq' hx
  rw [hins] at hq₁
  exact hm.before hq₁ ht

/-- Of tasks that are due the scheduler wakes the one at the head of the wait queue. -/
theorem Schedules.before (h : Schedules k k') (hq : Queues k.toSched r (pre ++ t :: post))
    (hn : (pre ++ t :: post).length ≤ k.bound) (hdue : ∀ x ∈ pre ++ [t], k.Due x)
    (ht : k'.status t = .wait) : ∃ r' pre' post', Queues k'.toSched r' (pre' ++ t :: post') ∧
      pre'.Sublist pre ∧ pre'.length < pre.length := by
  obtain ⟨running, s, new, -, -, -, hw, -, hd⟩ := h
  have hthins : Thins s k'.toSched := by
    rcases hd with ⟨-, rfl⟩ | ⟨y, -, hd⟩
    · exact .refl
    · exact .dispatches hd
  rw [wakeExpired_eq hq hn] at hw
  cases pre with
  | nil =>
    have hfind : ([] ++ t :: post).find? (fun x => decide (k.Due x)) = some t := by
      simp [hdue t (by simp)]
    rw [hfind] at hw
    -- `t` itself is woken
    have htw : k.status t = .wait := (hq.waiting t).1 (by simp)
    have hq₁ := (osiTaskStatusSet_idle hw hq (hq.notMem_run (by rw [htw]; decide))).1
    obtain ⟨r', w', hq', hw'⟩ := hthins hq₁
    have htw := hw'.subset ((hq'.waiting t).2 ht)
    exact absurd htw hq.nodup_wait.not_mem_erase
  | cons x pre =>
    have hfind : (x :: pre ++ t :: post).find? (fun x => decide (k.Due x)) = some x := by
      simp [hdue x (by simp)]
    rw [hfind] at hw
    have hxw : k.status x = .wait := (hq.waiting x).1 (by simp)
    have hq₁ := (osiTaskStatusSet_idle hw hq (hq.notMem_run (by rw [hxw]; decide))).1
    rw [List.cons_append, List.erase_cons_head] at hq₁
    obtain ⟨r', pre', post', hq', hpre⟩ := hthins.before hq₁ ht
    exact ⟨r', pre', post', hq', hpre.cons x, Nat.lt_succ_of_le hpre.length_le⟩

end Places

/-- An action that enters the scheduler from outside a call, where it does not return early. -/
def Act.Polls (k : Kernel) (a : Act) : Prop :=
  (a = .schedule ∨ a = .systick ∧ k.state = .started) ∧ k.scheduled = none ∧
    k.running.map k.status ≠ some .idle

instance : Decidable (a.Polls k) :=
  inferInstanceAs (Decidable ((a = .schedule ∨ a = .systick ∧ k.state = .started) ∧
    k.scheduled = none ∧ ¬ k.running.map k.status = some .idle))

theorem Act.Polls.schedules (h : a.Polls k) (hr : a.run k = .ok k') : Schedules k k' := by
  obtain ⟨ha, hs, hi⟩ := h
  have hrun : osiSchedule k = .ok k' := by
    rcases ha with rfl | ⟨rfl, hst⟩
    · exact hr
    · simpa only [Act.run, osiIrsSystick, if_pos (And.intro hst hs)] using hr
  cases hrun' : k.running with
  | none => simp [osiSchedule, hrun'] at hrun
  | some running =>
    refine osiSchedule_schedules hrun hrun' (fun he => hi ?_) hs
    rw [hrun', Option.map_some, he]

/-- The clock does not go back, and no deadline is beyond its 32 bits. -/
def Act.KeepsTime (k : Kernel) : Act → Prop
  | .svc call => ∀ ms ∈ call.timeout, ms ≠ uint32Max → k.uptime + ms < 2 ^ 32
  | .clock uptime _ => k.uptime ≤ uptime % 2 ^ 32
  | _ => True

instance : Decidable (a.KeepsTime k) :=
  match a with
  | .svc call => inferInstanceAs
      (Decidable (∀ ms ∈ call.timeout, ¬ ms = uint32Max → k.uptime + ms < 2 ^ 32))
  | .clock uptime _ => inferInstanceAs (Decidable (k.uptime ≤ uptime % 2 ^ 32))
  | .taskFinished | .taskStart _ _ _ | .taskSuspend _ | .taskResume _ | .systick | .schedule
  | .contextSwitch | .enqueueIsr _ _ => inferInstanceAs (Decidable True)

theorem Accounted.uptime {c : Prop} (h : Accounted c s s') : s'.uptime = s.uptime := by
  cases h with
  | same h => rw [h]
  | dispatched _ _ _ h => rw [h, dispatchAccount_eq]

theorem SchedEffect.uptime (h : SchedEffect k k' a) (ha : a.KeepsTime k) :
    k.uptime ≤ k'.uptime := by
  cases h.turn with
  | step hturn => rw [hturn.uptime]
  | contextSwitch hturn => rw [hturn]
  | clock hturn =>
    rw [hturn]
    exact ha
  | restart hturn => exact (osTaskStartOptions_rethreaded hturn).uptime.ge

/-- The waiting task `t` is due, and the tasks `pre` are woken before it. -/
structure InTurn (k : Kernel) (t : TaskId) (pre : List TaskId) : Prop where
  queues : ∃ r post, Queues k.toSched r (pre ++ t :: post)
  due : k.Due t

theorem reach_uptime {ok : Kernel → Act → Prop} (h : machine.Reach ok k) : k.uptime < 2 ^ 32 := by
  apply h.invariant
  · rintro k ⟨b, hb⟩
    obtain ⟨k₀, i, hk₀, -, rfl⟩ := b.start_invariant (I := fun k => k.uptime = 0) hb rfl
      fun k t options k' _ _ hst hk h => by
        obtain ⟨-, s, hs, rfl⟩ := osTaskInitializeOptions_cases hst h
        exact (joinRunqueue_rethreaded hs).uptime.trans hk
    exact lt_of_eq_of_lt hk₀ (by decide)
  · intro k a k' hk _ hs
    cases (Act.run_effect hs.2).turn with
    | step hturn => exact hturn.uptime ▸ hk
    | contextSwitch hturn => rwa [hturn]
    | clock hturn =>
      rw [hturn]
      exact Nat.mod_lt _ (by decide)
    | restart hturn => exact (osTaskStartOptions_rethreaded hturn).uptime ▸ hk

theorem InTurn.all_due (hk : InTurn k t pre) (hu : k.uptime < 2 ^ 32) :
    ∀ x ∈ pre ++ [t], k.Due x := by
  obtain ⟨⟨r, post, hq⟩, hmax, hle⟩ := hk
  intro x hx
  have hxt : k.delay x ≤ k.delay t := by
    rcases List.mem_append.1 hx with hx | hx
    · exact (List.pairwise_append.1 hq.ordered).2.2 x hx t List.mem_cons_self
    · rw [List.mem_singleton.1 hx]
  simp only [Sched.Due, uint32Max] at hmax hle ⊢
  omega

theorem Sched.uptime_le_deadline {ms : Nat} (hu : s.uptime < 2 ^ 32)
    (h : ms ≠ uint32Max → s.uptime + ms < 2 ^ 32) : s.uptime ≤ s.deadline ms := by
  unfold Sched.deadline
  split_ifs with hms
  · exact Nat.le_pred_of_lt hu
  · rw [Nat.mod_eq_of_lt (h hms)]
    exact Nat.le_add_right ..

theorem InTurn.queuesUp (hk : InTurn k t pre) (hs : k.scheduled = none)
    (h : (Act.svc call).run k = .ok k') (hu : k.uptime < 2 ^ 32)
    (hn : NextInv (· ≠ .wait) k.toSched) (ha : (Act.svc call).KeepsTime k)
    (ht : k'.status t = .wait) :
    ∃ r' pre' post', Queues k'.toSched r' (pre' ++ t :: post') ∧ pre'.Sublist pre := by
  obtain ⟨⟨r, post, hq⟩, hmax, hle⟩ := hk
  simp only [Act.run, svcHandler, bind_eq_ok, pure_eq_ok, Prod.exists, Kernel.self_eq_ok] at h
  obtain ⟨x, hx, k₁, status, value, hcall, rfl⟩ := h
  have hawake : k.status x ≠ .wait := hn.status x ((next_of_none hs).trans hx)
  rcases Svc.call_thins hcall hx hs hawake with hthins | ⟨ms, hms, hjoin⟩
  · exact hthins.before hq ht
  · exact hjoin.before hq hawake (hle.trans (Sched.uptime_le_deadline hu (ha ms hms))) ht

/-- A step lets no task get in front of `t`, and an entry of the scheduler wakes the first. -/
theorem InTurn.step {ok : Kernel → Act → Prop} (hk : InTurn k t pre) (h : machine.Reach ok k)
    (hs : machine.step k a k') (ha : a.KeepsTime k) (ht : k'.status t = .wait) :
    ∃ pre', InTurn k' t pre' ∧ pre'.Sublist pre ∧ (a.Polls k → pre'.length < pre.length) := by
  obtain ⟨hq, hn⟩ := reach_queued (c := False) h fun hc => hc.elim
  have heff := Act.run_effect hs.2
  have hu := reach_uptime h
  have hall := hk.all_due hu
  have hlate := heff.uptime ha
  obtain ⟨r, post, hqs⟩ := hk.queues
  obtain ⟨hmax, hle⟩ := hk.due
  have htw : k.status t = .wait := (hqs.waiting t).1 (by simp)
  have hcall : ¬ (a.isCall ∧ k.running = some t) := by
    rintro ⟨hc, hr⟩
    exact hn.status t ((next_of_none (hs.1.of_call hc)).trans hr) htw
  have hdelay : k'.delay t = k.delay t := by
    rcases (heff.task hq hn hs.1 t).of_wait ht with ⟨-, hd⟩ | hc
    · exact hd
    · exact absurd hc hcall
  have hdue : k'.Due t := by
    simp only [Sched.Due, hdelay]
    exact ⟨hmax, hle.trans hlate⟩
  by_cases hp : a.Polls k
  · have hlen : (pre ++ t :: post).length ≤ k.bound := ((reach_ready h).length_le hqs).2.1
    obtain ⟨r', pre', post', hq', hpre, hlt⟩ := (hp.schedules hs.2).before hqs hlen hall ht
    exact ⟨pre', ⟨⟨r', post', hq'⟩, hdue⟩, hpre, fun _ => hlt⟩
  · have hbefore : ∃ r' pre' post', Queues k'.toSched r' (pre' ++ t :: post') ∧
        pre'.Sublist pre := by
      cases a with
      | svc call => exact hk.queuesUp hs.1 hs.2 hu hn ha ht
      | _ => exact (heff.thins Bool.false_ne_true).before hqs ht
    obtain ⟨r', pre', post', hq', hpre⟩ := hbefore
    exact ⟨pre', ⟨⟨r', post', hq'⟩, hdue⟩, hpre, fun h => absurd h hp⟩

def countPolls (n : Nat) (k : Kernel) (a : Act) (_ : Kernel) : Nat :=
  if a.Polls k then n + 1 else n

/-- A task that is due waits for no more polls than tasks are in front of it in the wait queue, as
long as the clock does not wrap. -/
theorem wakes_within {ok : Kernel → Act → Prop} (h : machine.Reach ok k₀)
    (hw : Chain k₀.nrp k₀.waitqueue (pre ++ t :: post)) (hd : k₀.Due t)
    (hk : ((machine.startingAt k₀).withHistory 0 countPolls).Reach
      (fun p a => a.KeepsTime p.1 ∧ p.1.status t = .wait) (k, n))
    (ht : k.status t = .wait) : n ≤ pre.length := by
  have hreach {k : Kernel} {n : Nat} (hk : ((machine.startingAt k₀).withHistory 0 countPolls).Reach
      (fun p a => a.KeepsTime p.1 ∧ p.1.status t = .wait) (k, n)) :
      machine.Reach (fun _ _ => True) k :=
    (h.mono fun _ _ _ => trivial).trans (hk.forget.mono fun _ _ _ => trivial)
  have hinv : k.status t = .wait → ∃ pre', InTurn k t pre' ∧ n + pre'.length ≤ pre.length := by
    apply hk.history_invariant (J := fun k n => k.status t = .wait →
      ∃ pre', InTurn k t pre' ∧ n + pre'.length ≤ pre.length)
    · rintro k rfl -
      obtain ⟨r, w, hq, -⟩ := (reach_ready h).queued
      obtain rfl := hq.wait.unique hw
      exact ⟨pre, ⟨⟨r, post, hq⟩, hd⟩, by omega⟩
    · intro k n a k' hk ih ha hs ht
      obtain ⟨pre₁, hturn, hle⟩ := ih ha.2
      obtain ⟨pre₂, hturn', hsub, hlt⟩ := hturn.step (hreach hk) hs ha.1 ht
      have hlen := hsub.length_le
      refine ⟨pre₂, hturn', ?_⟩
      unfold countPolls
      split_ifs with hp
      · have hlt := hlt hp
        omega
      · omega
  obtain ⟨pre', -, hle⟩ := hinv ht
  omega

set_option maxRecDepth 10000 in
theorem wakes_within_second : ∃ (k₀ k : Kernel) (n : Nat), k₀.Due 2 ∧ k.status 2 = .wait ∧
    ((machine.startingAt k₀).withHistory 0 countPolls).Reach
      (fun p a => a.KeepsTime p.1 ∧ p.1.status 2 = .wait) (k, n) ∧ n = 1 ∧ n ≤ [1].length := by
  obtain ⟨k₀, hk₀, hw, h₁, h₂, hd, hend⟩ := (Boot.simple [0, 16, 16] (by simp)).exists_after
    (fun _ _ => True)
    (fun k => k.waitqueue = some 1 ∧ k.nrp 1 = some 2 ∧ k.nrp 2 = none ∧ k.Due 2 ∧
      (runRecorded countPolls (fun p a => a.KeepsTime p.1 ∧ p.1.status 2 = .wait) k 0
        [.schedule]).any fun p => p.1.status 2 = .wait ∧ p.2 = 1)
    [.schedule, .contextSwitch, .svc (.delay 5), .contextSwitch, .svc (.delay 5), .contextSwitch,
      .clock 10 10] (by decide)
  obtain ⟨⟨k, n⟩, hk, hp⟩ := (Option.any_eq_true _ _).1 hend
  obtain ⟨ht, hn⟩ := of_decide_eq_true hp
  have hreach := runRecorded_reach (S := machine.startingAt k₀) rfl (.init ⟨rfl, rfl⟩) hk
  have hchain : Chain k₀.nrp k₀.waitqueue ([1] ++ 2 :: []) := by
    rw [hw]
    exact chain_cons.2 ⟨rfl, chain_cons.2 ⟨h₁, chain_nil.2 h₂⟩⟩
  exact ⟨k₀, k, n, hd, ht, hreach, hn, wakes_within hk₀ hchain hd hreach ht⟩

end Osh
