import Osh.QueueRuns
import Osh.Turns
import Osh.WaitRuns

namespace Osh
open Function (update)
open Lib

variable {k k' : Kernel} {s s' : Sched} {t x : TaskId} {a : Act} {c : Prop}
  {ok : Kernel → Act → Prop}

/-- The scheduler knows `t`: it runs, is scheduled or has a status of its own. -/
def Sched.Used (s : Sched) (t : TaskId) : Prop :=
  s.running = some t ∨ s.scheduled = some t ∨ s.status t ≠ .finished

theorem Sched.Used.of_set {new : TaskStatus} (h : osiTaskStatusSet s t new = .ok s')
    (hx : s'.Used x) : s.Used x ∨ x = t := by
  have hs := osiTaskStatusSet_rethreaded h
  have hst : s'.status = update s.status t new := hs.status
  by_cases hxt : x = t
  · exact .inr hxt
  · apply Or.inl
    unfold Sched.Used at hx ⊢
    rwa [hs.running, hs.scheduled, hst, Function.update_of_ne hxt] at hx

theorem Sched.Used.of_makesRunnable (h : MakesRunnable s t s') (hx : s'.Used x) :
    s.Used x ∨ x = t := by
  unfold MakesRunnable at h
  split_ifs at h
  · exact .inl (h ▸ hx)
  · exact Sched.Used.of_set h hx

theorem Sched.Used.of_dispatches (h : Dispatches k t k') (hx : k'.Used x) :
    k.Used x ∨ x = t := by
  by_cases hxt : x = t
  · exact .inr hxt
  · apply Or.inl
    rcases hx with hr | hs | hst
    · exact .inl (h.running.symm.trans hr)
    · exact absurd (Option.some.inj (hs.symm.trans h.scheduled)) hxt
    · by_cases hrun : k.running = some x
      · exact .inl hrun
      · refine .inr (.inr ?_)
        obtain ⟨running, o, s, hr, -, -, hsw, rfl⟩ := h
        have hne : x ≠ running := fun he => hrun (he ▸ hr)
        have hstatus := congrFun (dispatchSwitch_fields hsw).status x
        rw [dispatched_status, Function.update_of_ne hxt, Function.update_of_ne hne] at hstatus
        exact hstatus ▸ hst

theorem Sched.Used.of_wakes (hq : Queued c s) (h : wakeExpired s = .ok s') (hx : s'.Used x) :
    s.Used x := by
  rcases wakeExpired_cases hq h with rfl | ⟨t, ht, -, hs⟩
  · exact hx
  · rcases Sched.Used.of_set hs hx with hx | rfl
    · exact hx
    · exact .inr (.inr (by rw [ht]; decide))

theorem Shifted.used (h : Shifted s s' x) (hx : s'.Used x) : s.Used x := by
  cases h with
  | stays hst _ hr hs =>
    rcases hx with hx | hx | hx
    · exact .inl (hr ▸ hx)
    · exact .inr (.inl (hs hx))
    · exact .inr (.inr (hst ▸ hx))
  | preempted hr => exact .inl hr
  | woken ht => exact .inr (.inr (by rw [ht]; decide))
  | dispatched ht =>
    refine .inr (.inr fun he => ?_)
    rw [he] at ht
    cases ht

/-- A step makes the scheduler use only tasks that it used already, tasks that were created and
tasks that are handed something. -/
theorem TaskEffect.used (h : TaskEffect k k' x a) (he : a.Enabled k) (hx : k'.Used x) :
    k.Used x ∨ x ∈ k.tasks ∨ a.grantee k.toObjects = some x ∨ a.GrantsReader k.toObjects x := by
  cases h with
  | shifted h => exact .inl (h.used hx)
  | leaves hr | finished hr => exact .inl (.inl hr)
  | readied hset =>
    cases a with
    | taskStart | taskResume => exact .inr (.inl (hset.1 ▸ he))
    | taskFinished => exact .inl (.inl hset.1)
    | taskSuspend => cases hset.2
    | _ => exact .inr (.inr hset.1)
  | granted ht => exact .inr (.inr (.inl ht))
  | suspended => exact .inr (.inl he)
  | switched hst _ hr hs =>
    rcases hx with hx | hx | hx
    · exact .inl (.inr (.inl (hr ▸ hx)))
    · cases hs.symm.trans hx
    · exact .inl (.inr (.inr (hst ▸ hx)))

theorem SchedEffect.tasks (h : SchedEffect k k' a) : k'.tasks = k.tasks := h.turn.tasks

section Linked
variable {o o' : Objects} {w : Waitable} {T l pre : List TaskId}

/-- The blocked lists hold tasks of `T` only, and every walk along them ends. -/
structure Linked (o : Objects) (T : List TaskId) : Prop where
  grounded : Grounded o.nblocked
  head : ∀ w t, o.blocked w = some t → t ∈ T
  link : ∀ x t, o.nblocked x = some t → t ∈ T

theorem Linked.of_eq (h : Linked o T) (hb : o'.blocked = o.blocked)
    (hn : o'.nblocked = o.nblocked) : Linked o' T where
  grounded := by rw [hn]; exact h.grounded
  head w t ht := h.head w t (by rw [← hb]; exact ht)
  link x t ht := h.link x t (by rw [← hn]; exact ht)

theorem Linked.mem_of_onList (h : Linked o T) (hl : o.OnList w t) : t ∈ T := by
  obtain ⟨pre, hp⟩ := hl
  exact hp.invariant (h.head w) h.link

theorem Linked.list (h : Linked o T) (w : Waitable) :
    ∃ l, Chain o.nblocked (o.blocked w) l ∧ ∀ x ∈ l, x ∈ T := by
  obtain ⟨l, hl⟩ := h.grounded.chain (o.blocked w)
  exact ⟨l, hl, fun x hx => h.mem_of_onList (hl.mem_iff.1 hx)⟩

theorem Linked.unlink (h : Linked o T) (hp : Segment o.nblocked (o.blocked w) pre (some t)) :
    Linked (o.unlink w pre.getLast? t) T := by
  obtain ⟨l, hl⟩ := h.grounded.chain (o.blocked w)
  obtain ⟨post, rfl⟩ := hl.eq_append hp
  obtain ⟨mid, -, hmid⟩ := hl.split
  have hn := hl.nodup
  have hdisj : ∀ x ∈ pre, x ∉ post := fun x hx hx' =>
    (List.nodup_append.1 hn).2.2 x hx x (List.mem_cons_of_mem _ hx') rfl
  constructor
  · exact (h.grounded.setLink hmid.2 hdisj).clear
  · intro w' x hx
    simp only [Objects.unlink, Function.update_apply] at hx
    split_ifs at hx
    · exact (setLink_head hx).elim (h.head w x) (h.link t x)
    · exact h.head w' x hx
  · intro y x hx
    simp only [Objects.unlink, Function.update_apply] at hx
    split_ifs at hx
    exact (setLink_link hx).elim (h.link y x) (h.link t x)

theorem Linked.append (h : Linked o T) (hn : o.nblocked t = none) (ht : t ∉ l) (hT : t ∈ T) :
    Linked (o.link w l.getLast? t) T := by
  have hv : Chain o.nblocked (some t) [t] := ⟨rfl, hn⟩
  constructor
  · apply h.grounded.setLink hv
    intro x hx hxt
    rw [List.mem_singleton.1 hxt] at hx
    exact ht hx
  · intro w' x hx
    simp only [Objects.link, Function.update_apply] at hx
    split_ifs at hx
    · apply (setLink_head hx).elim (h.head w x)
      intro he
      cases he
      exact hT
    · exact h.head w' x hx
  · intro y x hx
    apply (setLink_link hx).elim (h.link y x)
    intro he
    cases he
    exact hT

theorem Blocks.linked (h : Blocks o w t o') (hl : Linked o T) (hT : t ∈ T) : Linked o' T := by
  obtain ⟨n, o₁, h, rfl⟩ := h
  simp only [blockedEnq, bind_eq_ok, osAssert_eq_ok, pure_eq_ok] at h
  obtain ⟨o₂, ha, _, -, rfl⟩ := h
  obtain ⟨l, hc, -⟩ := hl.list w
  obtain ⟨hn, ht, rfl⟩ := blockedAppend_spec ha hc
  have hl' : Linked (o.link w l.getLast? t) T := hl.append hn ht hT
  cases w <;> exact hl'.of_eq rfl rfl

theorem Detaches.linked (h : Detaches o t o') (hf : Flagged o) (hl : Linked o T) :
    Linked o' T := by
  rcases h.cases hf with ⟨-, rfl⟩ | ⟨n, w, o₁, -, -, -, hd, rfl⟩
  · exact hl
  · obtain ⟨l, hc, -⟩ := hl.list w
    have h₁ : Linked o₁ T := by
      rcases detachList_spec hd hc with ⟨-, rfl⟩ | ⟨pre, post, rfl, rfl⟩
      · exact hl
      · obtain ⟨mid, hp, hm, -⟩ := hc.split
        exact hl.unlink (hm ▸ hp)
    exact h₁.of_eq (by cases w <;> rfl) (by cases w <;> rfl)

theorem WaitEdit.linked (h : WaitEdit k a o) (hl : Linked k.toObjects T) : Linked o T := by
  cases h with
  | same h => exact hl.of_eq h.blocked h.nblocked
  | grant _ hp h => exact (hl.unlink hp).of_eq h.blocked h.nblocked
  | restart =>
    constructor
    · exact hl.grounded.clear
    · exact hl.head
    · intro x y hx
      simp only [Objects.restarted, Function.update_apply] at hx
      split_ifs at hx
      exact hl.link x y hx

theorem WaitEffect.linked (h : WaitEffect k k' a) (hf : Flagged k.toObjects) (hn : NextFree k)
    (hl : Linked k.toObjects T) (hT : ∀ t, k.running = some t → t ∈ T) :
    Linked k'.toObjects T := by
  cases h with
  | edit he hs hw =>
    have h₁ := he.linked hl
    cases hs with
    | same ho =>
      rw [ho] at hw
      exact h₁.of_eq hw.blocked hw.nblocked
    | dispatched hd => exact (hd.linked (he.flagged hf) h₁).of_eq hw.blocked hw.nblocked
  | block _ hs hr h₀ hb hd _ hw =>
    have hz := hn _ ((next_of_none hs).trans hr)
    have hl₀ := hl.of_eq h₀.blocked h₀.nblocked
    have hf₁ := hb.flagged (hf.of_same h₀.toSameWaits) (by rw [h₀.flags]; exact hz)
    exact (hd.linked hf₁ (hb.linked hl₀ (hT _ hr))).of_eq hw.blocked hw.nblocked
  | contextSwitch ho =>
    rw [ho]
    exact hl

end Linked

/-- Only created tasks are used and blocked, and no task is created twice. -/
structure Created (k : Kernel) : Prop where
  nodup : k.tasks.Nodup
  used : ∀ t, k.Used t → t ∈ k.tasks
  blocked : ∀ t, k.flags t ≠ 0 → t ∈ k.tasks

theorem WaitEffect.flags (h : WaitEffect k k' a) (hf : Flagged k.toObjects) (hn : NextFree k)
    (ht : k.flags t = 0) (hr : ¬ (a.isCall ∧ k.running = some t)) : k'.flags t = 0 := by
  cases h with
  | edit hed hs hw =>
    rw [hw.flags]
    exact hs.flags (hed.flagged hf) (hed.flags ht)
  | @block call w r x o₀ o o₁ _ hs hr' h₀ hb hd _ hw =>
    have hz : o₀.flags r = 0 := by
      rw [h₀.flags]
      exact hn _ ((next_of_none hs).trans hr')
    have hne : t ≠ r := fun he => hr ⟨rfl, he ▸ hr'⟩
    have hot : o.flags t = 0 := by
      obtain ⟨o₂, -, -, rfl⟩ := hb.fields hz
      simp only [Function.update_of_ne hne, h₀.flags, ht]
    rw [hw.flags, (hd.fields (hb.flagged (hf.of_same h₀.toSameWaits) hz)).1]
    simp only [Function.update_apply, hot, ite_self]
  | contextSwitch ho =>
    rw [ho]
    exact ht

theorem Created.mem_of_onList (hc : Created k) {L : Waitable → List TaskId} {w : Waitable}
    (hi : BlockedInv k.toObjects L) (h : k.OnList w t) : t ∈ k.tasks := by
  apply hc.blocked t
  rw [(hi.waits w t (hi.mem_iff.2 h)).2]
  exact flag_ne_zero w

theorem Created.step (hc : Created k) (hs : machine.step k a k') (hq : Queued c k.toSched)
    (hn : NextInv (· ≠ .wait) k.toSched) (hf : Flagged k.toObjects) (hfree : NextFree k)
    (hl : Linked k.toObjects k.tasks) : Created k' := by
  have heff := Act.run_effect hs.2
  constructor
  · exact by rw [heff.tasks]; exact hc.nodup
  · intro t ht
    rw [heff.tasks]
    rcases (heff.task hq hn hs.1 t).used hs.1 ht with h | h | h | h
    · exact hc.used t h
    · exact h
    · obtain ⟨w, -, h⟩ := Act.onList_of_grantee h
      exact hl.mem_of_onList h
    · obtain ⟨w, -, h⟩ := Act.onList_of_grantsReader h
      exact hl.mem_of_onList h
  · intro t ht
    rw [heff.tasks]
    by_cases hz : k.flags t = 0
    · by_cases hr : k.running = some t
      · exact hc.used t (.inl hr)
      · exact absurd ((Act.run_waits hs.1 hs.2).flags hf hfree hz fun h => hr h.2) ht
    · exact hc.blocked t hz

theorem Created.init (hk : machine.init k) : Created k := by
  obtain ⟨b, hb⟩ := hk
  have hu := b.start_unused hb
  obtain ⟨k₀, i, ⟨hboot, hnd⟩, hi, rfl⟩ := b.start_invariant
    (I := fun k => Booting k.toSched ∧ k.tasks.Nodup) hb
    ⟨Booting.initialized b, List.nodup_nil⟩ fun k t options k' _ ht hst ⟨hk, hnd⟩ h => by
      refine ⟨hk.step ht hst h, ?_⟩
      rw [(osTaskInitializeOptions_tasks hst h).2]
      exact List.nodup_cons.2 ⟨ht, hnd⟩
  have hmem {t : TaskId} (ht : k₀.status t ≠ .finished) : t ∈ k₀.tasks :=
    by_contra fun h => ht (hboot.fresh t h)
  have hmi : i ∈ k₀.tasks := hmem (by rw [hboot.idle i hi]; decide)
  constructor
  · exact hnd
  · intro t ht
    rcases ht with hr | hs | hst
    · cases hr
      exact hmi
    · cases hboot.scheduled.symm.trans hs
    · by_cases hti : t = i
      · exact hti ▸ hmi
      · have hst' : update k₀.status i .active t ≠ .finished := hst
        exact hmem (by rwa [Function.update_of_ne hti] at hst')
  · intro t ht
    rw [hu.waits.flags] at ht
    exact absurd rfl ht

theorem Linked.init (hk : machine.init k) : Linked k.toObjects k.tasks := by
  obtain ⟨b, hb⟩ := hk
  have hu := b.start_unused hb
  refine ⟨fun t => ⟨[t], rfl, ?_⟩, fun w t ht => ?_, fun x t ht => ?_⟩
  · rw [hu.waits.nblocked]
    rfl
  · rw [hu.waits.blocked] at ht
    cases ht
  · rw [hu.waits.nblocked] at ht
    cases ht

/-- Only created tasks are used, blocked and on blocked lists in a run. -/
theorem reach_linked (h : machine.Reach ok k) : Created k ∧ Linked k.toObjects k.tasks := by
  induction h with
  | init h => exact ⟨.init h, .init h⟩
  | step h ha hs ih =>
    obtain ⟨hc, hl⟩ := ih
    obtain ⟨hq, hn⟩ := reach_queued (c := False) h fun hc => hc.elim
    obtain ⟨hf, hfree⟩ := reach_flagged h
    refine ⟨hc.step hs hq hn hf hfree hl, ?_⟩
    rw [(Act.run_effect hs.2).tasks]
    exact (Act.run_waits hs.1 hs.2).linked hf hfree hl fun t ht => hc.used t (.inl ht)

theorem reach_created (h : machine.Reach ok k) : Created k := (reach_linked h).1

end Osh
