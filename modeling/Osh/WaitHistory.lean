import Osh.WaitRuns

namespace Osh
open Function (update)
open Lib

/-- What the tasks have come to wait for: `asleep t` is the call in which `t` blocked, if it has not
run since, and `since t` the number of the step in which it did. -/
structure WaitHistory where
  time : Nat
  asleep : TaskId → Option Svc
  since : TaskId → Nat

def WaitHistory.pending (h : WaitHistory) (t : TaskId) : Option Waitable :=
  (h.asleep t).bind Svc.target

variable {k k' : Kernel} {t x : TaskId} {w : Waitable} {a : Act} {L L₁ : Waitable → List TaskId}
  {h : WaitHistory}

def WaitHistory.start : WaitHistory where
  time := 0
  asleep _ := none
  since _ := 0

/-- A call of `t` that does not return: `t` is left with a flag. -/
def Act.Sleeps (k k' : Kernel) (t : TaskId) (a : Act) : Prop :=
  a.isCall ∧ k.running = some t ∧ k'.flags t ≠ 0

instance : Decidable (a.Sleeps k k' t) := by
  unfold Act.Sleeps
  infer_instance

/-- A task no longer waits when it runs or when it is restarted. -/
def Act.Wakes (k : Kernel) (t : TaskId) : Act → Prop
  | .contextSwitch => k.scheduled = some t
  | .taskStart task _ _ => task = t
  | _ => False

instance : Decidable (a.Wakes k t) :=
  match a with
  | .contextSwitch => inferInstanceAs (Decidable (k.scheduled = some t))
  | .taskStart task _ _ => inferInstanceAs (Decidable (task = t))
  | .svc _ | .taskFinished | .taskSuspend _ | .taskResume _ | .systick | .schedule
  | .enqueueIsr _ _ | .clock _ _ => inferInstanceAs (Decidable False)

def Act.call? : Act → Option Svc
  | .svc call => some call
  | _ => none

def WaitHistory.record (h : WaitHistory) (k : Kernel) (a : Act) (k' : Kernel) : WaitHistory where
  time := h.time + 1
  asleep t := if a.Sleeps k k' t then a.call? else if a.Wakes k t then none else h.asleep t
  since t := if a.Sleeps k k' t then h.time else h.since t

/-- The blocked lists hold tasks that still wait, in the order in which they blocked. -/
structure Waits (k : Kernel) (h : WaitHistory) (L : Waitable → List TaskId) : Prop where
  blocked : BlockedInv k.toObjects L
  pending : ∀ w, ∀ t ∈ L w, h.pending t = some w
  order : ∀ w, (L w).Pairwise fun t t' => h.since t < h.since t'
  past : ∀ w, ∀ t ∈ L w, h.since t < h.time
  parked : ∀ t, h.pending t ≠ none → k.running = some t → k.scheduled ≠ none

theorem Waits.not_calls (hw : Waits k h L) (he : a.Enabled k) (hc : a.isCall)
    (ht : h.pending t ≠ none) : k.running ≠ some t :=
  fun hr => hw.parked t ht hr (he.of_call hc)

theorem WaitHistory.asleep_record (hs : ¬ a.Sleeps k k' t) (hw : ¬ a.Wakes k t) :
    (h.record k a k').asleep t = h.asleep t := by
  simp only [WaitHistory.record, if_neg hs, if_neg hw]

theorem WaitHistory.pending_record (hs : ¬ a.Sleeps k k' t) (hw : ¬ a.Wakes k t) :
    (h.record k a k').pending t = h.pending t := by
  rw [WaitHistory.pending, WaitHistory.asleep_record hs hw, WaitHistory.pending]

theorem WaitHistory.pending_sleeps (hs : a.Sleeps k k' t) :
    (h.record k a k').pending t = a.target := by
  simp only [WaitHistory.pending, WaitHistory.record, if_pos hs]
  cases a <;> first | rfl | cases hs.1

theorem WaitHistory.pending_wakes (hs : ¬ a.Sleeps k k' t) (hw : a.Wakes k t) :
    (h.record k a k').pending t = none := by
  simp only [WaitHistory.pending, WaitHistory.record, if_neg hs, if_pos hw, Option.bind_none]

theorem WaitHistory.asleep_sleeps (hs : a.Sleeps k k' t) :
    (h.record k a k').asleep t = a.call? := if_pos hs

theorem WaitHistory.since_record (hs : ¬ a.Sleeps k k' t) :
    (h.record k a k').since t = h.since t := by
  simp only [WaitHistory.record, if_neg hs]

theorem Waits.not_sleeps (hw : Waits k h L) (he : a.Enabled k) (ht : h.pending t ≠ none) :
    ¬ a.Sleeps k k' t :=
  fun hs => hw.not_calls he hs.1 ht hs.2.1

/-- The first task of a list has waited longest. -/
theorem Waits.first (hw : Waits k h L) (hb : k.blocked w = some t) (hx : k.OnList w x)
    (hne : x ≠ t) : h.since t < h.since x := by
  obtain ⟨rest, hL⟩ := hw.blocked.lists.head hb
  have horder := hw.order w
  have hmem := hw.blocked.mem_iff.2 hx
  rw [hL] at horder hmem
  exact (List.pairwise_cons.1 horder).1 x (List.mem_of_ne_of_mem hne hmem)

theorem Waits.pending_of_onList (hw : Waits k h L) (hl : k.OnList w t) : h.pending t = some w :=
  hw.pending w t (hw.blocked.mem_iff.2 hl)

theorem Waits.not_wakes (hw : Waits k h L) (hn : NextFree k) (hok : a.RestartsFree k)
    (hl : k.OnList w t) : ¬ a.Wakes k t := by
  intro hwake
  cases a <;> try exact hwake
  case contextSwitch =>
    exact hw.blocked.notMem (hn t (next_of_scheduled hwake)) w (hw.blocked.mem_iff.2 hl)
  case taskStart task p q =>
    obtain rfl : task = t := hwake
    exact hok w hl

theorem Waits.step (hw : Waits k h L) (hs : machine.step k a k') (hf : Flagged k.toObjects)
    (hn : NextFree k) (hok : a.RestartsFree k) :
    ∃ L₁, Relists k k' L a L₁ ∧ Waits k' (h.record k a k') (without L₁ k'.scheduled) := by
  have heff := Act.run_waits hs.1 hs.2
  obtain ⟨L₁, hL, hi'⟩ := heff.blockedInv hs.1 hf hn hw.blocked hok
  refine ⟨L₁, hL, ?_⟩
  have hnot {t : TaskId} {w : Waitable} (ht : t ∈ L w) : ¬ a.Sleeps k k' t ∧ ¬ a.Wakes k t := by
    have hp := hw.pending w t ht
    exact ⟨hw.not_sleeps hs.1 (by rw [hp]; simp), hw.not_wakes hn hok (hw.blocked.mem_iff.1 ht)⟩
  have hold {t : TaskId} {w : Waitable} (ht : t ∈ L w) :
      (h.record k a k').pending t = some w ∧ (h.record k a k').since t = h.since t ∧
        h.since t < h.time := by
    obtain ⟨hsl, hwk⟩ := hnot ht
    exact ⟨(WaitHistory.pending_record hsl hwk).trans (hw.pending w t ht),
      WaitHistory.since_record hsl, hw.past w t ht⟩
  have horder {w : Waitable} {l : List TaskId} (hl : l.Sublist (L w)) :
      l.Pairwise fun t t' => (h.record k a k').since t < (h.record k a k').since t' := by
    refine ((hw.order w).sublist hl).imp_of_mem fun hx hy hxy => ?_
    rw [(hold (hl.subset hx)).2.1, (hold (hl.subset hy)).2.1]
    exact hxy
  have hnew {t : TaskId} {w : Waitable} (hw' : a.target = some w) (hc : a.isCall)
      (hr : k.running = some t) (ht : t ∈ without L₁ k'.scheduled w) :
      (h.record k a k').pending t = some w ∧ (h.record k a k').since t = h.time := by
    have hsl : a.Sleeps k k' t := by
      refine ⟨hc, hr, ?_⟩
      rw [(hi'.waits w t ht).2]
      exact flag_ne_zero w
    exact ⟨(WaitHistory.pending_sleeps hsl).trans hw', if_pos hsl⟩
  constructor
  · exact hi'
  · intro w t ht
    rcases hL.mem (mem_without.1 ht).1 with hm | ⟨hc, hw', hr⟩
    · exact (hold hm).1
    · exact (hnew hw' hc hr ht).1
  · intro w
    cases hL with
    | same => exact horder List.filter_sublist
    | @leave _ w' pre post t _ _ hpre =>
      by_cases he : w = w'
      · subst he
        refine horder (w := w) (List.filter_sublist.trans ?_)
        rw [Function.update_self, hpre]
        exact List.Sublist.append_left (List.sublist_cons_self t post) pre
      · refine horder (w := w) (List.filter_sublist.trans ?_)
        rw [Function.update_of_ne he]
    | @join call w' t x ht hr hs' hne =>
      by_cases he : w = w'
      · subst he
        have ht' : t ∈ without (update L w (L w ++ [t])) k'.scheduled w := by
          simp [mem_without, hs', Ne.symm hne]
        have hlast := (hnew ht rfl hr ht').2
        apply List.Pairwise.sublist List.filter_sublist
        rw [Function.update_self, List.pairwise_append]
        refine ⟨horder (List.Sublist.refl _), List.pairwise_singleton _ _, fun y hy z hz => ?_⟩
        obtain rfl := List.mem_singleton.1 hz
        rw [hlast, (hold hy).2.1]
        exact (hold hy).2.2
      · refine horder (w := w) (List.filter_sublist.trans ?_)
        rw [Function.update_of_ne he]
  · intro w t ht
    change _ < h.time + 1
    rcases hL.mem (mem_without.1 ht).1 with hm | ⟨hc, hw', hr⟩
    · rw [(hold hm).2.1]
      exact Nat.lt_succ_of_lt (hold hm).2.2
    · rw [(hnew hw' hc hr ht).2]
      exact Nat.lt_succ_self _
  · intro t ht hr
    by_cases hsl : a.Sleeps k k' t
    · cases hL with
      | same hz | leave hz => exact absurd (hz hsl.1 t hsl.2.1) hsl.2.2
      | join _ _ hs' => rw [hs']; simp
    · have hwk : ¬ a.Wakes k t := fun hwk => ht (WaitHistory.pending_wakes hsl hwk)
      rw [WaitHistory.pending_record hsl hwk] at ht
      have ha : a ≠ .contextSwitch := by
        rintro rfl
        have hr' : k'.running = k.scheduled := by
          cases hs.2
          rfl
        exact hwk (hr'.symm.trans hr)
      obtain ⟨hr', hs'⟩ := heff.scheduled ha
      exact hs' (hw.parked t ht (hr'.symm.trans hr))

theorem Waits.onList_step (hw : Waits k h L) (hs : machine.step k a k') (hf : Flagged k.toObjects)
    (hn : NextFree k) (hok : a.RestartsFree k) (hl : k'.OnList w t) :
    k'.scheduled ≠ some t ∧ (k.OnList w t ∨ a.Sleeps k k' t ∧ a.target = some w) := by
  obtain ⟨L₁, hL, hw'⟩ := hw.step hs hf hn hok
  have hm := hw'.blocked.mem_iff.2 hl
  refine ⟨(mem_without.1 hm).2, ?_⟩
  rcases hL.mem (mem_without.1 hm).1 with h | ⟨hc, ht, hr⟩
  · exact .inl (hw.blocked.mem_iff.1 h)
  · refine .inr ⟨⟨hc, hr, ?_⟩, ht⟩
    rw [(hw'.blocked.waits w t hm).2]
    exact flag_ne_zero w

theorem Waits.init (hk : machine.init k) : Waits k .start fun _ => [] := by
  obtain ⟨b, hb⟩ := hk
  exact ⟨(b.start_unused hb).blockedInv, by simp, by simp, by simp, fun t ht => absurd rfl ht⟩

def Waiting (k : Kernel) (h : WaitHistory) : Prop :=
  Flagged k.toObjects ∧ NextFree k ∧ ∃ L, Waits k h L

theorem Waiting.init (hk : machine.init k) : Waiting k .start := by
  have hr : machine.Reach (fun _ _ => True) k := .init hk
  obtain ⟨hf, hn⟩ := reach_flagged hr
  exact ⟨hf, hn, _, .init hk⟩

theorem Waiting.step (hw : Waiting k h) (hs : machine.step k a k') (hok : a.RestartsFree k) :
    Waiting k' (h.record k a k') := by
  obtain ⟨hf, hn, L, hw⟩ := hw
  obtain ⟨hf', hn'⟩ := (Act.run_waits hs.1 hs.2).flagged hf hn
  obtain ⟨L₁, -, hw'⟩ := hw.step hs hf hn hok
  exact ⟨hf', hn', _, hw'⟩

theorem Waits.pending_of_grantee (hw : Waits k h L) (ht : a.grantee k.toObjects = some t) :
    a.target ≠ none ∧ h.pending t = a.target := by
  obtain ⟨w, hw', hl⟩ := Act.onList_of_grantee ht
  rw [hw', hw.pending_of_onList hl]
  simp

theorem Waits.pending_of_grantsReader (hw : Waits k h L) (ht : a.GrantsReader k.toObjects t) :
    a.target ≠ none ∧ h.pending t = a.target := by
  obtain ⟨w, hw', hl⟩ := Act.onList_of_grantsReader ht
  rw [hw', hw.pending_of_onList hl]
  simp

/-- The frame of a task that waits is written only when it is handed what it waits for. -/
theorem Waits.not_touches (hw : Waits k h L) (he : a.Enabled k) (ht : h.pending t ≠ none)
    (hwk : ¬ a.Wakes k t) (hg : a.grantee k.toObjects ≠ some t)
    (hr : ¬ a.GrantsReader k.toObjects t) : ¬ a.Touches k t := by
  cases a <;> try exact id
  case svc call =>
    rintro (h | h | h)
    · exact hw.not_calls he rfl ht h
    · exact hg h
    · exact hr h
  case taskStart => exact hwk
  case enqueueIsr => exact hg

theorem Waits.not_touches_of_ne (hw : Waits k h L) (he : a.Enabled k)
    (ht : h.pending t = some w) (hwk : ¬ a.Wakes k t) (ha : a.target ≠ some w) :
    ¬ a.Touches k t := by
  refine hw.not_touches he (by rw [ht]; simp) hwk (fun hg => ha ?_) fun hr => ha ?_
  · rw [← (hw.pending_of_grantee hg).2, ht]
  · rw [← (hw.pending_of_grantsReader hr).2, ht]

/-- The call of `t` that a step reports as successful: `t` makes it in this step, or sleeps in it
and now finds success in its frame. -/
def Act.succeeds (k k' : Kernel) (h : WaitHistory) (t : TaskId) (a : Act) : Option Svc :=
  if a.isCall ∧ k.running = some t then
    if (k'.regs t).r0 = Status.success.code then a.call? else none
  else if ¬ a.Wakes k t ∧ (k.regs t).r0 ≠ Status.success.code ∧
      (k'.regs t).r0 = Status.success.code then h.asleep t
  else none

theorem Act.succeeds_caller {call : Svc} (hr : k.running = some t) :
    (Act.svc call).succeeds k k' h t =
      if (k'.regs t).r0 = Status.success.code then some call else none := by
  rw [Act.succeeds, if_pos ⟨rfl, hr⟩]
  rfl

theorem Act.succeeds_same (hr : ¬ (a.isCall ∧ k.running = some t)) (hx : k'.regs t = k.regs t) :
    a.succeeds k k' h t = none := by
  rw [Act.succeeds, if_neg hr, if_neg]
  rintro ⟨-, hne, he⟩
  exact hne (hx ▸ he)

theorem Act.succeeds_asleep (hr : ¬ (a.isCall ∧ k.running = some t)) (hwk : ¬ a.Wakes k t)
    (hne : (k.regs t).r0 ≠ Status.success.code) (he : (k'.regs t).r0 = Status.success.code) :
    a.succeeds k k' h t = h.asleep t := by
  rw [Act.succeeds, if_neg hr, if_pos ⟨hwk, hne, he⟩]

theorem Waits.target_of_succeeds {call : Svc} (hw : Waits k h L) (hs : machine.step k a k')
    (hf : Flagged k.toObjects) (hn : NextFree k) (hsucc : a.succeeds k k' h t = some call)
    (hc : call.target ≠ none) : a.target = call.target := by
  by_cases hr : a.isCall ∧ k.running = some t
  · rw [Act.succeeds, if_pos hr] at hsucc
    split_ifs at hsucc
    cases a <;> cases hsucc
    rfl
  · by_contra ha
    rw [Act.succeeds, if_neg hr] at hsucc
    split_ifs at hsucc with hcond
    obtain ⟨hwk, hne, he⟩ := hcond
    obtain ⟨w, hwt⟩ := Option.ne_none_iff_exists'.1 hc
    have hp : h.pending t = some w := by rw [WaitHistory.pending, hsucc]; exact hwt
    have hregs := ((Act.run_waits hs.1 hs.2).framed hf hn).2 t
      (hw.not_touches_of_ne hs.1 hp hwk (fun h => ha (h.trans hwt.symm)))
    exact hne (hregs ▸ he)

end Osh
