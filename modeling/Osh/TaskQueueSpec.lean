import Mathlib.Data.List.Sort
import Osh.TaskQueues

namespace Osh
open Function (update)
open Lib

variable {s s' : Sched} {t : TaskId} {l m r w : List TaskId}

/-- Where `runqueue_add` puts `t`: before the first task of lower priority. -/
def insertByPriority (priority : TaskId → Nat) (t : TaskId) (l : List TaskId) : List TaskId :=
  l.orderedInsert (fun a b => priority a > priority b) t

/-- Where `waitqueue_add` puts `t`: before the first task with a later deadline. -/
def insertByDelay (delay : TaskId → Nat) (t : TaskId) (l : List TaskId) : List TaskId :=
  l.orderedInsert (fun a b => delay a < delay b) t

section Loops
variable {n bound : Nat} {links : Links} {head : Option TaskId} {nrp : TaskId → Option TaskId}
  {priority delay : TaskId → Nat}

/-- The links of `task` joined the list `l`, and no link of another task outside it changed. -/
structure Joined (nrp : TaskId → Option TaskId) (t : TaskId) (l l' : List TaskId)
    (links : Links) : Prop where
  chain : Chain links.2 links.1 l'
  frame : ∀ x, x ≠ t → x ∉ l → links.2 x = nrp x

theorem joined_insert (hc : Chain nrp head (l ++ m)) (ht : t ∉ l ++ m) :
    Joined nrp t (l ++ m) (l ++ t :: m)
      (setLink head (update nrp t m.head?) l.getLast? (some t)) where
  chain := hc.insert ht
  frame x hx hm := by
    rw [setLink_ne fun h => hm (List.mem_append_left _ h)]
    exact Function.update_of_ne hx _ _

theorem joined_last {b : TaskId} (hc : Chain nrp head (l ++ [b])) (ht : t ∉ l ++ [b])
    (hn : nrp t = none) :
    Joined nrp t (l ++ [b]) (l ++ [b, t]) (head, update nrp b (some t)) := by
  have h := joined_insert (m := []) (l := l ++ [b]) (by simpa using hc) (by simpa using ht)
  have he : update nrp t none = nrp := by rw [← hn, Function.update_eq_self]
  simpa [setLink, he] using h

theorem runqueueAddLoop_spec
    (h : runqueueAddLoop priority t head nrp n l.getLast? m.head? = .ok links)
    (hc : Chain nrp head (l ++ m)) (ht : t ∉ l ++ m) (hn : nrp t = none) :
    Joined nrp t (l ++ m) (l ++ insertByPriority priority t m) links := by
  induction m generalizing l n with
  | nil => cases n <;> cases h
  | cons b m ih =>
    have hbt : b ≠ t := fun he => ht (by simp [he])
    obtain ⟨mid, -, hm⟩ := hc.split
    obtain ⟨-, hb⟩ := chain_cons.1 hm
    cases n with
    | zero => cases h
    | succ n =>
      rw [List.head?_cons, runqueueAddLoop, if_neg hbt] at h
      simp only [insertByPriority, List.orderedInsert]
      split_ifs at h ⊢ with hp hz
      · cases h
        exact joined_insert hc ht
      · cases h
        obtain rfl := chain_none.1 (hz ▸ hb)
        exact joined_last hc ht hn
      · have he : l ++ b :: m = (l ++ [b]) ++ m := by simp
        rw [he] at hc ht ⊢
        have hi := ih (l := l ++ [b]) (n := n) (by simpa [hb.head_eq] using h) hc ht
        simpa [insertByPriority] using hi

theorem waitqueueAddLoop_spec
    (h : waitqueueAddLoop delay t head nrp bound n l.getLast? m.head? = .ok links)
    (hc : Chain nrp head (l ++ m)) (ht : t ∉ l ++ m) (hn : nrp t = none) :
    Joined nrp t (l ++ m) (l ++ insertByDelay delay t m) links := by
  induction m generalizing l n with
  | nil => cases n <;> cases h
  | cons b m ih =>
    obtain ⟨mid, -, hm⟩ := hc.split
    obtain ⟨-, hb⟩ := chain_cons.1 hm
    cases n with
    | zero => cases h
    | succ n =>
      rw [List.head?_cons, waitqueueAddLoop] at h
      simp only [bind_eq_ok, osAssert_eq_ok, exists_const] at h
      obtain ⟨hbt, h⟩ := h
      simp only [insertByDelay, List.orderedInsert]
      split_ifs at h ⊢ with hp hz
      · cases h
        exact joined_insert hc ht
      · obtain rfl := chain_none.1 (hz ▸ hb)
        simp only [bind_eq_ok, osAssert_eq_ok, pure_eq_ok] at h
        obtain ⟨_, -, _, -, rfl⟩ := h
        exact joined_last hc ht hn
      · have he : l ++ b :: m = (l ++ [b]) ++ m := by simp
        rw [he] at hc ht ⊢
        have hi := ih (l := l ++ [b]) (n := n) (by simpa [hb.head_eq] using h) hc ht
        simpa [insertByDelay] using hi

/-- A task that is already in the list stops the search, unless a task of lower priority stands
before it. -/
theorem runqueueAddLoop_mem
    (h : runqueueAddLoop priority t head nrp n l.getLast? (m ++ [t]).head? = .ok links)
    (hc : Chain nrp head (l ++ m ++ [t])) (hm : ∀ x ∈ m, priority t ≤ priority x) :
    links = (head, nrp) := by
  induction m generalizing l n with
  | nil =>
    cases n with
    | zero => cases h
    | succ n =>
      rw [List.nil_append, List.head?_cons, runqueueAddLoop, if_pos rfl] at h
      cases h
      rfl
  | cons b m ih =>
    have hn := hc.nodup
    have hbt : b ≠ t := by
      simp only [List.append_assoc, List.nodup_append, List.cons_append, List.nodup_cons] at hn
      exact fun he => hn.2.1.1 (by simp [he])
    rw [List.append_assoc] at hc
    obtain ⟨mid, -, hb⟩ := hc.split
    obtain ⟨-, hb⟩ := chain_cons.1 hb
    have hnext : nrp b = (m ++ [t]).head? := hb.head_eq
    cases n with
    | zero => cases h
    | succ n =>
      rw [List.cons_append, List.head?_cons, runqueueAddLoop, if_neg hbt,
        if_neg (Nat.not_lt.2 (hm b List.mem_cons_self)),
        if_neg (by rw [hnext]; cases m <;> simp)] at h
      apply ih (l := l ++ [b]) (n := n) (by simpa [hnext] using h) (by simpa using hc)
      exact fun x hx => hm x (List.mem_cons_of_mem _ hx)

theorem removeLoop_spec (h : removeLoop t head nrp n l.getLast? m.head? = .ok links)
    (hc : Chain nrp head (l ++ m)) (ht : t ∉ l) :
    Chain links.2 links.1 (l ++ m.erase t) ∧ (∀ x, x ∉ l ++ m → links.2 x = nrp x) ∧
      (t ∈ m → links.2 t = none) := by
  induction m generalizing l n with
  | nil =>
    obtain rfl : links = (head, nrp) := by cases n <;> cases h <;> rfl
    exact ⟨hc, fun _ _ => rfl, by simp⟩
  | cons b m ih =>
    obtain ⟨mid, hl, hb⟩ := hc.split
    obtain ⟨hmid, hb⟩ := chain_cons.1 hb
    cases n with
    | zero => cases h
    | succ n =>
      rw [List.head?_cons, removeLoop] at h
      by_cases hbt : b = t
      · subst b
        have hlinks : links = ((setLink head nrp l.getLast? (nrp t)).1,
            update (setLink head nrp l.getLast? (nrp t)).2 t none) := by
          rw [if_pos rfl] at h
          split_ifs at h with hh
          · -- `t` is the head, so no node stands before it
            obtain rfl : l = [] := by
              cases l with
              | nil => rfl
              | cons c l =>
                have hct := hc.head_eq
                simp only [hh, List.cons_append, List.head?_cons, Option.some.injEq] at hct
                exact absurd (by simp [hct]) ht
            cases h
            rfl
          · cases h
            rfl
        subst hlinks
        rw [List.erase_cons_head]
        refine ⟨hc.unlink, fun x hx => ?_, fun _ => Function.update_self ..⟩
        rw [List.mem_append, not_or, List.mem_cons, not_or] at hx
        exact (Function.update_of_ne hx.2.1 _ _).trans (setLink_ne hx.1)
      · rw [if_neg hbt] at h
        have he : l ++ b :: m = (l ++ [b]) ++ m := by simp
        have hi := ih (l := l ++ [b]) (n := n) (by simpa [hb.head_eq] using h) (he ▸ hc)
          (by simp [ht, Ne.symm hbt])
        rw [List.erase_cons_tail (by simpa using hbt)]
        refine ⟨by simpa using hi.1, fun x hx => hi.2.1 x (by simpa using hx), fun hm => ?_⟩
        exact hi.2.2 ((List.mem_cons.1 hm).resolve_left (Ne.symm hbt))

end Loops

abbrev Rethreaded (s s' : Sched) : Prop :=
  s' = { s with nrp := s'.nrp, runqueue := s'.runqueue, waitqueue := s'.waitqueue }

structure Relinked (l : List TaskId) (s s' : Sched) : Prop where
  rest : Rethreaded s s'
  frame : ∀ x, x ∉ l → s'.nrp x = s.nrp x

namespace Rethreaded

theorem status (h : Rethreaded s s') : s'.status = s.status := by
  rw [h]

theorem priority (h : Rethreaded s s') : s'.priority = s.priority := by
  rw [h]

theorem delay (h : Rethreaded s s') : s'.delay = s.delay := by
  rw [h]

theorem running (h : Rethreaded s s') : s'.running = s.running := by
  rw [h]

theorem scheduled (h : Rethreaded s s') : s'.scheduled = s.scheduled := by
  rw [h]

theorem tasks (h : Rethreaded s s') : s'.tasks = s.tasks := by
  rw [h]

theorem idle (h : Rethreaded s s') : s'.idle = s.idle := by
  rw [h]

theorem uptime (h : Rethreaded s s') : s'.uptime = s.uptime := by
  rw [h]

theorem trans {s₁ : Sched} (h : Rethreaded s s₁) (h' : Rethreaded s₁ s') : Rethreaded s s' := by
  rw [Rethreaded, h', h]

end Rethreaded

theorem runqueueAdd_rethreaded (h : runqueueAdd s t = .ok s') : Rethreaded s s' := by
  unfold runqueueAdd at h
  cases hq : s.runqueue with
  | none =>
    simp only [hq, Except.ok.injEq] at h
    rw [← h]
  | some head =>
    simp only [hq, bind_eq_ok, osAssert_eq_ok, pure_eq_ok] at h
    obtain ⟨_, -, links, -, rfl⟩ := h
    rfl

theorem waitqueueAdd_rethreaded (h : waitqueueAdd s t = .ok s') : Rethreaded s s' := by
  unfold waitqueueAdd at h
  cases hq : s.waitqueue with
  | none =>
    simp only [hq, Except.ok.injEq] at h
    rw [← h]
  | some head =>
    simp only [hq, bind_eq_ok, pure_eq_ok] at h
    obtain ⟨links, -, rfl⟩ := h
    rfl

theorem runqueueRemove_rethreaded (h : runqueueRemove s t = .ok s') : Rethreaded s s' := by
  simp only [runqueueRemove, bind_eq_ok, pure_eq_ok] at h
  obtain ⟨links, -, rfl⟩ := h
  rfl

theorem waitqueueRemove_rethreaded (h : waitqueueRemove s t = .ok s') : Rethreaded s s' := by
  simp only [waitqueueRemove, bind_eq_ok, pure_eq_ok] at h
  obtain ⟨links, -, rfl⟩ := h
  rfl

/-- `osi_task_status_set` writes one status, and links. -/
theorem osiTaskStatusSet_rethreaded {new : TaskStatus} (h : osiTaskStatusSet s t new = .ok s') :
    Rethreaded { s with status := update s.status t new } s' := by
  cases new <;> simp only [osiTaskStatusSet] at h
  case wait =>
    simp only [bind_eq_ok] at h
    obtain ⟨s₁, h₁, h₂⟩ := h
    exact (runqueueRemove_rethreaded h₁).trans (waitqueueAdd_rethreaded h₂)
  case suspended =>
    simp only [bind_eq_ok] at h
    obtain ⟨s₁, h₁, h₂⟩ := h
    exact (waitqueueRemove_rethreaded h₁).trans (runqueueRemove_rethreaded h₂)
  case idle =>
    split_ifs at h
    · simp only [bind_eq_ok] at h
      obtain ⟨s₁, h₁, h₂⟩ := h
      exact (waitqueueRemove_rethreaded h₁).trans (runqueueAdd_rethreaded h₂)
    · exact runqueueAdd_rethreaded h
  case active =>
    cases h
    rfl
  all_goals exact runqueueRemove_rethreaded h

namespace Relinked

theorem status (h : Relinked l s s') : s'.status = s.status := h.rest.status

theorem priority (h : Relinked l s s') : s'.priority = s.priority := h.rest.priority

theorem delay (h : Relinked l s s') : s'.delay = s.delay := h.rest.delay

end Relinked

theorem Relinked.trans {s₁ : Sched} (h : Relinked l s s₁) (h' : Relinked m s₁ s') :
    Relinked (l ++ m) s s' where
  rest := by
    rw [h'.rest, h.rest]
  frame x hx := by
    rw [List.mem_append, not_or] at hx
    rw [h'.frame x hx.2, h.frame x hx.1]

structure Lists (s : Sched) (r w : List TaskId) : Prop where
  run : Chain s.nrp s.runqueue r
  wait : Chain s.nrp s.waitqueue w
  disjoint : ∀ t ∈ r, t ∉ w

theorem Lists.nodup (h : Lists s r w) : (r ++ w).Nodup :=
  List.nodup_append'.2 ⟨h.run.nodup, h.wait.nodup, fun t ht => h.disjoint t ht⟩

theorem runqueueAdd_lists (h : runqueueAdd s t = .ok s') (hl : Lists s r w) (hr : t ∉ r)
    (hw : t ∉ w) : Lists s' (insertByPriority s.priority t r) w ∧ Relinked (t :: r) s s' := by
  have hrun := hl.run.update_of_notMem (v := none) hr
  have hwait := hl.wait.update_of_notMem (v := none) hw
  have hmem : ∀ x, x ∈ insertByPriority s.priority t r → x ∉ w := by
    intro x hx
    rcases (List.mem_orderedInsert _).1 hx with rfl | hx
    · exact hw
    · exact hl.disjoint x hx
  rw [runqueueAdd] at h
  cases hq : s.runqueue with
  | none =>
    obtain rfl := chain_none.1 (hq ▸ hl.run)
    simp only [hq, Except.ok.injEq] at h
    subst h
    refine ⟨⟨?_, hwait, hmem⟩, rfl, fun x hx => ?_⟩
    · simp [insertByPriority]
    · exact Function.update_of_ne (fun he => hx (by simp [he])) _ _
  | some head =>
    simp only [hq, bind_eq_ok, osAssert_eq_ok, pure_eq_ok] at h
    obtain ⟨_, -, links, h, rfl⟩ := h
    rw [hq] at hrun
    have hj := runqueueAddLoop_spec (l := []) (m := r) (by simpa [← hrun.head_eq] using h) hrun hr
      (Function.update_self ..)
    have hf : ∀ x, x ∉ t :: r → links.2 x = s.nrp x := by
      intro x hx
      rw [List.mem_cons, not_or] at hx
      exact (hj.frame x hx.1 hx.2).trans (Function.update_of_ne hx.1 _ _)
    refine ⟨⟨hj.chain, hl.wait.congr fun x hx => hf x ?_, hmem⟩, rfl, hf⟩
    simp only [List.mem_cons, not_or]
    exact ⟨fun he => hw (he ▸ hx), fun hx' => hl.disjoint x hx' hx⟩

/-- Adding a task that is in the run queue, behind tasks of no lower priority, cuts the queue off
behind it. -/
theorem runqueueAdd_mem (h : runqueueAdd s t = .ok s') (hl : Lists s (l ++ t :: m) w)
    (hp : ∀ x ∈ l, s.priority t ≤ s.priority x) :
    Lists s' (l ++ [t]) w ∧ s' = { s with nrp := update s.nrp t none } := by
  have hrun := hl.run.truncate
  have hw : t ∉ w := hl.disjoint t (by simp)
  rw [runqueueAdd] at h
  cases hq : s.runqueue with
  | none => exact absurd (chain_none.1 (hq ▸ hl.run)) (by simp)
  | some head =>
    simp only [hq, bind_eq_ok, osAssert_eq_ok, pure_eq_ok] at h
    obtain ⟨_, -, links, h, rfl⟩ := h
    have hh : some head = (l ++ [t]).head? := by rw [← hq]; exact hrun.head_eq
    have hlinks := runqueueAddLoop_mem (l := []) (m := l) (by simpa [← hh] using h)
      (by simpa [hq] using hrun) hp
    subst hlinks
    have hs : s = { s with runqueue := some head } := by rw [← hq]
    refine ⟨⟨by simpa [hq] using hrun, hl.wait.update_of_notMem hw, fun x hx => ?_⟩, ?_⟩
    · exact hl.disjoint x (by simp at hx ⊢; tauto)
    · simp [← hq]

theorem waitqueueAdd_lists (h : waitqueueAdd s t = .ok s') (hl : Lists s r w) (hr : t ∉ r)
    (hw : t ∉ w) : Lists s' r (insertByDelay s.delay t w) ∧ Relinked (t :: w) s s' := by
  have hwait := hl.wait.update_of_notMem (v := none) hw
  have hrun := hl.run.update_of_notMem (v := none) hr
  have hmem : ∀ x ∈ r, x ∉ insertByDelay s.delay t w := by
    intro x hx hx'
    rcases (List.mem_orderedInsert _).1 hx' with rfl | hx'
    · exact hr hx
    · exact hl.disjoint x hx hx'
  rw [waitqueueAdd] at h
  cases hq : s.waitqueue with
  | none =>
    obtain rfl := chain_none.1 (hq ▸ hl.wait)
    simp only [hq, Except.ok.injEq] at h
    subst h
    refine ⟨⟨hrun, ?_, hmem⟩, rfl, fun x hx => ?_⟩
    · simp [insertByDelay]
    · exact Function.update_of_ne (fun he => hx (by simp [he])) _ _
  | some head =>
    simp only [hq, bind_eq_ok, pure_eq_ok] at h
    obtain ⟨links, h, rfl⟩ := h
    rw [hq] at hwait
    have hj := waitqueueAddLoop_spec (l := []) (m := w) (by simpa [← hwait.head_eq] using h) hwait
      hw (Function.update_self ..)
    have hf : ∀ x, x ∉ t :: w → links.2 x = s.nrp x := by
      intro x hx
      rw [List.mem_cons, not_or] at hx
      exact (hj.frame x hx.1 hx.2).trans (Function.update_of_ne hx.1 _ _)
    refine ⟨⟨hl.run.congr fun x hx => hf x ?_, hj.chain, hmem⟩, rfl, hf⟩
    simp only [List.mem_cons, not_or]
    exact ⟨fun he => hr (he ▸ hx), hl.disjoint x hx⟩

theorem runqueueRemove_lists (h : runqueueRemove s t = .ok s') (hl : Lists s r w) :
    Lists s' (r.erase t) w ∧ Relinked r s s' ∧ (t ∈ r → s'.nrp t = none) := by
  simp only [runqueueRemove, bind_eq_ok, pure_eq_ok] at h
  obtain ⟨links, h, rfl⟩ := h
  obtain ⟨hc, hf, ht⟩ := removeLoop_spec (l := []) (m := r) (by simpa [← hl.run.head_eq] using h)
    hl.run List.not_mem_nil
  refine ⟨⟨hc, hl.wait.congr fun x hx => hf x fun hx' => hl.disjoint x hx' hx, fun x hx => ?_⟩,
    ⟨rfl, hf⟩, ht⟩
  exact hl.disjoint x (List.mem_of_mem_erase hx)

theorem waitqueueRemove_lists (h : waitqueueRemove s t = .ok s') (hl : Lists s r w) :
    Lists s' r (w.erase t) ∧ Relinked w s s' ∧ (t ∈ w → s'.nrp t = none) := by
  simp only [waitqueueRemove, bind_eq_ok, pure_eq_ok] at h
  obtain ⟨links, h, rfl⟩ := h
  obtain ⟨hc, hf, ht⟩ := removeLoop_spec (l := []) (m := w) (by simpa [← hl.wait.head_eq] using h)
    hl.wait List.not_mem_nil
  refine ⟨⟨hl.run.congr fun x hx => hf x (hl.disjoint x hx), hc, fun x hx hx' => ?_⟩,
    ⟨rfl, hf⟩, ht⟩
  exact hl.disjoint x hx (List.mem_of_mem_erase hx')

end Osh
