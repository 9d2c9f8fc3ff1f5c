import Mathlib.Data.List.Rotate
import Osh.DelayRuns

namespace Osh
open Function (update)
open Lib

variable {s : Sched} {t : TaskId} {r w pre post : List TaskId} {n ours : Nat}
  {first task new lower : Option TaskId}

/-- The queues as `find_new_task` needs them: the run queue is the sorted list of exactly the
runnable tasks, and the wait queue is a list of exactly the waiting ones, in any order. -/
structure Searchable (s : Sched) (r w : List TaskId) : Prop extends Lists s r w where
  sorted : r.Pairwise fun a b => s.priority b ≤ s.priority a
  runnable : ∀ t, t ∈ r ↔ (s.status t).isRunning
  waiting : ∀ t, t ∈ w ↔ s.status t = .wait
  created : ∀ t ∈ r ++ w, t ∈ s.tasks

def SearchEnds (s : Sched) (t : TaskId) : Prop :=
  ∃ n new lower, findNewTaskLoop s (s.priority t) (runqueueNextWrapped s t) n
    (runqueueNextWrapped s t) none none = .ok (new, lower)

/-- The running task waits, another task is behind it in the wait queue, and the runnable tasks all
have its priority. -/
def Circles (s : Sched) (t : TaskId) (r w : List TaskId) : Prop :=
  t ∈ w ∧ s.nrp t ≠ none ∧ r ≠ [] ∧ ∀ x ∈ r, s.priority x = s.priority t

/-- The run queue from behind `t` round to `t`, or as it is. -/
def cyclicAfter (t : TaskId) (r : List TaskId) : List TaskId :=
  if t ∈ r then r.rotate (r.idxOf t + 1) else r

/-- The task that is to follow `t`. -/
def Sched.successor (s : Sched) (t : TaskId) (r : List TaskId) : Option TaskId :=
  if ∃ x ∈ r.head?, s.priority t < s.priority x then r.head?
  else if ∃ x ∈ r, s.priority x = s.priority t then
    (cyclicAfter t r).find? fun x => s.priority x = s.priority t
  else if (s.status t).isRunning then none
  else r.head?

theorem findNewTaskLoop_delay {delay : TaskId → Nat} :
    findNewTaskLoop { s with delay := delay } ours first n task new lower =
      findNewTaskLoop s ours first n task new lower := by
  have hnext (x : TaskId) :
      runqueueNextWrapped { s with delay := delay } x = runqueueNextWrapped s x := rfl
  induction n generalizing task new lower with
  | zero => rfl
  | succ n ih => simp only [findNewTaskLoop, hnext, ih]

theorem findNewTask_delay {delay : TaskId → Nat} :
    findNewTask { s with delay := delay } t = findNewTask s t := by
  have hnext : runqueueNextWrapped { s with delay := delay } t = runqueueNextWrapped s t := rfl
  have hbound : ({ s with delay := delay } : Sched).bound = s.bound := rfl
  simp only [findNewTask, findNewTaskLoop_delay, hnext, hbound]

theorem searchEnds_of_ok (h : findNewTask s t = .ok new) : SearchEnds s t := by
  simp only [findNewTask, bind_eq_ok] at h
  obtain ⟨⟨new', lower⟩, hloop, -⟩ := h
  exact ⟨_, new', lower, hloop⟩

theorem successor_of_stopped (hsorted : r.Pairwise fun a b => s.priority b ≤ s.priority a)
    (ht : t ∉ r) (hst : ¬ (s.status t).isRunning) : s.successor t r = r.head? := by
  unfold Sched.successor
  rw [cyclicAfter, if_neg ht, if_neg hst]
  split_ifs with hhigh hsame
  · rfl
  · cases r with
    | nil =>
      obtain ⟨x, hx, -⟩ := hsame
      cases hx
    | cons y r =>
      obtain ⟨x, hx, hp⟩ := hsame
      have hle : s.priority x ≤ s.priority y := by
        rcases List.mem_cons.1 hx with rfl | hx
        · exact le_rfl
        · exact (List.pairwise_cons.1 hsorted).1 x hx
      have hge : s.priority y ≤ s.priority t := by
        apply Nat.le_of_not_lt
        intro hlt
        exact hhigh ⟨y, rfl, hlt⟩
      have hy : s.priority y = s.priority t := by omega
      rw [List.find?_cons_of_pos (by simpa using hy), List.head?_cons]
  · rfl

theorem cyclicAfter_split (hr : r = pre ++ t :: post) (hnd : r.Nodup) :
    cyclicAfter t r = post ++ (pre ++ [t]) := by
  have hpre : t ∉ pre := by
    intro hm
    rw [hr] at hnd
    exact (List.nodup_append.1 hnd).2.2 t hm t List.mem_cons_self rfl
  have hidx : r.idxOf t + 1 = (pre ++ [t]).length := by
    rw [hr, List.idxOf_append_of_notMem hpre, List.idxOf_cons_self, List.length_append]
    rfl
  have hmem : t ∈ r := by
    rw [hr]
    simp
  have happ : r = (pre ++ [t]) ++ post := by
    rw [hr, List.append_assoc]
    rfl
  rw [cyclicAfter, if_pos hmem, hidx, happ, List.rotate_append_length_eq]

namespace Searchable
variable (hs : Searchable s r w)
include hs

/-- The order of the wait queue does not matter to the search. -/
theorem queues : Queues { s with delay := fun _ => 0 } r w where
  run := hs.run
  wait := hs.wait
  disjoint := hs.disjoint
  sorted := hs.sorted
  ordered := List.pairwise_of_forall fun _ _ => le_rfl
  runnable t ht := (hs.runnable t).1 ht
  waiting := hs.waiting

theorem length_le : (r ++ w).length ≤ s.bound :=
  Sched.length_le_bound hs.toLists.nodup hs.created

theorem length_run_le : r.length ≤ s.bound := by
  have h := hs.length_le
  rw [List.length_append] at h
  omega

theorem stopped (ht : t ∉ r) : ¬ (s.status t).isRunning := fun hrun => ht ((hs.runnable t).2 hrun)

theorem findNewTask_runnable (ht : t ∈ r) : findNewTask s t = .ok (s.successor t r) := by
  obtain ⟨pre, post, hr⟩ := List.append_of_mem ht
  have hq := hs.queues
  have hfind := (hq.round hr hs.length_run_le).findNewTask
  rw [findNewTask_delay] at hfind
  rw [hfind]
  apply congrArg Except.ok
  have hcyc := cyclicAfter_split hr hs.run.nodup
  unfold Sched.successor
  by_cases htop : ∀ x ∈ r, s.priority x ≤ s.priority t
  · obtain ⟨same, rest, rfl, hsame, hrest⟩ := hq.split_top hr htop
    have hhigh : ¬ ∃ x ∈ r.head?, s.priority t < s.priority x := by
      rintro ⟨x, hx, hlt⟩
      exact absurd (htop x (List.mem_of_mem_head? hx)) (Nat.not_le.2 hlt)
    have hfront : ∀ x ∈ same ++ (pre ++ [t]), s.priority x = s.priority t := by
      intro x hx
      have hx' : x ∈ pre ++ same ∨ x = t := by
        simp only [List.mem_append, List.mem_singleton] at hx ⊢
        tauto
      rcases hx' with hx | rfl
      · exact hsame x hx
      · rfl
    have hlow : rest.find? (fun x => decide (s.priority x = s.priority t)) = none := by
      apply List.find?_eq_none.2
      intro x hx
      have hlt : s.priority x < s.priority t := hrest x hx
      simp [Nat.ne_of_lt hlt]
    rw [if_neg hhigh, if_pos ⟨t, ht, rfl⟩, hcyc, List.append_assoc, List.find?_append,
      List.find?_append, hlow, Option.none_or, ← List.find?_append,
      find?_of_all (by simpa using hfront)]
    rw [← List.append_assoc]
    exact hq.pick_of_top hr hsame hrest
  · simp only [not_forall, Nat.not_le] at htop
    obtain ⟨x, hx, hlt⟩ := htop
    cases pre with
    | nil =>
      have hhd : r.head? = some t := by
        rw [hr]
        rfl
      exact absurd (hq.head_top hhd x hx) (Nat.not_le.2 hlt)
    | cons b pre =>
      have hhd : r.head? = some b := by
        rw [hr]
        rfl
      have hb : s.priority t < s.priority b := Nat.lt_of_lt_of_le hlt (hq.head_top hhd x hx)
      rw [if_pos ⟨b, hhd, hb⟩, hhd]
      exact hq.pick_of_not_top hr hb

theorem findNewTask_unlinked (hr : t ∉ r) (hz : s.nrp t = none) :
    findNewTask s t = .ok (s.successor t r) := by
  have hq := hs.queues
  have hl := hq.lasso_of_unlinked hz hs.length_run_le
  have hfind := hl.findNewTask (.inl rfl)
  rw [findNewTask_delay] at hfind
  rw [hfind, successor_of_stopped hs.sorted hr (hs.stopped hr)]
  exact congrArg Except.ok (hq.pick_of_stopped (hs.stopped hr) hl.stopped)

theorem findNewTask_waiting (ht : t ∈ w) (hc : ¬ Circles s t r w) :
    findNewTask s t = .ok (s.successor t r) := by
  have hq := hs.queues
  obtain ⟨pre, post, hw⟩ := List.append_of_mem ht
  have hr : t ∉ r := fun hm => hs.disjoint t hm ht
  have hl := hq.lasso hw hs.length_le
  have hend : post = [] ∨ r = [] ∨
      ∃ x ∈ r, (s.status x).isRunning ∧ s.priority x ≠ s.priority t := by
    by_contra hnone
    simp only [not_or, not_exists, not_and, not_not] at hnone
    obtain ⟨hpost, hne, hsame⟩ := hnone
    refine hc ⟨ht, ?_, hne, fun x hx => hsame x hx ((hs.runnable x).1 hx)⟩
    intro hz
    have hchain : Chain s.nrp s.waitqueue (pre ++ t :: post) := hw ▸ hs.wait
    obtain ⟨mid, -, rfl, hrest⟩ := hchain.split
    rw [hz] at hrest
    exact hpost (chain_none.1 hrest)
  have hfind := hl.findNewTask hend
  rw [findNewTask_delay] at hfind
  rw [hfind, successor_of_stopped hs.sorted hr (hs.stopped hr)]
  exact congrArg Except.ok (hq.pick_of_stopped (hs.stopped hr) hl.stopped)

theorem findNewTask_successor (hz : t ∉ r → t ∉ w → s.nrp t = none) (hc : ¬ Circles s t r w) :
    findNewTask s t = .ok (s.successor t r) := by
  by_cases hr : t ∈ r
  · exact hs.findNewTask_runnable hr
  · by_cases hw : t ∈ w
    · exact hs.findNewTask_waiting hw hc
    · exact hs.findNewTask_unlinked hr (hz hr hw)

theorem not_searchEnds (hc : Circles s t r w) : ¬ SearchEnds s t := by
  obtain ⟨ht, hz, hne, hsame⟩ := hc
  obtain ⟨pre, post, hw⟩ := List.append_of_mem ht
  have hpost : post ≠ [] := by
    rintro rfl
    have hchain : Chain s.nrp s.waitqueue (pre ++ [t]) := hw ▸ hs.wait
    obtain ⟨mid, -, rfl, hlast⟩ := hchain.split
    exact hz hlast
  rintro ⟨n, new, lower, hloop⟩
  have hl := hs.queues.lasso hw hs.length_le
  have hdiv : findNewTaskLoop s (s.priority t) (runqueueNextWrapped s t) n
      (runqueueNextWrapped s t) none none = .error .diverge :=
    findNewTaskLoop_delay.symm.trans
      (hl.findNewTaskLoop_diverges hpost hne (fun x hx _ => hsame x hx) n)
  cases hloop.symm.trans hdiv

theorem findNewTask_eq_ok (hz : t ∉ r → t ∉ w → s.nrp t = none) :
    findNewTask s t = .ok new ↔ ¬ Circles s t r w ∧ new = s.successor t r := by
  constructor
  · intro h
    have hn : ¬ Circles s t r w := fun hc => hs.not_searchEnds hc (searchEnds_of_ok h)
    rw [hs.findNewTask_successor hz hn] at h
    exact ⟨hn, (Except.ok.inj h).symm⟩
  · rintro ⟨hn, rfl⟩
    exact hs.findNewTask_successor hz hn

theorem circles_iff : Circles s t r w ↔
    t ∈ w.dropLast ∧ r ≠ [] ∧ ∀ x ∈ r, s.priority x = s.priority t := by
  rw [Circles, ← and_assoc]
  apply and_congr_left'
  constructor
  · rintro ⟨ht, hn⟩
    exact (hs.wait.next_ne_none_iff ht).1 hn
  · intro ht
    have htw := List.mem_of_mem_dropLast ht
    exact ⟨htw, (hs.wait.next_ne_none_iff htw).2 ht⟩

end Searchable

section Reach
variable {k : Kernel} {ok : Kernel → Act → Prop}

theorem Queued.searchable (hq : Queued True s) (hu : ∀ x, s.Used x → x ∈ s.tasks)
    (hr : Chain s.nrp s.runqueue r) (hw : Chain s.nrp s.waitqueue w) : Searchable s r w := by
  obtain ⟨r', w', hq, hc⟩ := hq
  obtain rfl := hr.unique hq.run
  obtain rfl := hw.unique hq.wait
  exact ⟨hq.toLists, hq.sorted, fun t => ⟨hq.runnable t, (hc trivial).mem_run t⟩, hq.waiting,
    fun t ht => hu t (hq.used ht)⟩

theorem reach_searchable (h : machine.Reach ok k) (hok : ∀ k a, ok k a → a.QueueSafe k)
    (hr : Chain k.nrp k.runqueue r) (hw : Chain k.nrp k.waitqueue w) : Searchable k.toSched r w :=
  (reach_queued h fun _ => hok).1.searchable (reach_ready (h.mono fun _ _ _ => trivial)).used hr hw

def GrantsNothing (k : Kernel) (a : Act) : Prop :=
  ¬ a.usesRwlock ∧ a.grantee k.toObjects = none

instance {a : Act} : Decidable (GrantsNothing k a) :=
  inferInstanceAs (Decidable (¬ a.usesRwlock ∧ a.grantee k.toObjects = none))

theorem GrantsNothing.queueSafe {a : Act} (h : GrantsNothing k a) : a.QueueSafe k := by
  apply Act.QueueSafe.of_grantSafe
  · intro t ht
    rw [h.2] at ht
    cases ht
  · exact Act.not_grantsReader h.1

end Reach

/-- `find_new_task` finds the successor of the running task. -/
theorem findNewTask_eq_successor (hs : Searchable s r w)
    (ht : t ∈ r ∨ t ∉ r ∧ t ∉ w ∧ s.nrp t = none ∨
      t ∈ w ∧ ∃ x ∈ r, s.priority x < s.priority t) :
    findNewTask s t = .ok (s.successor t r) := by
  rcases ht with hr | ⟨hr, -, hz⟩ | ⟨hw, x, hx, hlt⟩
  · exact hs.findNewTask_runnable hr
  · exact hs.findNewTask_unlinked hr hz
  · apply hs.findNewTask_waiting hw
    intro hc
    exact absurd (hc.2.2.2 x hx) (Nat.ne_of_lt hlt)

set_option maxRecDepth 10000 in
theorem findNewTask_turn : ∃ k : Kernel,
    k.running = some 1 ∧ findNewTask k.toSched 1 = .ok (some 2) := by
  obtain ⟨k, hk, hr, ⟨h0, h1, h2, h3, hw⟩, hsucc⟩ :=
    (Boot.simple [0, 16, 16] (by simp)).exists_after GrantsNothing
    (fun k => k.running = some 1 ∧ (k.runqueue = some 1 ∧ k.nrp 1 = some 2 ∧
      k.nrp 2 = some 0 ∧ k.nrp 0 = none ∧ k.waitqueue = none) ∧
      k.successor 1 [1, 2, 0] = some 2)
    [.schedule, .contextSwitch] (by decide)
  have hs : Searchable k.toSched [1, 2, 0] [] := by
    apply reach_searchable hk fun _ _ h => h.queueSafe
    · simp [h0, h1, h2, h3]
    · exact hw
  refine ⟨k, hr, ?_⟩
  rw [findNewTask_eq_successor hs (.inl (by simp)), hsucc]

end Osh
