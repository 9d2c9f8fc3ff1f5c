import Osh.ScheduleSpec

namespace Osh
open Function (update)
open Lib

variable {s : Sched} {t running : TaskId} {l p q r w : List TaskId} {n ours : Nat}
  {first task stop mid new lower : Option TaskId}

def Sched.runsAt (s : Sched) (c : Nat → Bool) (t : TaskId) : Bool :=
  (s.status t).isRunning && c (s.priority t)

/-- The task that a search past the tasks `l` settles on: the first one of higher priority, else
the first one of equal priority, else, if the running task cannot go on, the first one at all. -/
def Sched.pick (s : Sched) (running : TaskId) (l : List TaskId) : Option TaskId :=
  (l.find? (s.runsAt (s.priority running < ·))).or
    ((l.find? (s.runsAt (s.priority running = ·))).or
      (if (s.status running).isRunning then none
        else l.find? (s.runsAt (· < s.priority running))))

section Loop

theorem find?_cons_or {c : TaskId → Bool} :
    (t :: l).find? c = (if c t then some t else none).or (l.find? c) := by
  rw [List.find?_cons]
  cases c t <;> rfl

theorem find?_of_all {c : TaskId → Bool} (h : ∀ x ∈ r, c x) : r.find? c = r.head? := by
  cases r with
  | nil => rfl
  | cons x r => rw [List.find?_cons_of_pos (h x List.mem_cons_self), List.head?_cons]

theorem findNewTaskLoop_next (ht : lower ≠ some t) (hh : s.runsAt (ours < ·) t = false) :
    findNewTaskLoop s ours first (n + 1) (some t) new lower =
      if runqueueNextWrapped s t = first then
        .ok (new.or (if s.runsAt (ours = ·) t then some t else none),
          lower.or (if s.runsAt (· < ours) t then some t else none))
      else findNewTaskLoop s ours first n (runqueueNextWrapped s t)
        (new.or (if s.runsAt (ours = ·) t then some t else none))
        (lower.or (if s.runsAt (· < ours) t then some t else none)) := by
  have hset {c : Prop} [Decidable c] {o : Option TaskId} (b : Bool) (hb : b = true ↔ c) :
      (if (s.status t).isRunning ∧ c ∧ o = none then some t else o) =
        o.or (if (s.status t).isRunning && b then some t else none) := by
    cases o with
    | some x => simp
    | none => simp [hb]
  have hgt : ¬ ((s.status t).isRunning ∧ s.priority t > ours) := by
    simpa [Sched.runsAt] using hh
  rw [findNewTaskLoop, if_neg (Ne.symm ht)]
  dsimp only
  rw [if_neg hgt, hset (decide (ours = s.priority t)) (by rw [decide_eq_true_iff, eq_comm]),
    hset (decide (s.priority t < ours)) decide_eq_true_iff]
  rfl

theorem findNewTaskLoop_walk (hs : Segment (runqueueNextWrapped s) task l stop) (hne : l ≠ [])
    (hl : l.Nodup) (hlow : ∀ t ∈ l, lower ≠ some t) (hfirst : ∀ t ∈ l.tail, first ≠ some t)
    (hh : ∀ t ∈ l, s.runsAt (ours < ·) t = false) :
    findNewTaskLoop s ours first (n + l.length) task new lower =
      if stop = first then
        .ok (new.or (l.find? (s.runsAt (ours = ·))), lower.or (l.find? (s.runsAt (· < ours))))
      else findNewTaskLoop s ours first n stop (new.or (l.find? (s.runsAt (ours = ·))))
        (lower.or (l.find? (s.runsAt (· < ours)))) := by
  induction l generalizing task new lower with
  | nil => exact absurd rfl hne
  | cons t l ih =>
    obtain ⟨rfl, hs⟩ := hs
    have ht : lower ≠ some t := hlow t List.mem_cons_self
    rw [List.length_cons, ← Nat.add_assoc, findNewTaskLoop_next ht (hh t List.mem_cons_self)]
    cases l with
    | nil =>
      obtain rfl : runqueueNextWrapped s t = stop := hs
      simp only [find?_cons_or, List.find?_nil, Option.or_none]
      rfl
    | cons x l =>
      obtain ⟨hx, hs'⟩ := hs
      have hfx : runqueueNextWrapped s t ≠ first := by
        rw [hx]
        exact (hfirst x List.mem_cons_self).symm
      obtain ⟨htl, hl⟩ := List.nodup_cons.1 hl
      rw [if_neg hfx, find?_cons_or (t := t), ← Option.or_assoc, find?_cons_or (t := t),
        ← Option.or_assoc]
      apply ih ⟨hx, hs'⟩ (by simp) hl
      · intro y hy
        have hyt : y ≠ t := ne_of_mem_of_not_mem hy htl
        cases lower with
        | some z => exact hlow y (List.mem_cons_of_mem _ hy)
        | none =>
          rw [Option.none_or]
          split_ifs
          · exact fun he => hyt (Option.some.inj he).symm
          · nofun
      · intro y hy
        exact hfirst y (List.mem_of_mem_tail hy)
      · intro y hy
        exact hh y (List.mem_cons_of_mem _ hy)

theorem findNewTaskLoop_first
    (hs : Segment (runqueueNextWrapped s) (runqueueNextWrapped s running) l stop) (hne : l ≠ [])
    (hl : l.Nodup) (hn : l.length ≤ s.bound)
    (hh : ∀ t ∈ l, s.runsAt (s.priority running < ·) t = false) :
    findNewTaskLoop s (s.priority running) (runqueueNextWrapped s running) (3 * s.bound)
        (runqueueNextWrapped s running) none none =
      if stop = runqueueNextWrapped s running then
        .ok (l.find? (s.runsAt (s.priority running = ·)),
          l.find? (s.runsAt (· < s.priority running)))
      else findNewTaskLoop s (s.priority running) (runqueueNextWrapped s running)
        (3 * s.bound - l.length) stop (l.find? (s.runsAt (s.priority running = ·)))
        (l.find? (s.runsAt (· < s.priority running))) := by
  have hfuel : 3 * s.bound - l.length + l.length = 3 * s.bound := by omega
  rw [← hfuel, findNewTaskLoop_walk hs hne hl (by simp) (hs.head_ne hl) hh, Option.none_or,
    Option.none_or, hfuel]

theorem findNewTaskLoop_higher (hs : Segment (runqueueNextWrapped s) task p (some t))
    (hp : (p ++ [t]).Nodup) (hfirst : ∀ x ∈ (p ++ [t]).tail, first ≠ some x)
    (hh : ∀ x ∈ p, s.runsAt (ours < ·) x = false) (ht : s.runsAt (ours < ·) t)
    (hn : p.length < n) :
    ∃ lower', findNewTaskLoop s ours first n task new none = .ok (some t, lower') := by
  have hgt : (s.status t).isRunning ∧ s.priority t > ours := by simpa [Sched.runsAt] using ht
  have hlast {n : Nat} {new lower : Option TaskId} (hn : 0 < n) (hl : lower ≠ some t) :
      findNewTaskLoop s ours first n (some t) new lower = .ok (some t, lower) := by
    obtain ⟨n, rfl⟩ := Nat.exists_eq_succ_of_ne_zero (Nat.ne_of_gt hn)
    rw [findNewTaskLoop, if_neg (Ne.symm hl)]
    dsimp only
    rw [if_pos hgt]
  cases p with
  | nil =>
    obtain rfl : task = some t := hs
    exact ⟨none, hlast hn (Option.some_ne_none t).symm⟩
  | cons x p =>
    obtain ⟨n, rfl⟩ := Nat.exists_eq_add_of_le' hn.le
    have htp : t ∉ x :: p := by
      intro hm
      exact (List.nodup_append.1 hp).2.2 t hm t (by simp) rfl
    rw [findNewTaskLoop_walk hs (by simp) (List.nodup_append.1 hp).1 (by simp)
      (fun y hy => hfirst y (by simp at hy ⊢; exact .inl hy)) hh,
      if_neg (hfirst t (by simp)).symm]
    refine ⟨_, hlast (by omega) ?_⟩
    rw [Option.none_or]
    intro hl
    have hlt := List.find?_some hl
    simp only [Sched.runsAt, Bool.and_eq_true, decide_eq_true_eq] at hlt
    omega

end Loop

theorem pick_of_higher (h : l.find? (s.runsAt (s.priority running < ·)) = some t) :
    s.pick running l = some t := by
  rw [Sched.pick, h, Option.some_or]

theorem pick_of_no_higher (h : ∀ x ∈ l, s.runsAt (s.priority running < ·) x = false) :
    s.pick running l = (l.find? (s.runsAt (s.priority running = ·))).or
      (if (s.status running).isRunning then none
        else l.find? (s.runsAt (· < s.priority running))) := by
  have hnone : l.find? (s.runsAt (s.priority running < ·)) = none :=
    List.find?_eq_none.2 fun x hx => by simp [h x hx]
  rw [Sched.pick, hnone, Option.none_or]

theorem findNewTask_of_loop
    (h : findNewTaskLoop s (s.priority running) (runqueueNextWrapped s running) (3 * s.bound)
      (runqueueNextWrapped s running) none none = .ok (new, lower)) :
    findNewTask s running =
      .ok (new.or (if (s.status running).isRunning then none else lower)) := by
  simp only [findNewTask, h, ok_bind]
  cases new with
  | some x =>
    simp
    rfl
  | none =>
    by_cases hr : (s.status running).isRunning
    · simp [hr]
      rfl
    · cases lower <;> simp [hr] <;> rfl

theorem findNewTask_higher
    (hs : Segment (runqueueNextWrapped s) (runqueueNextWrapped s running) l stop) (hl : l.Nodup)
    (hn : l.length ≤ s.bound) (hf : l.find? (s.runsAt (s.priority running < ·)) = some t) :
    findNewTask s running = .ok (s.pick running l) := by
  obtain ⟨ht, p, q, rfl, hp⟩ := List.find?_eq_some_iff_append.1 hf
  have hfirst := hs.head_ne hl
  obtain ⟨mid, hs, rfl, -⟩ := segment_append.1 hs
  have hl' : (p ++ [t]).Nodup := List.Nodup.sublist (by simp) hl
  have hsub : ∀ x ∈ (p ++ [t]).tail, x ∈ (p ++ t :: q).tail := by
    intro x hx
    cases p with
    | nil => cases hx
    | cons y p =>
      simp only [List.cons_append, List.tail_cons, List.mem_append, List.mem_cons,
        List.not_mem_nil, or_false] at hx ⊢
      exact hx.imp_right .inl
  have hlen : p.length < 3 * s.bound := by
    simp only [List.length_append, List.length_cons] at hn
    omega
  have hloop : ∃ lower, findNewTaskLoop s (s.priority running) (runqueueNextWrapped s running)
      (3 * s.bound) (runqueueNextWrapped s running) none none = .ok (some t, lower) :=
    findNewTaskLoop_higher hs hl' (fun x hx => hfirst x (hsub x hx))
      (fun x hx => by simpa using hp x hx) ht hlen
  obtain ⟨lower, hloop⟩ := hloop
  rw [findNewTask_of_loop hloop, pick_of_higher hf]
  rfl

/-- The tasks `l` are all that a search from `running` comes past, and it comes back to where it
began. -/
structure Round (s : Sched) (running : TaskId) (l : List TaskId) : Prop where
  path : Segment (runqueueNextWrapped s) (runqueueNextWrapped s running) l
    (runqueueNextWrapped s running)
  nodup : l.Nodup
  nonempty : l ≠ []
  length : l.length ≤ s.bound

/-- `find_new_task` settles on the task that it should, once it has come round. -/
theorem Round.findNewTask (h : Round s running l) :
    findNewTask s running = .ok (s.pick running l) := by
  obtain ⟨hs, hl, hne, hn⟩ := h
  cases hf : l.find? (s.runsAt (s.priority running < ·)) with
  | some t => exact findNewTask_higher hs hl hn hf
  | none =>
    have hh : ∀ x ∈ l, s.runsAt (s.priority running < ·) x = false := by
      simpa using List.find?_eq_none.1 hf
    have hloop := findNewTaskLoop_first hs hne hl hn hh
    rw [if_pos rfl] at hloop
    rw [findNewTask_of_loop hloop, pick_of_no_higher hh]

/-- The search from a task that is in neither queue's way: it walks past `p`, where no task can
run, and then goes round the run queue `r`. -/
structure Lasso (s : Sched) (running : TaskId) (p r : List TaskId) : Prop where
  approach : Segment (runqueueNextWrapped s) (runqueueNextWrapped s running) p r.head?
  path : Segment (runqueueNextWrapped s) r.head? r r.head?
  nodup : (p ++ r).Nodup
  length : (p ++ r).length ≤ s.bound
  stopped : ∀ x ∈ p, ¬ (s.status x).isRunning

theorem findNewTaskLoop_met (hn : 0 < n) (hl : task = lower) :
    findNewTaskLoop s ours first n task new lower = .ok (new, lower) := by
  obtain ⟨n, rfl⟩ := Nat.exists_eq_succ_of_ne_zero (Nat.ne_of_gt hn)
  unfold findNewTaskLoop
  rw [if_pos hl]

namespace Lasso
variable (h : Lasso s running p r)
include h

theorem find?_stopped {c : Nat → Bool} : p.find? (s.runsAt c) = none := by
  apply List.find?_eq_none.2
  intro x hx
  simp [Sched.runsAt, h.stopped x hx]

theorem findNewTask_nil (hr : r = []) : findNewTask s running = .ok (s.pick running p) := by
  subst hr
  have happ : Segment (runqueueNextWrapped s) (runqueueNextWrapped s running) p none := h.approach
  have hlen : p.length ≤ s.bound := by simpa using h.length
  have hbound : 0 < s.bound := Nat.succ_pos _
  have hpick : s.pick running p = none := by
    rw [Sched.pick, h.find?_stopped, h.find?_stopped, h.find?_stopped]
    simp
  have hnone : findNewTaskLoop s (s.priority running) (runqueueNextWrapped s running)
      (3 * s.bound) (runqueueNextWrapped s running) none none = .ok (none, none) := by
    cases p with
    | nil =>
      have hz : runqueueNextWrapped s running = none := happ
      rw [hz]
      exact findNewTaskLoop_met (by omega) rfl
    | cons x p =>
      have hx : runqueueNextWrapped s running = some x := happ.1
      have hloop := findNewTaskLoop_first happ (by simp) (by simpa using h.nodup) hlen
        fun y hy => by simp [Sched.runsAt, h.stopped y hy]
      rw [h.find?_stopped, h.find?_stopped, hx, if_neg (by simp)] at hloop
      rw [hx, hloop]
      exact findNewTaskLoop_met (by omega) rfl
  rw [findNewTask_of_loop hnone, hpick]
  simp

theorem first_ne (hp : p ≠ []) : ∀ x ∈ r, runqueueNextWrapped s running ≠ some x := by
  intro x hx he
  cases p with
  | nil => exact hp rfl
  | cons y p =>
    have hy : runqueueNextWrapped s running = some y := h.approach.1
    rw [hy] at he
    cases he
    exact (List.nodup_append.1 h.nodup).2.2 x (by simp) x hx rfl

/-- The second round of the search ends at the first task of lower priority. -/
theorem findNewTaskLoop_again {z : TaskId} (hp : p ≠ [])
    (hh : ∀ x ∈ r, s.runsAt (s.priority running < ·) x = false)
    (hz : r.find? (s.runsAt (· < s.priority running)) = some z) (hn : r.length < n) :
    findNewTaskLoop s (s.priority running) (runqueueNextWrapped s running) n r.head?
        (r.find? (s.runsAt (s.priority running = ·))) (some z) =
      .ok (r.find? (s.runsAt (s.priority running = ·)), some z) := by
  have hfirst := h.first_ne hp
  obtain ⟨-, r₁, r₂, hr, -⟩ := List.find?_eq_some_iff_append.1 hz
  have hnd : r.Nodup := (List.nodup_append.1 h.nodup).2.1
  cases r₁ with
  | nil =>
    rw [hr]
    exact findNewTaskLoop_met (by omega) rfl
  | cons x r₁ =>
    have hpath := h.path
    rw [hr, segment_append] at hpath
    obtain ⟨mid, hs, rfl, -⟩ := hpath
    have hmem : ∀ y ∈ x :: r₁, y ∈ r := by
      intro y hy
      rw [hr]
      exact List.mem_append_left _ hy
    have hzr : ∀ y ∈ x :: r₁, some z ≠ some y := by
      intro y hy he
      cases he
      rw [hr] at hnd
      exact (List.nodup_append.1 hnd).2.2 z hy z (by simp) rfl
    have hlen : r.length = (x :: r₁).length + r₂.length + 1 := by
      rw [hr]
      simp
      omega
    have hfuel : n = n - (x :: r₁).length + (x :: r₁).length := by omega
    have hnew : (r.find? (s.runsAt (s.priority running = ·))).or
        ((x :: r₁).find? (s.runsAt (s.priority running = ·))) =
          r.find? (s.runsAt (s.priority running = ·)) := by
      rw [hr, List.find?_append]
      cases (x :: r₁).find? (s.runsAt (s.priority running = ·)) <;> simp
    have hhead : r.head? = some x := by rw [hr]; rfl
    have hs : Segment (runqueueNextWrapped s) (some x) (x :: r₁) (some z) := hs
    have hxs : (x :: r₁).Nodup := (List.nodup_append.1 (hr ▸ hnd)).1
    rw [hhead, hfuel, findNewTaskLoop_walk hs (by simp) hxs hzr
      (fun y hy => hfirst y (hmem y (List.mem_of_mem_tail hy))) fun y hy => hh y (hmem y hy),
      if_neg (hfirst z (by rw [hr]; simp)).symm, hnew, Option.some_or]
    exact findNewTaskLoop_met (by omega) rfl

/-- The search ends if it passed no task before the run queue, or if it meets a task of another
priority there. -/
theorem findNewTask
    (hend : p = [] ∨ r = [] ∨
      ∃ x ∈ r, (s.status x).isRunning ∧ s.priority x ≠ s.priority running) :
    findNewTask s running = .ok (s.pick running (p ++ r)) := by
  by_cases hr : r = []
  · rw [h.findNewTask_nil hr, hr, List.append_nil]
  · have hpath : Segment (runqueueNextWrapped s) (runqueueNextWrapped s running) (p ++ r) r.head? :=
      segment_append.2 ⟨_, h.approach, h.path⟩
    cases hf : (p ++ r).find? (s.runsAt (s.priority running < ·)) with
    | some t => exact findNewTask_higher hpath h.nodup h.length hf
    | none =>
      have hh : ∀ x ∈ p ++ r, s.runsAt (s.priority running < ·) x = false := by
        simpa using List.find?_eq_none.1 hf
      by_cases hp : p = []
      · subst hp
        have hfirst : runqueueNextWrapped s running = r.head? := h.approach
        refine Round.findNewTask ⟨?_, by simpa using h.nodup, hr, by simpa using h.length⟩
        rw [hfirst]
        exact h.path
      · obtain ⟨x, hx, hrun, hpx⟩ := (hend.resolve_left hp).resolve_left hr
        have hlt : s.priority x < s.priority running := by
          have hle := hh x (List.mem_append_right _ hx)
          simp only [Sched.runsAt, hrun, Bool.true_and, decide_eq_false_iff_not] at hle
          omega
        obtain ⟨z, hz⟩ : ∃ z, r.find? (s.runsAt (· < s.priority running)) = some z := by
          rw [← Option.isSome_iff_exists, List.find?_isSome]
          exact ⟨x, hx, by simp [Sched.runsAt, hrun, hlt]⟩
        have hne : r.head? ≠ runqueueNextWrapped s running := by
          obtain ⟨y, r', rfl⟩ := List.exists_cons_of_ne_nil hr
          exact (h.first_ne hp y List.mem_cons_self).symm
        have hlen : p.length + r.length ≤ s.bound := by simpa using h.length
        have hbound : 0 < s.bound := Nat.succ_pos _
        have hagain : r.length < 3 * s.bound - (p ++ r).length := by
          rw [List.length_append]
          omega
        have hloop := findNewTaskLoop_first hpath (by simp [hp]) h.nodup h.length hh
        have hfind {c : Nat → Bool} : (p ++ r).find? (s.runsAt c) = r.find? (s.runsAt c) := by
          rw [List.find?_append, h.find?_stopped, Option.none_or]
        rw [if_neg hne, hfind, hfind, hz,
          h.findNewTaskLoop_again hp (fun y hy => hh y (List.mem_append_right _ hy)) hz
            hagain] at hloop
        rw [findNewTask_of_loop hloop, pick_of_no_higher hh, hfind, hfind, hz]

/-- Otherwise the search goes round the run queue for ever. -/
theorem findNewTaskLoop_diverges (hp : p ≠ []) (hr : r ≠ [])
    (hsame : ∀ x ∈ r, (s.status x).isRunning → s.priority x = s.priority running) (n : Nat) :
    findNewTaskLoop s (s.priority running) (runqueueNextWrapped s running) n
      (runqueueNextWrapped s running) new none = .error .diverge := by
  obtain ⟨z, p', rfl⟩ := List.exists_cons_of_ne_nil hp
  obtain ⟨y, r', rfl⟩ := List.exists_cons_of_ne_nil hr
  have hpath : Segment (runqueueNextWrapped s) (runqueueNextWrapped s running)
      (z :: (p' ++ y :: r')) (some y) := segment_append.2 ⟨_, h.approach, h.path⟩
  have hfirst : runqueueNextWrapped s running = some z := hpath.1
  have hnd : (z :: (p' ++ y :: r')).Nodup := h.nodup
  -- no link leads back to the first task
  have hnext : ∀ x ∈ z :: (p' ++ y :: r'), ∃ b ∈ p' ++ y :: r',
      runqueueNextWrapped s x = some b := by
    intro x hx
    obtain ⟨l₁, l₂, hl⟩ := List.append_of_mem hx
    have hs := hpath
    rw [hl, segment_append] at hs
    obtain ⟨mid, -, -, hs⟩ := hs
    cases l₂ with
    | nil => exact ⟨y, by simp, hs⟩
    | cons b l₂ =>
      refine ⟨b, ?_, hs.1⟩
      have htail : b ∈ (z :: (p' ++ y :: r')).tail := by
        rw [hl]
        cases l₁ <;> simp
      exact htail
  have hat {c : Nat → Bool} (hc : c (s.priority running) = false) :
      ∀ x ∈ z :: (p' ++ y :: r'), s.runsAt c x = false := by
    intro x hx
    rw [← List.cons_append, List.mem_append] at hx
    rcases hx with hx | hx
    · simp [Sched.runsAt, h.stopped x hx]
    · by_cases hrun : (s.status x).isRunning
      · simp [Sched.runsAt, hsame x hx hrun, hc]
      · simp [Sched.runsAt, hrun]
  have hround : ∀ n x new, x ∈ z :: (p' ++ y :: r') → findNewTaskLoop s (s.priority running)
      (runqueueNextWrapped s running) n (some x) new none = .error .diverge := by
    intro n
    induction n with
    | zero =>
      intro x new hx
      rfl
    | succ n ih =>
      intro x new hx
      obtain ⟨b, hb, hxb⟩ := hnext x hx
      have hbz : some b ≠ some z := by
        intro he
        cases he
        exact (List.nodup_cons.1 hnd).1 hb
      have hlow : s.runsAt (· < s.priority running) x = false := hat (by simp) x hx
      rw [findNewTaskLoop_next (by simp) (hat (by simp) x hx), hxb, hfirst, if_neg hbz, hlow,
        ← hfirst]
      exact ih b _ (List.mem_cons_of_mem _ hb)
  have hstart := hround n z new List.mem_cons_self
  rwa [← hfirst] at hstart

theorem findNewTask_diverges (hp : p ≠ []) (hr : r ≠ [])
    (hsame : ∀ x ∈ r, (s.status x).isRunning → s.priority x = s.priority running) :
    Osh.findNewTask s running = .error .diverge := by
  simp only [Osh.findNewTask, h.findNewTaskLoop_diverges hp hr hsame]
  rfl

end Lasso

section Wrapped

theorem segment_wrapped {head : Option TaskId} (hs : Segment s.nrp head l (some t)) :
    Segment (runqueueNextWrapped s) head l (some t) := by
  apply hs.congr_of
  intro x y hy
  simp only [runqueueNextWrapped, hy]

theorem chain_wrapped {head : Option TaskId} (hc : Chain s.nrp head l) (hl : l ≠ []) :
    Segment (runqueueNextWrapped s) head l s.runqueue := by
  obtain ⟨p, x, rfl⟩ := List.eq_nil_or_concat l |>.resolve_left hl
  rw [List.concat_eq_append] at hc ⊢
  obtain ⟨mid, hs, rfl, hx⟩ := hc.split
  have hx : s.nrp x = none := hx
  exact segment_append.2 ⟨_, segment_wrapped hs, rfl, by simp [runqueueNextWrapped, hx, Segment]⟩

namespace Queues
variable {pre post : List TaskId} (hq : Queues s r w)
include hq

/-- The search from a task of the run queue. -/
theorem round (hr : r = pre ++ t :: post) (hn : r.length ≤ s.bound) :
    Round s t (post ++ (pre ++ [t])) := by
  have hc : Chain s.nrp s.runqueue (pre ++ t :: post) := hr ▸ hq.run
  have hlen : (post ++ (pre ++ [t])).length = r.length := by
    rw [hr]
    simp
    omega
  have hperm : (post ++ (pre ++ [t])).Perm r := by
    rw [hr]
    have hp : (post ++ (pre ++ [t])).Perm ((pre ++ [t]) ++ post) := List.perm_append_comm
    simpa using hp
  refine ⟨?_, hperm.nodup_iff.2 hq.nodup_run, by simp, hlen.trans_le hn⟩
  obtain ⟨mid, hs, rfl, hpost⟩ := hc.split
  have hback : Segment (runqueueNextWrapped s) s.runqueue (pre ++ [t]) (runqueueNextWrapped s t) :=
    segment_append.2 ⟨_, segment_wrapped hs, rfl, rfl⟩
  have hgo : Segment (runqueueNextWrapped s) (runqueueNextWrapped s t) post s.runqueue := by
    cases post with
    | nil =>
      have hz : s.nrp t = none := hpost
      simp [runqueueNextWrapped, hz, Segment]
    | cons x post =>
      have hx : runqueueNextWrapped s t = s.nrp t := by
        simp only [runqueueNextWrapped, hpost.1]
      rw [hx]
      exact chain_wrapped hpost (by simp)
  exact segment_append.2 ⟨_, hgo, hback⟩

/-- The search from a task of the wait queue. -/
theorem lasso (hw : w = pre ++ t :: post) (hn : (r ++ w).length ≤ s.bound) :
    Lasso s t post r := by
  have hc : Chain s.nrp s.waitqueue (pre ++ t :: post) := hw ▸ hq.wait
  have hpost : ∀ x ∈ post, x ∈ w := by
    intro x hx
    rw [hw]
    simp [hx]
  have hhead : s.runqueue = r.head? := hq.run.head_eq
  obtain ⟨mid, -, rfl, hc⟩ := hc.split
  constructor
  · rw [← hhead]
    cases post with
    | nil =>
      have hz : s.nrp t = none := hc
      simp [runqueueNextWrapped, hz, Segment]
    | cons x post =>
      have hx : runqueueNextWrapped s t = s.nrp t := by
        simp only [runqueueNextWrapped, hc.1]
      rw [hx]
      exact chain_wrapped hc (by simp)
  · cases hr : r with
    | nil => rfl
    | cons x r' =>
      rw [← hr, ← hhead]
      exact chain_wrapped hq.run (by simp [hr])
  · have hnd := hq.nodup_wait
    rw [hw] at hnd
    refine List.nodup_append.2 ⟨?_, hq.nodup_run, fun x hx y hy he => ?_⟩
    · exact (List.nodup_cons.1 (List.nodup_append.1 hnd).2.1).2
    · exact hq.disjoint y hy (he ▸ hpost x hx)
  · rw [hw] at hn
    simp only [List.length_append, List.length_cons] at hn ⊢
    omega
  · intro x hx
    rw [(hq.waiting x).1 (hpost x hx)]
    decide

theorem lasso_of_unlinked (ht : s.nrp t = none) (hn : r.length ≤ s.bound) : Lasso s t [] r := by
  have hhead : s.runqueue = r.head? := hq.run.head_eq
  constructor
  · simp [runqueueNextWrapped, ht, Segment, hhead]
  · cases hr : r with
    | nil => rfl
    | cons x r' =>
      rw [← hr, ← hhead]
      exact chain_wrapped hq.run (by simp [hr])
  · exact hq.nodup_run
  · exact hn
  · intro x hx
    cases hx

theorem pick_of_stopped (ht : ¬ (s.status t).isRunning) (hp : ∀ x ∈ p, ¬ (s.status x).isRunning) :
    s.pick t (p ++ r) = r.head? := by
  have hstopped {c : Nat → Bool} : p.find? (s.runsAt c) = none := by
    apply List.find?_eq_none.2
    intro x hx
    simp [Sched.runsAt, hp x hx]
  have hfind {c : Nat → Bool} : (p ++ r).find? (s.runsAt c) = r.find? (s.runsAt c) := by
    rw [List.find?_append, hstopped, Option.none_or]
  rw [Sched.pick, hfind, hfind, hfind, if_neg ht]
  cases r with
  | nil => rfl
  | cons x r =>
    have hx : (s.status x).isRunning := hq.runnable x List.mem_cons_self
    have hle := (List.pairwise_cons.1 hq.sorted).1
    have hnone {c : Nat → Bool} (hc : ∀ y ∈ r, s.priority y ≤ s.priority x →
        c (s.priority y) = false) : r.find? (s.runsAt c) = none := by
      apply List.find?_eq_none.2
      intro y hy
      simp [Sched.runsAt, hc y hy (hle y hy)]
    rw [List.head?_cons]
    rcases Nat.lt_trichotomy (s.priority t) (s.priority x) with hlt | heq | hgt
    · simp [List.find?_cons, Sched.runsAt, hx, hlt]
    · have hhigh : r.find? (s.runsAt (s.priority t < ·)) = none :=
        hnone fun y _ hy => by simp; omega
      rw [heq] at hhigh
      simp [Sched.runsAt, hx, heq, hhigh]
    · have hhigh : r.find? (s.runsAt (s.priority t < ·)) = none :=
        hnone fun y _ hy => by simp; omega
      have hsame : r.find? (s.runsAt (s.priority t = ·)) = none :=
        hnone fun y _ hy => by simp; omega
      have hx' : ¬ s.priority t < s.priority x := by omega
      have hx'' : s.priority t ≠ s.priority x := by omega
      simp [hhigh, hsame, Sched.runsAt, hx, hgt, hx', hx'']

/-- The search from a task of the top priority: the next task of this priority behind it, or else
the first one. -/
theorem pick_of_top {same rest : List TaskId} (hr : r = pre ++ t :: (same ++ rest))
    (hsame : ∀ x ∈ pre ++ same, s.priority x = s.priority t)
    (hrest : ∀ x ∈ rest, s.priority x < s.priority t) :
    s.pick t (same ++ rest ++ (pre ++ [t])) = (same ++ (pre ++ [t])).head? := by
  have hrun : ∀ x ∈ same ++ rest ++ (pre ++ [t]), (s.status x).isRunning := by
    intro x hx
    apply hq.runnable x
    rw [hr]
    simp only [List.mem_append, List.mem_cons, List.not_mem_nil, or_false] at hx ⊢
    tauto
  have heq : ∀ x ∈ same ++ (pre ++ [t]), s.runsAt (s.priority t = ·) x := by
    intro x hx
    have hp : s.priority x = s.priority t := by
      simp only [List.mem_append, List.mem_cons, List.not_mem_nil, or_false] at hx hsame
      rcases hx with hx | hx | rfl
      · exact hsame x (.inr hx)
      · exact hsame x (.inl hx)
      · rfl
    have hx' : (s.status x).isRunning := hrun x (by simp at hx ⊢; tauto)
    simp [Sched.runsAt, hx', hp]
  have hhigh : ∀ x ∈ same ++ rest ++ (pre ++ [t]), s.runsAt (s.priority t < ·) x = false := by
    intro x hx
    have hle : s.priority x ≤ s.priority t := by
      simp only [List.mem_append, List.mem_cons, List.not_mem_nil, or_false] at hx hsame
      rcases hx with (hx | hx) | hx | rfl
      · exact (hsame x (.inr hx)).le
      · exact (hrest x hx).le
      · exact (hsame x (.inl hx)).le
      · exact le_rfl
    simp [Sched.runsAt, hle]
  have hlow : rest.find? (s.runsAt (s.priority t = ·)) = none := by
    apply List.find?_eq_none.2
    intro x hx
    have hlt := hrest x hx
    have hne : s.priority t ≠ s.priority x := by omega
    simp [Sched.runsAt, hne]
  have ht : (s.status t).isRunning := hrun t (by simp)
  rw [pick_of_no_higher hhigh, if_pos ht, Option.or_none, List.append_assoc, List.find?_append,
    List.find?_append, hlow, Option.none_or, ← List.find?_append, find?_of_all heq]

theorem pick_of_not_top {x : TaskId} (hr : r = x :: pre ++ t :: post)
    (hx : s.priority t < s.priority x) : s.pick t (post ++ (x :: pre ++ [t])) = some x := by
  have hrun : (s.status x).isRunning := hq.runnable x (by rw [hr]; simp)
  have hsorted := hq.sorted
  rw [hr, List.pairwise_append] at hsorted
  have hpost : ∀ y ∈ post, s.priority y ≤ s.priority t := (List.pairwise_cons.1 hsorted.2.1).1
  have hnone : post.find? (s.runsAt (s.priority t < ·)) = none := by
    apply List.find?_eq_none.2
    intro y hy
    simp [Sched.runsAt, hpost y hy]
  apply pick_of_higher
  rw [List.find?_append, hnone, Option.none_or, List.cons_append, List.find?_cons]
  simp [Sched.runsAt, hrun, hx]

theorem head_top {x : TaskId} (hr : r.head? = some x) : ∀ y ∈ r, s.priority y ≤ s.priority x := by
  obtain ⟨r', rfl⟩ := List.head?_eq_some_iff.1 hr
  intro y hy
  rcases List.mem_cons.1 hy with rfl | hy
  · exact le_rfl
  · exact (List.pairwise_cons.1 hq.sorted).1 y hy

theorem split_top (hr : r = pre ++ t :: post) (htop : ∀ x ∈ r, s.priority x ≤ s.priority t) :
    ∃ same rest, post = same ++ rest ∧ (∀ x ∈ pre ++ same, s.priority x = s.priority t) ∧
      ∀ x ∈ rest, s.priority x < s.priority t := by
  have hsorted := hq.sorted
  rw [hr, List.pairwise_append, List.pairwise_cons] at hsorted
  obtain ⟨-, ⟨-, hpost⟩, hpre⟩ := hsorted
  refine ⟨post.takeWhile fun x => s.priority x = s.priority t,
    post.dropWhile fun x => s.priority x = s.priority t, List.takeWhile_append_dropWhile.symm,
    fun x hx => ?_, fun x hx => ?_⟩
  · rcases List.mem_append.1 hx with hx | hx
    · have hle := htop x (by rw [hr]; exact List.mem_append_left _ hx)
      have hge := hpre x hx t List.mem_cons_self
      omega
    · have hall :=
        List.all_takeWhile (p := fun x => decide (s.priority x = s.priority t)) (l := post)
      simpa using List.all_eq_true.1 hall x hx
  · have hle : ∀ y ∈ post, s.priority y ≤ s.priority t := by
      intro y hy
      exact htop y (by rw [hr]; simp [hy])
    cases hd : post.dropWhile fun x => s.priority x = s.priority t with
    | nil => rw [hd] at hx; cases hx
    | cons b l =>
      have hb : s.priority b ≠ s.priority t := by
        have hh := List.head?_dropWhile_not (fun x => decide (s.priority x = s.priority t)) post
        rw [hd] at hh
        simpa using hh
      have hsub : (b :: l).Sublist post := hd ▸ List.dropWhile_sublist _
      have hbt : s.priority b < s.priority t :=
        Nat.lt_of_le_of_ne (hle b (hsub.subset List.mem_cons_self)) hb
      rw [hd] at hx
      rcases List.mem_cons.1 hx with rfl | hx
      · exact hbt
      · exact Nat.lt_of_le_of_lt ((List.pairwise_cons.1 (hpost.sublist hsub)).1 x hx) hbt

/-- What `find_new_task` finds is of the top priority, and it finds nothing only if no task can
run. -/
theorem findNewTask_top (hc : Complete s r w) (hn : (r ++ w).length ≤ s.bound)
    (h : findNewTask s t = .ok new) :
    (∀ y, new = some y → ∀ x ∈ r, s.priority x ≤ s.priority y) ∧ (new = none → r = []) := by
  have hrn : r.length ≤ s.bound := by
    rw [List.length_append] at hn
    omega
  have hhead {p : List TaskId} (ht : ¬ (s.status t).isRunning) (hl : Lasso s t p r) :
      (∀ y, new = some y → ∀ x ∈ r, s.priority x ≤ s.priority y) ∧ (new = none → r = []) := by
    have hnew : new = r.head? := by
      by_cases hend : p = [] ∨ r = [] ∨
          ∃ x ∈ r, (s.status x).isRunning ∧ s.priority x ≠ s.priority t
      · have hf := hl.findNewTask hend
        rw [hq.pick_of_stopped ht hl.stopped, h] at hf
        exact Except.ok.inj hf
      · simp only [not_or, not_exists, not_and, not_not] at hend
        rw [hl.findNewTask_diverges hend.1 hend.2.1 hend.2.2] at h
        cases h
    rw [hnew]
    exact ⟨fun y hy => hq.head_top hy, List.head?_eq_none_iff.1⟩
  by_cases htr : t ∈ r
  · obtain ⟨pre, post, hr⟩ := List.append_of_mem htr
    have hf := (hq.round hr hrn).findNewTask
    rw [h] at hf
    have hnew := Except.ok.inj hf
    by_cases htop : ∀ x ∈ r, s.priority x ≤ s.priority t
    · obtain ⟨same, rest, rfl, hsame, hrest⟩ := hq.split_top hr htop
      rw [hq.pick_of_top hr hsame hrest] at hnew
      rw [hnew]
      constructor
      · intro y hy x hx
        have hyt : s.priority y = s.priority t := by
          have hm := List.mem_of_head? hy
          simp only [List.mem_append, List.mem_cons, List.not_mem_nil, or_false] at hm hsame
          rcases hm with hm | hm | rfl
          · exact hsame y (.inr hm)
          · exact hsame y (.inl hm)
          · rfl
        rw [hyt]
        exact htop x hx
      · exact fun hz => by simp at hz
    · simp only [not_forall, Nat.not_le] at htop
      obtain ⟨x, hx, hlt⟩ := htop
      cases pre with
      | nil =>
        have hhd : r.head? = some t := by rw [hr]; rfl
        exact absurd (hq.head_top hhd x hx) (Nat.not_le.2 hlt)
      | cons b pre =>
        have hb : ∀ y ∈ r, s.priority y ≤ s.priority b := hq.head_top (by rw [hr]; rfl)
        have htb : s.priority t < s.priority b := Nat.lt_of_lt_of_le hlt (hb x hx)
        rw [hq.pick_of_not_top hr htb] at hnew
        rw [hnew]
        constructor
        · intro y hy
          cases hy
          exact hb
        · intro hz
          cases hz
  · have hrun : ¬ (s.status t).isRunning := fun hrun => htr (hc.mem_run t hrun)
    by_cases htw : t ∈ w
    · obtain ⟨pre, post, hw⟩ := List.append_of_mem htw
      exact hhead hrun (hq.lasso hw hn)
    · exact hhead hrun (hq.lasso_of_unlinked (hc.unlinked t htr htw) hrn)

theorem findNewTask_waiting (ht : t ∈ w) (hn : (r ++ w).length ≤ s.bound)
    (hne : ∃ x ∈ r, s.priority x ≠ s.priority t) : findNewTask s t = .ok r.head? := by
  obtain ⟨pre, post, hw⟩ := List.append_of_mem ht
  have hl := hq.lasso hw hn
  have hst : ¬ (s.status t).isRunning := by
    rw [(hq.waiting t).1 ht]
    decide
  obtain ⟨x, hx, hp⟩ := hne
  rw [hl.findNewTask (.inr (.inr ⟨x, hx, hq.runnable x hx, hp⟩)), hq.pick_of_stopped hst hl.stopped]

omit hq in
/-- From a task that has just joined the run queue, behind the tasks of its priority, the search
leads to the head of the others, unless all of them are below it. -/
theorem findNewTask_inserted (hq : Queues s (insertByPriority s.priority t r) w)
    (hn : (insertByPriority s.priority t r).length ≤ s.bound) :
    findNewTask s t =
      .ok (if ∃ x ∈ r, s.priority t ≤ s.priority x then r.head? else some t) := by
  obtain ⟨pre, post, rfl, hpre, hpost, hr⟩ : ∃ pre post, r = pre ++ post ∧
      (∀ x ∈ pre, s.priority t ≤ s.priority x) ∧ (∀ x, post.head? = some x →
        s.priority x < s.priority t) ∧ insertByPriority s.priority t r = pre ++ t :: post := by
    refine ⟨_, _, List.takeWhile_append_dropWhile.symm, fun x hx => ?_, fun x hx => ?_,
      List.orderedInsert_eq_take_drop _ t r⟩
    · have hall := List.all_takeWhile (p := fun b => decide ¬ s.priority t > s.priority b) (l := r)
      simpa using List.all_eq_true.1 hall x hx
    · have hh := List.head?_dropWhile_not (fun b => decide ¬ s.priority t > s.priority b) r
      rw [hx] at hh
      simpa using hh
  rw [hr] at hq hn
  have hlow : ∀ x ∈ post, s.priority x < s.priority t := by
    intro x hx
    cases post with
    | nil => cases hx
    | cons b post =>
      have hb := hpost b rfl
      have hsorted := (List.pairwise_append.1 hq.sorted).2.1
      rcases List.mem_cons.1 hx with rfl | hx
      · exact hb
      · have hle := (List.pairwise_cons.1 (List.pairwise_cons.1 hsorted).2).1 x hx
        omega
  rw [(hq.round rfl hn).findNewTask]
  cases pre with
  | nil =>
    have hnone : ¬ ∃ x ∈ [] ++ post, s.priority t ≤ s.priority x := by
      rintro ⟨x, hx, hle⟩
      exact absurd hle (Nat.not_le.2 (hlow x hx))
    rw [if_neg hnone]
    have hsame : ∀ x ∈ [] ++ [], s.priority x = s.priority t := by simp
    exact congrArg Except.ok (hq.pick_of_top rfl hsame hlow)
  | cons b pre =>
    have hb : s.priority t ≤ s.priority b := hpre b List.mem_cons_self
    rw [if_pos ⟨b, by simp, hb⟩]
    apply congrArg Except.ok
    rcases Nat.eq_or_lt_of_le hb with heq | hlt
    · have hsame : ∀ x ∈ (b :: pre) ++ [], s.priority x = s.priority t := by
        intro x hx
        have hx' : x ∈ b :: pre := by simpa using hx
        have htop := hq.head_top (x := b) rfl x (by simp only [List.mem_append]; exact .inl hx')
        have hge := hpre x hx'
        omega
      exact hq.pick_of_top rfl hsame hlow
    · exact hq.pick_of_not_top rfl hlt

end Queues

end Wrapped

end Osh
