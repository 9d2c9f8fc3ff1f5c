import Osh.Blocked
import Osh.Lib.Chain

namespace Osh
open Function (update)
open Lib

variable {o o' : Objects} {w : Waitable} {t : TaskId} {l : List TaskId} {n : Nat}

/-- `t` taken off the blocked list of `w`, where `previous` is the task before it. -/
def Objects.unlink (o : Objects) (w : Waitable) (previous : Option TaskId) (t : TaskId) : Objects :=
  let links := setLink (o.blocked w) o.nblocked previous (o.nblocked t)
  { o with
    blocked := update o.blocked w links.1
    nblocked := update links.2 t none }

theorem blockedDeq_eq_ok {o' : Objects} {r : Option TaskId} :
    blockedDeq o w = .ok (o', r) ↔ o.blocked w = r ∧
      match r with
      | none => o' = o
      | some t => o.waitsOn w t = some w ∧ o' = o.unlink w none t := by
  unfold blockedDeq
  cases hb : o.blocked w with
  | none =>
    simp only [Except.ok.injEq, Prod.mk.injEq]
    constructor
    · rintro ⟨rfl, rfl⟩
      exact ⟨rfl, rfl⟩
    · rintro ⟨rfl, h⟩
      exact ⟨h.symm, rfl⟩
  | some t =>
    simp only [bind_eq_ok, osAssert_eq_ok, pure_eq_ok, Prod.mk.injEq]
    constructor
    · rintro ⟨_, hw, rfl, rfl⟩
      exact ⟨rfl, hw, rfl⟩
    · rintro ⟨rfl, hw, rfl⟩
      exact ⟨(), hw, rfl, rfl⟩

/-- `t` put at the end of the blocked list of `w`, where `last` is the task before it. -/
def Objects.link (o : Objects) (w : Waitable) (last : Option TaskId) (t : TaskId) : Objects :=
  let links := setLink (o.blocked w) o.nblocked last (some t)
  { o with
    blocked := update o.blocked w links.1
    nblocked := links.2 }

theorem blockedAppendLoop_spec {p : List TaskId} {b : TaskId}
    (h : blockedAppendLoop t n o b = .ok o') (hc : Chain o.nblocked (some b) l)
    (hp : Chain o.nblocked (o.blocked w) (p ++ l)) :
    t ∉ l ∧ o' = o.link w (p ++ l).getLast? t := by
  induction n generalizing b l p with
  | zero => cases h
  | succ n ih =>
    obtain ⟨l, rfl, hl⟩ := chain_some.1 hc
    simp only [blockedAppendLoop, bind_eq_ok, osAssert_eq_ok] at h
    obtain ⟨_, -, _, hbt, h⟩ := h
    cases hb : o.nblocked b with
    | none =>
      obtain rfl := chain_none.1 (hb ▸ hl)
      simp only [hb, Except.ok.injEq] at h
      refine ⟨by simpa using Ne.symm hbt, ?_⟩
      rw [← h]
      simp [Objects.link, setLink, Function.update_eq_self]
    | some c =>
      simp only [hb] at h
      have he : p ++ b :: l = (p ++ [b]) ++ l := by simp
      rw [he] at hp ⊢
      obtain ⟨ht, ho⟩ := ih h (hb ▸ hl) hp
      exact ⟨by simpa using ⟨Ne.symm hbt, ht⟩, ho⟩

theorem blockedAppend_spec (h : blockedAppend n o w t = .ok o')
    (hc : Chain o.nblocked (o.blocked w) l) :
    o.nblocked t = none ∧ t ∉ l ∧ o' = o.link w l.getLast? t := by
  simp only [blockedAppend, bind_eq_ok, osAssert_eq_ok] at h
  obtain ⟨_, hn, h⟩ := h
  refine ⟨hn, ?_⟩
  cases hb : o.blocked w with
  | none =>
    obtain rfl := chain_none.1 (hb ▸ hc)
    simp only [hb, Except.ok.injEq] at h
    exact ⟨by simp, h.symm⟩
  | some b =>
    simp only [hb] at h
    exact blockedAppendLoop_spec (p := []) h (hb ▸ hc) hc

theorem blockedRemoveLoop_spec {p : List TaskId} {head : Option TaskId}
    (h : blockedRemoveLoop w t n o p.getLast? head = .ok o') (hc : Chain o.nblocked head l)
    (hp : Chain o.nblocked (o.blocked w) (p ++ l)) :
    t ∉ l ∧ o' = o ∨ ∃ pre post, l = pre ++ t :: post ∧ o' = o.unlink w (p ++ pre).getLast? t := by
  induction n generalizing head l p with
  | zero =>
    cases head with
    | none =>
      cases h
      exact .inl ⟨by simp [chain_none.1 hc], rfl⟩
    | some b => cases h
  | succ n ih =>
    cases head with
    | none =>
      cases h
      exact .inl ⟨by simp [chain_none.1 hc], rfl⟩
    | some b =>
      obtain ⟨l, rfl, hl⟩ := chain_some.1 hc
      unfold blockedRemoveLoop at h
      split_ifs at h with hbt
      · subst hbt
        refine .inr ⟨[], l, rfl, ?_⟩
        rw [List.append_nil]
        cases hq : p.getLast? with
        | none =>
          simp only [hq, Except.ok.injEq] at h
          exact h.symm
        | some q =>
          simp only [hq, Except.ok.injEq] at h
          rw [← h]
          simp [Objects.unlink, setLink, Function.update_eq_self]
      · have he : p ++ b :: l = (p ++ [b]) ++ l := by simp
        rw [he] at hp
        have h' : blockedRemoveLoop w t n o (p ++ [b]).getLast? (o.nblocked b) = .ok o' := by
          simpa using h
        rcases ih h' hl hp with ⟨ht, ho⟩ | ⟨pre, post, rfl, ho⟩
        · exact .inl ⟨by simpa using ⟨Ne.symm hbt, ht⟩, ho⟩
        · exact .inr ⟨b :: pre, post, rfl, by simpa using ho⟩

theorem blockedRemove_spec (h : blockedRemove n o w t = .ok o')
    (hc : Chain o.nblocked (o.blocked w) l) :
    t ∉ l ∧ o' = o ∨ ∃ pre post, l = pre ++ t :: post ∧ o' = o.unlink w pre.getLast? t :=
  blockedRemoveLoop_spec (p := []) h hc hc

/-- What blocks a task: at most one object, by its flags; only the semaphore may be left over. -/
structure Flagged (o : Objects) : Prop where
  range : ∀ t, o.flags t ≤ 4
  mutex : ∀ t, o.taskMutex t ≠ none ↔ o.flags t = flagMutex
  queue : ∀ t, o.taskQueue t ≠ none ↔ o.flags t = flagQueue
  rwlock : ∀ t, o.taskRwlock t ≠ none ↔ o.flags t = flagRwlock
  semaphore : ∀ t, o.flags t = flagSemaphore → o.taskSemaphore t ≠ none

structure SamePointers (o o' : Objects) : Prop where
  flags : o'.flags = o.flags
  taskMutex : o'.taskMutex = o.taskMutex
  taskQueue : o'.taskQueue = o.taskQueue
  taskSemaphore : o'.taskSemaphore = o.taskSemaphore
  taskRwlock : o'.taskRwlock = o.taskRwlock

theorem Flagged.of_pointers (hf : Flagged o) (h : SamePointers o o') : Flagged o' where
  range t := by rw [h.flags]; exact hf.range t
  mutex t := by rw [h.taskMutex, h.flags]; exact hf.mutex t
  queue t := by rw [h.taskQueue, h.flags]; exact hf.queue t
  rwlock t := by rw [h.taskRwlock, h.flags]; exact hf.rwlock t
  semaphore t := by rw [h.taskSemaphore, h.flags]; exact hf.semaphore t

/-- How a dispatch takes `t` off the blocked list of `w`. For a mutex it looks at the head first. -/
def detachList (n : Nat) (o : Objects) (w : Waitable) (t : TaskId) : Except Stop Objects :=
  match w with
  | .mutex m =>
    blockedRemove n (if o.blocked (.mutex m) = some t then o.unlink (.mutex m) none t else o)
      (.mutex m) t
  | w => blockedRemove n o w t

/-- The fields of `t` when a dispatch has taken it off the blocked list of `w`. -/
def Objects.clear (o : Objects) (w : Waitable) (t : TaskId) : Objects :=
  match w with
  | .mutex _ => { o with taskMutex := update o.taskMutex t none, flags := update o.flags t 0 }
  | .queue _ => { o with taskQueue := update o.taskQueue t none, flags := update o.flags t 0 }
  | .semaphore _ =>
    { o with taskSemaphore := update o.taskSemaphore t none, flags := update o.flags t 0 }
  | .rwlock _ => { o with
      c := update o.c t 0
      taskRwlock := update o.taskRwlock t none
      flags := update o.flags t 0 }

theorem Objects.clear_flags : (o.clear w t).flags t = 0 := by
  cases w <;> exact Function.update_self ..

section Detach
variable {m : MutexId} {q : QueueId} {s : SemaphoreId} {r : RwlockId}

theorem detachMutex_skip (h : o.flags t &&& flagMutex ≠ flagMutex) :
    detachMutex n o t = .ok o := by
  rw [detachMutex, if_neg h]

theorem detachQueue_skip (h : o.flags t &&& flagQueue ≠ flagQueue) :
    detachQueue n o t = .ok o := by
  rw [detachQueue, if_neg h]

theorem detachSemaphore_skip (h : o.flags t &&& flagSemaphore ≠ flagSemaphore) :
    detachSemaphore n o t = .ok o := by
  rw [detachSemaphore, if_neg h]

theorem detachRwlock_skip (h : o.flags t &&& flagRwlock ≠ flagRwlock) :
    detachRwlock n o t = .ok o := by
  rw [detachRwlock, if_neg h]

theorem detachMutex_eq_ok (hf : o.flags t = flagMutex) (hm : o.taskMutex t = some m) :
    detachMutex n o t = .ok o' ↔
      (o.taskQueue t = none ∧ o.taskSemaphore t = none ∧ o.taskRwlock t = none) ∧
        ∃ o₁, detachList n o (.mutex m) t = .ok o₁ ∧ o' = o₁.clear (.mutex m) t := by
  have hb : flagMutex &&& flagMutex = flagMutex := by decide
  unfold detachMutex
  rw [hf, if_pos hb]
  simp only [hm, bind_eq_ok, osAssert_eq_ok, pure_eq_ok, exists_const]
  exact and_congr_right fun _ => exists_congr fun _ => and_congr_right fun _ => eq_comm

theorem detachQueue_eq_ok (hf : o.flags t = flagQueue) (hq : o.taskQueue t = some q) :
    detachQueue n o t = .ok o' ↔
      (o.taskMutex t = none ∧ o.taskSemaphore t = none ∧ o.taskRwlock t = none) ∧
        ∃ o₁, detachList n o (.queue q) t = .ok o₁ ∧ o' = o₁.clear (.queue q) t := by
  have hb : flagQueue &&& flagQueue = flagQueue := by decide
  unfold detachQueue
  rw [hf, if_pos hb]
  simp only [hq, bind_eq_ok, osAssert_eq_ok, pure_eq_ok, exists_const]
  exact and_congr_right fun _ => exists_congr fun _ => and_congr_right fun _ => eq_comm

theorem detachRwlock_eq_ok (hf : o.flags t = flagRwlock) (hr : o.taskRwlock t = some r) :
    detachRwlock n o t = .ok o' ↔
      (o.taskMutex t = none ∧ o.taskQueue t = none ∧ o.taskSemaphore t = none) ∧
        ∃ o₁, detachList n o (.rwlock r) t = .ok o₁ ∧ o' = o₁.clear (.rwlock r) t := by
  have hb : flagRwlock &&& flagRwlock = flagRwlock := by decide
  unfold detachRwlock
  rw [hf, if_pos hb]
  simp only [hr, bind_eq_ok, osAssert_eq_ok, pure_eq_ok, exists_const]
  exact and_congr_right fun _ => exists_congr fun _ => and_congr_right fun _ => eq_comm

@[simp] theorem waitsOn_mutex {w : Waitable} :
    o.waitsOn (.mutex m) t = some w ↔ ∃ m', o.taskMutex t = some m' ∧ .mutex m' = w := by
  simp [Objects.waitsOn]

@[simp] theorem waitsOn_queue {w : Waitable} :
    o.waitsOn (.queue q) t = some w ↔ ∃ q', o.taskQueue t = some q' ∧ .queue q' = w := by
  simp [Objects.waitsOn]

@[simp] theorem waitsOn_semaphore {w : Waitable} :
    o.waitsOn (.semaphore s) t = some w ↔
      ∃ s', o.taskSemaphore t = some s' ∧ .semaphore s' = w := by
  simp [Objects.waitsOn]

@[simp] theorem waitsOn_rwlock {w : Waitable} :
    o.waitsOn (.rwlock r) t = some w ↔ ∃ r', o.taskRwlock t = some r' ∧ .rwlock r' = w := by
  simp [Objects.waitsOn]

theorem detachQueue_done (h : o.flags t = 0) : detachQueue n o t = .ok o :=
  detachQueue_skip (by rw [h]; decide)

theorem detachSemaphore_done (h : o.flags t = 0) : detachSemaphore n o t = .ok o :=
  detachSemaphore_skip (by rw [h]; decide)

theorem detachRwlock_done (h : o.flags t = 0) : detachRwlock n o t = .ok o :=
  detachRwlock_skip (by rw [h]; decide)

/-- The four masked tests pick the one object that `t` is blocked on. The flag of semaphores also
passes the test for mutexes, and then its assertion fails. -/
theorem dispatchDetach_eq_ok (hf : Flagged o) : dispatchDetach n o t = .ok o' ↔
    o.flags t = 0 ∧ o' = o ∨ ∃ w o₁, o.waitsOn w t = some w ∧ o.flags t = w.flag ∧
      o.taskSemaphore t = none ∧ detachList n o w t = .ok o₁ ∧ o' = o₁.clear w t := by
  have hmutex := hf.mutex t
  have hqueue := hf.queue t
  have hrwlock := hf.rwlock t
  have hsem := hf.semaphore t
  have hrange := hf.range t
  have hdone {w : Waitable} {o₁ : Objects} : (o₁.clear w t).flags t = 0 := Objects.clear_flags
  simp only [dispatchDetach, bind_eq_ok]
  generalize hfl : o.flags t = f at *
  have hcases : f = 0 ∨ f = 1 ∨ f = 2 ∨ f = 3 ∨ f = 4 := by omega
  rcases hcases with rfl | rfl | rfl | rfl | rfl
  · rw [detachMutex_skip (by rw [hfl]; decide)]
    simp only [detachQueue_done hfl, detachSemaphore_done hfl, detachRwlock_done hfl,
      Except.ok.injEq, exists_eq_left', true_and]
    refine ⟨fun h => .inl h.symm, fun h => h.elim Eq.symm ?_⟩
    rintro ⟨w, -, -, hw, -⟩
    cases w <;> cases hw
  · obtain ⟨m, hm⟩ := Option.ne_none_iff_exists'.1 (hmutex.2 rfl)
    have hq : o.taskQueue t = none := by_contra fun h => by cases hqueue.1 h
    have hr : o.taskRwlock t = none := by_contra fun h => by cases hrwlock.1 h
    rw [or_iff_right (by simp)]
    simp only [detachMutex_eq_ok hfl hm, hq, hr, true_and, and_true]
    constructor
    · rintro ⟨_, ⟨hs, o₁, hd, rfl⟩, h⟩
      simp only [detachQueue_done hdone, detachSemaphore_done hdone, detachRwlock_done hdone,
        Except.ok.injEq, exists_eq_left'] at h
      exact ⟨.mutex m, o₁, by simp [hm], rfl, hs, hd, h.symm⟩
    · rintro ⟨w, o₁, hw, hfw, hs, hd, rfl⟩
      cases w <;> cases hfw
      simp only [waitsOn_mutex, hm, Option.some.injEq, exists_eq_left', Waitable.mutex.injEq] at hw
      subst hw
      refine ⟨_, ⟨hs, o₁, hd, rfl⟩, ?_⟩
      simp only [detachQueue_done hdone, detachSemaphore_done hdone, detachRwlock_done hdone,
        Except.ok.injEq, exists_eq_left']
  · obtain ⟨q, hq⟩ := Option.ne_none_iff_exists'.1 (hqueue.2 rfl)
    have hm : o.taskMutex t = none := by_contra fun h => by cases hmutex.1 h
    have hr : o.taskRwlock t = none := by_contra fun h => by cases hrwlock.1 h
    rw [or_iff_right (by simp), detachMutex_skip (by rw [hfl]; decide)]
    simp only [Except.ok.injEq, exists_eq_left', detachQueue_eq_ok hfl hq, hm, hr, true_and,
      and_true]
    constructor
    · rintro ⟨_, ⟨hs, o₁, hd, rfl⟩, h⟩
      simp only [detachSemaphore_done hdone, detachRwlock_done hdone, Except.ok.injEq,
        exists_eq_left'] at h
      exact ⟨.queue q, o₁, by simp [hq], rfl, hs, hd, h.symm⟩
    · rintro ⟨w, o₁, hw, hfw, hs, hd, rfl⟩
      cases w <;> cases hfw
      simp only [waitsOn_queue, hq, Option.some.injEq, exists_eq_left', Waitable.queue.injEq] at hw
      subst hw
      refine ⟨_, ⟨hs, o₁, hd, rfl⟩, ?_⟩
      simp only [detachSemaphore_done hdone, detachRwlock_done hdone, Except.ok.injEq,
        exists_eq_left']
  · have hm : o.taskMutex t = none := by_contra fun h => by cases hmutex.1 h
    rw [or_iff_right (by simp), detachMutex, if_pos (by rw [hfl]; decide)]
    simp only [hm, reduceCtorEq, false_and, exists_false, false_iff]
    rintro ⟨w, -, -, -, hs, -⟩
    exact hsem rfl hs
  · obtain ⟨r, hr⟩ := Option.ne_none_iff_exists'.1 (hrwlock.2 rfl)
    have hm : o.taskMutex t = none := by_contra fun h => by cases hmutex.1 h
    have hq : o.taskQueue t = none := by_contra fun h => by cases hqueue.1 h
    rw [or_iff_right (by simp), detachMutex_skip (by rw [hfl]; decide)]
    simp only [Except.ok.injEq, exists_eq_left', detachQueue_skip (o := o) (t := t) (n := n)
      (by rw [hfl]; decide), detachSemaphore_skip (o := o) (t := t) (n := n)
      (by rw [hfl]; decide), detachRwlock_eq_ok hfl hr, hm, hq, true_and]
    constructor
    · rintro ⟨hs, o₁, hd, rfl⟩
      exact ⟨.rwlock r, o₁, by simp [hr], rfl, hs, hd, rfl⟩
    · rintro ⟨w, o₁, hw, hfw, hs, hd, rfl⟩
      cases w <;> cases hfw
      simp only [waitsOn_rwlock, hr, Option.some.injEq, exists_eq_left',
        Waitable.rwlock.injEq] at hw
      subst hw
      exact ⟨hs, o₁, hd, rfl⟩

end Detach

end Osh
