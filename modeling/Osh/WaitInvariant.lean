import Osh.BlockedInvariant

namespace Osh
open Function (update)
open Lib

variable {o o' o₁ : Objects} {w : Waitable} {t x : TaskId} {l pre post : List TaskId} {n : Nat}
  {L : Waitable → List TaskId}

structure SameWaits (o o' : Objects) : Prop where
  blocked : o'.blocked = o.blocked
  nblocked : o'.nblocked = o.nblocked
  taskQueue : o'.taskQueue = o.taskQueue
  taskMutex : o'.taskMutex = o.taskMutex
  taskSemaphore : o'.taskSemaphore = o.taskSemaphore
  taskRwlock : o'.taskRwlock = o.taskRwlock
  flags : o'.flags = o.flags

theorem SameWaits.refl : SameWaits o o := ⟨rfl, rfl, rfl, rfl, rfl, rfl, rfl⟩

theorem SameWaits.waitsOn (h : SameWaits o o') : o'.waitsOn w t = o.waitsOn w t := by
  cases w <;> simp only [Objects.waitsOn, h.taskQueue, h.taskMutex, h.taskSemaphore, h.taskRwlock]

/-- Every task on a blocked list points to its object and has the object's flag. -/
structure BlockedInv (o : Objects) (L : Waitable → List TaskId) : Prop where
  lists : BlockedLists o L
  waits : ∀ w, ∀ t ∈ L w, o.waitsOn w t = some w ∧ o.flags t = w.flag

theorem flag_ne_zero (w : Waitable) : w.flag ≠ 0 := by
  cases w <;> exact Nat.succ_ne_zero _

/-- The flag of an object says which of the pointers counts. -/
theorem waitsOn_unique {w' : Waitable} (hw : o.waitsOn w t = some w)
    (hw' : o.waitsOn w' t = some w') (hf : w.flag = w'.flag) : w = w' := by
  cases w <;> cases w' <;> first
    | exact Option.some.inj (hw.symm.trans hw')
    | exact absurd hf (by simp [Waitable.flag, flagMutex, flagQueue, flagSemaphore, flagRwlock])

theorem BlockedInv.notMem (hi : BlockedInv o L) (ht : o.flags t = 0) (w : Waitable) : t ∉ L w := by
  intro h
  exact flag_ne_zero w ((hi.waits w t h).2.symm.trans ht)

theorem Flagged.of_same (hf : Flagged o) (h : SameWaits o o') : Flagged o' :=
  hf.of_pointers ⟨h.flags, h.taskMutex, h.taskQueue, h.taskSemaphore, h.taskRwlock⟩

theorem BlockedInv.of_same (hi : BlockedInv o L) (h : SameWaits o o') : BlockedInv o' L where
  lists := hi.lists.of_eq h.blocked h.nblocked
  waits w t ht := by rw [h.waitsOn, h.flags]; exact hi.waits w t ht

section Dispatch

def Detaches (o : Objects) (t : TaskId) (o' : Objects) : Prop :=
  ∃ n o₁, dispatchDetach n o t = .ok o₁ ∧ o' = { o₁ with flags := update o₁.flags t 0 }

/-- A dispatch either finds `t` not blocked, or takes it off the list of the object it points to
and clears that pointer. -/
theorem Detaches.cases (hf : Flagged o) (h : Detaches o t o') :
    o.flags t = 0 ∧ o' = o ∨ ∃ n w o₁, o.waitsOn w t = some w ∧ o.flags t = w.flag ∧
      o.taskSemaphore t = none ∧ detachList n o w t = .ok o₁ ∧ o' = o₁.clear w t := by
  obtain ⟨n, o₁, hd, rfl⟩ := h
  rcases (dispatchDetach_eq_ok hf).1 hd with ⟨hz, rfl⟩ | ⟨w, o₂, hw, hfw, hs, hl, rfl⟩
  · refine .inl ⟨hz, ?_⟩
    rw [← hz, Function.update_eq_self]
  · refine .inr ⟨n, w, o₂, hw, hfw, hs, hl, ?_⟩
    cases w <;> simp [Objects.clear]

theorem Flagged.mutex_none (hf : Flagged o) (h : o.flags t ≠ flagMutex) :
    o.taskMutex t = none :=
  not_not.1 fun hn => h ((hf.mutex t).1 hn)

theorem Flagged.queue_none (hf : Flagged o) (h : o.flags t ≠ flagQueue) : o.taskQueue t = none :=
  not_not.1 fun hn => h ((hf.queue t).1 hn)

theorem Flagged.rwlock_none (hf : Flagged o) (h : o.flags t ≠ flagRwlock) :
    o.taskRwlock t = none :=
  not_not.1 fun hn => h ((hf.rwlock t).1 hn)

theorem Flagged.update_mutex (hf : Flagged o) (h : o.flags t ≠ flagMutex) :
    update o.taskMutex t none = o.taskMutex := by
  rw [← hf.mutex_none h, Function.update_eq_self]

theorem Flagged.update_queue (hf : Flagged o) (h : o.flags t ≠ flagQueue) :
    update o.taskQueue t none = o.taskQueue := by
  rw [← hf.queue_none h, Function.update_eq_self]

theorem Flagged.update_rwlock (hf : Flagged o) (h : o.flags t ≠ flagRwlock) :
    update o.taskRwlock t none = o.taskRwlock := by
  rw [← hf.rwlock_none h, Function.update_eq_self]

theorem Detaches.fields (hf : Flagged o) (h : Detaches o t o') :
    o' = { o with
      blocked := o'.blocked
      nblocked := o'.nblocked
      taskMutex := update o.taskMutex t none
      taskQueue := update o.taskQueue t none
      taskRwlock := update o.taskRwlock t none
      flags := update o.flags t 0
      c := o'.c } ∧ ∀ x ≠ t, o'.c x = o.c x := by
  rcases h.cases hf with ⟨hz, rfl⟩ | ⟨n, w, o₁, hw, hfw, hs, hl, rfl⟩
  · have hflags : update o'.flags t 0 = o'.flags := by rw [← hz, Function.update_eq_self]
    rw [hf.update_mutex (by rw [hz]; decide), hf.update_queue (by rw [hz]; decide),
      hf.update_rwlock (by rw [hz]; decide), hflags]
    exact ⟨rfl, fun _ _ => rfl⟩
  · have hr := detachList_relisted hl
    cases w with
    | mutex m =>
      rw [hf.update_queue (by rw [hfw]; simp [Waitable.flag, flagMutex, flagQueue]),
        hf.update_rwlock (by rw [hfw]; simp [Waitable.flag, flagMutex, flagRwlock])]
      rw [hr]
      exact ⟨rfl, fun _ _ => rfl⟩
    | queue q =>
      rw [hf.update_mutex (by rw [hfw]; simp [Waitable.flag, flagMutex, flagQueue]),
        hf.update_rwlock (by rw [hfw]; simp [Waitable.flag, flagQueue, flagRwlock])]
      rw [hr]
      exact ⟨rfl, fun _ _ => rfl⟩
    | semaphore s => exact absurd hs (hf.semaphore t hfw)
    | rwlock r =>
      rw [hf.update_mutex (by rw [hfw]; simp [Waitable.flag, flagMutex, flagRwlock]),
        hf.update_queue (by rw [hfw]; simp [Waitable.flag, flagQueue, flagRwlock])]
      rw [hr]
      exact ⟨rfl, fun x hx => Function.update_of_ne hx _ _⟩

theorem Flagged.clear (hf : Flagged o) (t : TaskId) : Flagged { o with
    taskMutex := update o.taskMutex t none
    taskQueue := update o.taskQueue t none
    taskRwlock := update o.taskRwlock t none
    flags := update o.flags t 0 } := by
  refine ⟨fun x => ?_, fun x => ?_, fun x => ?_, fun x => ?_, fun x => ?_⟩ <;>
    by_cases hx : x = t
  all_goals first
    | subst hx; simp [flagMutex, flagQueue, flagRwlock, flagSemaphore]
    | simp only [Function.update_of_ne hx]
  · exact hf.range x
  · exact hf.mutex x
  · exact hf.queue x
  · exact hf.rwlock x
  · exact hf.semaphore x

theorem Detaches.flagged (hf : Flagged o) (h : Detaches o t o') : Flagged o' := by
  obtain ⟨he, -⟩ := h.fields hf
  have hc := hf.clear t
  rw [he]
  exact ⟨hc.range, hc.mutex, hc.queue, hc.rwlock, hc.semaphore⟩

theorem Detaches.blockedInv (hf : Flagged o) (hi : BlockedInv o L) (h : Detaches o t o') :
    BlockedInv o' fun w => (L w).erase t := by
  obtain ⟨he, -⟩ := h.fields hf
  constructor
  · rcases h.cases hf with ⟨hz, rfl⟩ | ⟨n, w, o₁, hw, hfw, -, hl, rfl⟩
    · have hL : (fun w => (L w).erase t) = L := by
        funext w
        exact List.erase_of_not_mem (hi.notMem hz w)
      rw [hL]
      exact hi.lists
    · have hl' := hi.lists.detachList hl fun w' hw' => ?_
      · exact hl'.of_eq (by cases w <;> rfl) (by cases w <;> rfl)
      · -- the pointer of `t` names the object of its list
        obtain ⟨hw₁, hf₁⟩ := hi.waits w' t hw'
        exact waitsOn_unique hw₁ hw (hf₁.symm.trans hfw)
  · intro w x hx
    have hxt : x ≠ t := by
      rintro rfl
      exact (hi.lists.nodup w).not_mem_erase hx
    obtain ⟨hw, hfw⟩ := hi.waits w x (List.mem_of_mem_erase hx)
    rw [he]
    constructor
    · cases w <;> simpa [Objects.waitsOn, Function.update_of_ne hxt] using hw
    · simpa only [Function.update_of_ne hxt] using hfw

end Dispatch

section Block

/-- A task joins the blocked list of `w`, as every call that blocks does before it sleeps. -/
def Blocks (o : Objects) (w : Waitable) (t : TaskId) (o' : Objects) : Prop :=
  ∃ n o₁, blockedEnq n o w t = .ok o₁ ∧
    o' = { o₁ with flags := update o₁.flags t (o₁.flags t ||| w.flag) }

theorem blockedAppendLoop_relisted {b : TaskId} (h : blockedAppendLoop t n o b = .ok o') :
    Relisted o o' := by
  induction n generalizing b with
  | zero => cases h
  | succ n ih =>
    simp only [blockedAppendLoop, bind_eq_ok, osAssert_eq_ok] at h
    obtain ⟨_, -, _, -, h⟩ := h
    cases hb : o.nblocked b with
    | none =>
      simp only [hb, Except.ok.injEq] at h
      rw [← h]
    | some c =>
      simp only [hb] at h
      exact ih h

theorem blockedAppend_relisted (h : blockedAppend n o w t = .ok o') : Relisted o o' := by
  simp only [blockedAppend, bind_eq_ok, osAssert_eq_ok] at h
  obtain ⟨_, -, h⟩ := h
  cases hb : o.blocked w with
  | none =>
    simp only [hb, Except.ok.injEq] at h
    rw [← h]
  | some b =>
    simp only [hb] at h
    exact blockedAppendLoop_relisted h

theorem Blocks.fields (h : Blocks o w t o') (hz : o.flags t = 0) :
    ∃ o₁, Relisted o o₁ ∧ o.waitsOn w t = none ∧
      o' = { o₁.setWaitsOn w t with flags := update o.flags t w.flag } := by
  obtain ⟨n, o₂, h, rfl⟩ := h
  simp only [blockedEnq, bind_eq_ok, osAssert_eq_ok, pure_eq_ok] at h
  obtain ⟨o₁, ha, _, hw, rfl⟩ := h
  have hr := blockedAppend_relisted ha
  have hflags : (o₁.setWaitsOn w t).flags = o.flags := by
    rw [hr]
    cases w <;> rfl
  refine ⟨o₁, hr, ?_, ?_⟩
  · rw [hr] at hw
    cases w <;> exact hw
  · rw [hflags, hz, Nat.zero_or]

theorem Blocks.flagged (h : Blocks o w t o') (hf : Flagged o) (hz : o.flags t = 0) :
    Flagged o' := by
  obtain ⟨o₁, hr, -, rfl⟩ := h.fields hz
  have hm : o.taskMutex t = none := hf.mutex_none (by rw [hz]; decide)
  have hq : o.taskQueue t = none := hf.queue_none (by rw [hz]; decide)
  have hw : o.taskRwlock t = none := hf.rwlock_none (by rw [hz]; decide)
  rw [hr]
  refine ⟨fun x => ?_, fun x => ?_, fun x => ?_, fun x => ?_, fun x => ?_⟩ <;>
    by_cases hx : x = t <;> cases w
  all_goals first
    | subst hx
      simp [Objects.setWaitsOn, Waitable.flag, flagMutex, flagQueue, flagSemaphore, flagRwlock, hm,
        hq, hw]
    | simp only [Objects.setWaitsOn, Function.update_of_ne hx]
      first
        | exact hf.range x
        | exact hf.mutex x
        | exact hf.queue x
        | exact hf.rwlock x
        | exact hf.semaphore x

theorem blockedEnq_lists (h : blockedEnq n o w t = .ok o') (hl : BlockedLists o L)
    (ht : ∀ w, t ∉ L w) : BlockedLists o' (update L w (L w ++ [t])) := by
  simp only [blockedEnq, bind_eq_ok, osAssert_eq_ok, pure_eq_ok] at h
  obtain ⟨o₁, ha, _, hw, rfl⟩ := h
  obtain ⟨-, -, rfl⟩ := blockedAppend_spec ha (hl.chain w)
  exact (hl.link ht).of_eq (by cases w <;> rfl) (by cases w <;> rfl)

theorem Blocks.blockedInv (h : Blocks o w t o') (hi : BlockedInv o L) (hz : o.flags t = 0) :
    BlockedInv o' (update L w (L w ++ [t])) := by
  obtain ⟨o₁, hr, -, he⟩ := h.fields hz
  constructor
  · obtain ⟨n, o₂, h, rfl⟩ := h
    exact (blockedEnq_lists h hi.lists (hi.notMem hz)).of_eq rfl rfl
  · intro w' x hx
    rw [he, hr]
    by_cases hxt : x = t
    · subst hxt
      have hww : w' = w := by
        by_contra hne
        rw [Function.update_of_ne hne] at hx
        exact hi.notMem hz w' hx
      subst hww
      constructor
      · cases w' <;> simp [Objects.waitsOn, Objects.setWaitsOn]
      · exact Function.update_self ..
    · have hx' : x ∈ L w' := by
        by_cases hww : w' = w
        · subst hww
          rw [Function.update_self] at hx
          simpa [hxt] using hx
        · rwa [Function.update_of_ne hww] at hx
      obtain ⟨hwx, hfx⟩ := hi.waits w' x hx'
      constructor
      · cases w <;> cases w' <;>
          simpa [Objects.waitsOn, Objects.setWaitsOn, Function.update_of_ne hxt] using hwx
      · exact by simpa only [Function.update_of_ne hxt] using hfx

end Block

/-- A task that is handed something leaves the blocked list, and keeps its pointer and flag. -/
theorem BlockedInv.unlink (hi : BlockedInv o L) (hw : L w = pre ++ t :: post)
    (h : SameWaits (o.unlink w pre.getLast? t) o') :
    BlockedInv o' (update L w (pre ++ post)) where
  lists := (hi.lists.unlink hw).of_eq h.blocked h.nblocked
  waits w' x hx := by
    have hx' : x ∈ L w' := by
      by_cases hww : w' = w
      · subst hww
        rw [Function.update_self] at hx
        rw [hw]
        simp only [List.mem_append, List.mem_cons] at hx ⊢
        tauto
      · rwa [Function.update_of_ne hww] at hx
    have hs : o'.waitsOn w' x = o.waitsOn w' x := by
      rw [h.waitsOn]
      cases w' <;> rfl
    rw [hs, h.flags]
    exact hi.waits w' x hx'

theorem Flagged.unlink {previous : Option TaskId} (hf : Flagged o)
    (h : SameWaits (o.unlink w previous t) o') : Flagged o' :=
  Flagged.of_same (o := o.unlink w previous t) ⟨hf.range, hf.mutex, hf.queue, hf.rwlock,
    hf.semaphore⟩ h

/-- The objects when `os_task_start_options` has set up the control block and the stack of `t`. -/
def Objects.restarted (o : Objects) (t : TaskId) (params : Nat) : Objects :=
  { o with
    flags := update o.flags t 0
    taskQueue := update o.taskQueue t none
    taskMutex := update o.taskMutex t none
    taskRwlock := update o.taskRwlock t none
    c := update o.c t 0
    nblocked := update o.nblocked t none
    params := update o.params t params
    regs := update o.regs t ⟨params, 0x1001⟩ }

theorem Flagged.restarted (hf : Flagged o) (params : Nat) : Flagged (o.restarted t params) :=
  have hc := hf.clear t
  ⟨hc.range, hc.mutex, hc.queue, hc.rwlock, hc.semaphore⟩

theorem BlockedInv.restarted (hi : BlockedInv o L) (ht : ∀ w, t ∉ L w) (params : Nat) :
    BlockedInv (o.restarted t params) L where
  lists := by
    refine hi.lists.of_eq rfl ?_
    change update o.nblocked t none = _
    rw [← hi.lists.unlinked t ht, Function.update_eq_self]
  waits w x hx := by
    have hxt : x ≠ t := fun he => ht w (he ▸ hx)
    obtain ⟨hw, hfx⟩ := hi.waits w x hx
    constructor
    · cases w <;> simpa [Objects.waitsOn, Objects.restarted, Function.update_of_ne hxt] using hw
    · simpa only [Objects.restarted, Function.update_of_ne hxt] using hfx

end Osh
