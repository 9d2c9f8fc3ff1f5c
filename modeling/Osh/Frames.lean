import Osh.Effects
import Osh.WaitInvariant

namespace Osh
open Function (update)

variable {k k' : Kernel} {o o' o₁ : Objects} {w w' : Option Waitable} {ts ts' : TaskId → Prop}
  {t x : TaskId} {m : MutexId} {q : QueueId} {s : SemaphoreId} {l : RwlockId} {a : Act}

/-- The tasks whose stacked frame or union an action writes: the caller, the task that it hands
something to and the task that it restarts. -/
def Act.Touches (k : Kernel) (x : TaskId) : Act → Prop
  | .svc call => k.running = some x ∨ call.grantee k.toObjects = some x ∨
      (Act.svc call).GrantsReader k.toObjects x
  | .enqueueIsr q message => (Act.enqueueIsr q message).grantee k.toObjects = some x
  | .taskStart t _ _ => t = x
  | _ => False

/-- Of the objects only `w` may differ, and of the stacked frames and unions only those of `ts`. -/
structure Framed (w : Option Waitable) (ts : TaskId → Prop) (o o' : Objects) : Prop where
  regs : ∀ x, ¬ ts x → o'.regs x = o.regs x
  c : ∀ x, ¬ ts x → o'.c x = o.c x
  mutex : ∀ m, w ≠ some (.mutex m) → o'.mutex m = o.mutex m
  queue : ∀ q, w ≠ some (.queue q) → o'.queue q = o.queue q
  semaphore : ∀ s, w ≠ some (.semaphore s) → o'.semaphore s = o.semaphore s
  rwlock : ∀ l, w ≠ some (.rwlock l) → o'.rwlock l = o.rwlock l

theorem Framed.trans (h : Framed w ts o o₁) (h' : Framed w ts o₁ o') : Framed w ts o o' where
  regs x hx := (h'.regs x hx).trans (h.regs x hx)
  c x hx := (h'.c x hx).trans (h.c x hx)
  mutex m hm := (h'.mutex m hm).trans (h.mutex m hm)
  queue q hq := (h'.queue q hq).trans (h.queue q hq)
  semaphore s hs := (h'.semaphore s hs).trans (h.semaphore s hs)
  rwlock l hl := (h'.rwlock l hl).trans (h.rwlock l hl)

theorem Framed.mono (h : Framed w ts o o') (hw : ∀ v, w = some v → w' = some v)
    (ht : ∀ x, ts x → ts' x) : Framed w' ts' o o' where
  regs x hx := h.regs x fun h => hx (ht x h)
  c x hx := h.c x fun h => hx (ht x h)
  mutex m hm := h.mutex m fun h => hm (hw _ h)
  queue q hq := h.queue q fun h => hq (hw _ h)
  semaphore s hs := h.semaphore s fun h => hs (hw _ h)
  rwlock l hl := h.rwlock l fun h => hl (hw _ h)

/-- What is not framed is written in full: the lists, pointers and flags stay. -/
structure Quiet (w : Option Waitable) (ts : TaskId → Prop) (o o' : Objects) : Prop extends
  SameWaits o o', Framed w ts o o'

theorem Framed.refl : Framed w ts o o := by constructor <;> intros <;> rfl

theorem Quiet.refl : Quiet w ts o o := ⟨.refl, .refl⟩

theorem SameWaits.trans (h : SameWaits o o₁) (h' : SameWaits o₁ o') : SameWaits o o' where
  blocked := h'.blocked.trans h.blocked
  nblocked := h'.nblocked.trans h.nblocked
  taskQueue := h'.taskQueue.trans h.taskQueue
  taskMutex := h'.taskMutex.trans h.taskMutex
  taskSemaphore := h'.taskSemaphore.trans h.taskSemaphore
  taskRwlock := h'.taskRwlock.trans h.taskRwlock
  flags := h'.flags.trans h.flags

theorem Quiet.trans (h : Quiet w ts o o₁) (h' : Quiet w ts o₁ o') : Quiet w ts o o' :=
  ⟨h.toSameWaits.trans h'.toSameWaits, h.toFramed.trans h'.toFramed⟩

section Edits

theorem ne_of_not (ht : ts t) (hx : ¬ ts x) : x ≠ t := by
  rintro rfl
  exact hx ht

theorem Quiet.setRegs (ht : ts t) (v : StackedRegs) :
    Quiet w ts o { o with regs := update o.regs t v } where
  toSameWaits := ⟨rfl, rfl, rfl, rfl, rfl, rfl, rfl⟩
  toFramed := { Framed.refl with
    regs := fun _ hx => Function.update_of_ne (ne_of_not ht hx) _ _ }

theorem Quiet.setC (ht : ts t) (v : Nat) : Quiet w ts o { o with c := update o.c t v } where
  toSameWaits := ⟨rfl, rfl, rfl, rfl, rfl, rfl, rfl⟩
  toFramed := { Framed.refl with
    c := fun _ hx => Function.update_of_ne (ne_of_not ht hx) _ _ }

theorem Quiet.setMutex (owner : Option TaskId) (level : Nat) :
    Quiet (some (.mutex m)) ts o (o.setMutex m owner level) where
  toSameWaits := ⟨rfl, rfl, rfl, rfl, rfl, rfl, rfl⟩
  toFramed := { Framed.refl with
    mutex := fun m' h => Function.update_of_ne (by rintro rfl; exact h rfl) _ _ }

theorem Quiet.setTokens (tokens : Nat) :
    Quiet (some (.semaphore s)) ts o (o.setTokens s tokens) where
  toSameWaits := ⟨rfl, rfl, rfl, rfl, rfl, rfl, rfl⟩
  toFramed := { Framed.refl with
    semaphore := fun s' h => Function.update_of_ne (by rintro rfl; exact h rfl) _ _ }

theorem Quiet.setQueue (queue : Queue) :
    Quiet (some (.queue q)) ts o (o.setQueue q queue) where
  toSameWaits := ⟨rfl, rfl, rfl, rfl, rfl, rfl, rfl⟩
  toFramed := { Framed.refl with
    queue := fun q' h => Function.update_of_ne (by rintro rfl; exact h rfl) _ _ }

theorem Quiet.setRwlock (rwlock : Rwlock) :
    Quiet (some (.rwlock l)) ts o (o.setRwlock l rwlock) where
  toSameWaits := ⟨rfl, rfl, rfl, rfl, rfl, rfl, rfl⟩
  toFramed := { Framed.refl with
    rwlock := fun l' h => Function.update_of_ne (by rintro rfl; exact h rfl) _ _ }

theorem Quiet.grantMutex (ht : ts t) :
    Quiet (some (.mutex m)) ts (o.unlink (.mutex m) none t) (o.grantMutex m t) :=
  (Quiet.setMutex (some t) 1).trans (.setRegs ht _)

theorem Quiet.grantSemaphore (ht : ts t) :
    Quiet (some (.semaphore s)) ts (o.unlink (.semaphore s) none t) (o.grantSemaphore s t) :=
  .setRegs ht _

theorem Quiet.sendQueue (ht : ts t) (message : Nat) :
    Quiet (some (.queue q)) ts (o.unlink (.queue q) none t) (o.sendQueue q t message) :=
  .setRegs ht _

theorem Quiet.receiveQueue (ht : ts t) :
    Quiet (some (.queue q)) ts (o.unlink (.queue q) none t) (o.receiveQueue q t) :=
  ((Quiet.setQueue _).trans (.setC ht 0)).trans (.setRegs ht _)

theorem Quiet.grantWrite (ht : ts t) :
    Quiet (some (.rwlock l)) ts (o.unlink (.rwlock l) none t) (o.grantWrite l t) :=
  ((Quiet.setRwlock _).trans (.setC ht desiredNone)).trans (.setRegs ht _)

theorem Quiet.grantRead {previous : Option TaskId} (ht : ts t) :
    Quiet (some (.rwlock l)) ts (o.unlink (.rwlock l) previous t) (o.grantRead l previous t) :=
  ((Quiet.setRwlock _).trans (.setC ht desiredNone)).trans (.setRegs ht _)

theorem Quiet.unlink {v : Waitable} {previous : Option TaskId} (h : Quiet w ts o o') :
    Quiet w ts (o.unlink v previous t) (o'.unlink v previous t) where
  toSameWaits := by
    have hl : o'.unlink v previous t = { o' with
        blocked := (o.unlink v previous t).blocked
        nblocked := (o.unlink v previous t).nblocked } := by
      simp only [Objects.unlink, h.blocked, h.nblocked]
    rw [hl]
    exact ⟨rfl, rfl, h.taskQueue, h.taskMutex, h.taskSemaphore, h.taskRwlock, h.flags⟩
  toFramed := ⟨h.regs, h.c, h.mutex, h.queue, h.semaphore, h.rwlock⟩

theorem Framed.restarted (ht : ts t) (params : Nat) : Framed w ts o (o.restarted t params) where
  regs _ hx := Function.update_of_ne (ne_of_not ht hx) _ _
  c _ hx := Function.update_of_ne (ne_of_not ht hx) _ _
  mutex _ _ := rfl
  queue _ _ := rfl
  semaphore _ _ := rfl
  rwlock _ _ := rfl

end Edits

/-- Of what is not a list, pointer or flag, a dispatch writes only the union of the task. -/
theorem Detaches.framed (hf : Flagged o) (h : Detaches o t o') :
    Framed none (fun x => x = t) o o' ∧ o'.regs = o.regs := by
  obtain ⟨he, hc⟩ := h.fields hf
  refine ⟨⟨fun x _ => ?_, hc, fun m _ => ?_, fun q _ => ?_, fun s _ => ?_, fun l _ => ?_⟩, ?_⟩ <;>
    rw [he]

theorem Blocks.framed {v : Waitable} (h : Blocks o v t o') (hz : o.flags t = 0) :
    Framed w ts o o' := by
  obtain ⟨o₁, hr, -, rfl⟩ := h.fields hz
  rw [hr]
  cases v <;> exact ⟨fun _ _ => rfl, fun _ _ => rfl, fun _ _ => rfl, fun _ _ => rfl,
    fun _ _ => rfl, fun _ _ => rfl⟩

end Osh
