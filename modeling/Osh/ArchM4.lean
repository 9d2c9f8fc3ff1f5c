import Osh.Context

namespace Osh.M4
open Function (update)
open Lib

/-- The context of the task in `r1` saved below `r12`, up to the stack check. -/
def save (c : Cpu) : Cpu :=
  c.tst .lr 0x10
    |>.ifEq (·.vstmdb .r12)
    |>.ifEq (·.mov .r0 0x01)
    |>.ifNe (·.mov .r0 0x00)
    |>.strb .r0 .r1
    |>.stmdb .r12 [.r4, .r5, .r6, .r7, .r8, .r9, .r10, .r11]
    |>.str .r12 .r1 .taskSp
    |>.push [.r2, .r3]

/-- The context of the task in `n` loaded. -/
def restore (n : Reg) (c : Cpu) : Cpu :=
  c.ldr .r12 n .taskSp
    |>.ldmia .r12 [.r4, .r5, .r6, .r7, .r8, .r9, .r10, .r11]
    |>.ldrb .r0 n
    |>.cmpImm .r0 0
    |>.ifEq (·.mvn .lr (~~~ 0xFFFFFFFD))
    |>.ifNe (·.mvn .lr (~~~ 0xFFFFFFED))
    |>.ifNe (·.vldmia .r12)
    |>.msr .r12

/-- From the tests to the stack check. -/
def pendSvSave (c : Cpu) : Cpu :=
  save (c.cpsid |>.mrs .r12)

/-- From the stack check to the restore. -/
def pendSvFetch (c : Cpu) : Cpu :=
  c.pop [.r2, .r3]
    |>.ldrOsg .r3
    |>.ldr .r2 .r3 .osgScheduled
    |>.str .r2 .r3 .osgRunning
    |>.movs .r2 0
    |>.str .r2 .r3 .osgScheduled
    |>.ldr .r3 .r3 .osgRunning

def pendSvHandler (p : Program) (c : Cpu) : Option (Cpu × Word) :=
  let c := c.ldrOsg .r3
    |>.ldr .r1 .r3 .osgRunning
    |>.ldr .r2 .r3 .osgScheduled
    |>.cmp .r1 .r2
  if c.z then some (c, c.r .lr)
  else
    let c := c.mov .r0 0
      |>.cmp .r2 .r0
    if c.z then some (c, c.r .lr)
    else do
      let c ← p.stackCheck (pendSvSave c)
      let c := (restore .r3 (pendSvFetch c)).cpsie
      return (c, c.r .lr)

/-- From the entry to the service function. -/
def svcCall (c : Cpu) : Cpu :=
  c.mrs .r0
    |>.ldrMem .r1 .r0 24
    |>.ldm .r0 [.r0, .r1, .r2, .r3, .r12]
    |>.push [.r4, .lr]

/-- From the return of the service function to the first test. -/
def svcReturn (c : Cpu) : Cpu :=
  c.pop [.r4, .lr]
    |>.mrs .r12
    |>.stm .r12 [.r0, .r1, .r2]
    |>.ldrOsg .r3
    |>.ldr .r1 .r3 .osgRunning
    |>.ldr .r2 .r3 .osgScheduled

/-- `FPCCR` without its bit `LSPACT`. -/
def clearLazy (c : Cpu) : Cpu :=
  c.mov .r1 0xe000ef34
    |>.ldrFpccr .r0
    |>.bic .r0 1
    |>.strFpccr .r0

/-- From `svc_ctx_restore` to the restore. The first store is `str r2, [r3]`. -/
def svcFetch (c : Cpu) : Cpu :=
  c.str .r2 .r3 .osgRunning
    |>.movs .r0 0
    |>.str .r0 .r3 .osgScheduled

def svcRestore (c : Cpu) : Cpu × Word :=
  let c := restore .r2 (svcFetch c)
  (c, c.r .lr)

def svcHandler (p : Program) (c : Cpu) : Option (Cpu × Word) := do
  let c := svcCall c
  let c ← p.service (c.r .r12) c
  let c := (svcReturn c).cmpImm .r2 0
  if c.z then some (c, c.r .lr)
  else
    let c := c.cmp .r1 .r2
    if c.z then some (c, c.r .lr)
    else if c.r .r1 = 0 then
      let c := c.tst .lr 0x10
      if c.z then some (svcRestore (clearLazy c))
      else some (svcRestore c)
    else
      let c ← p.stackCheck (save c)
      return svcRestore (c.pop [.r2, .r3])

variable {c c' : Cpu} {e : Word}

theorem save_basic (h : c.r .lr = FrameKind.basic.excReturn) :
    (save c).mem = write c.mem (words (c.r .r12 - 32) 8) (calleeSaved.map c.r) ∧
      (save c).sp (c.r .r1) = c.r .r12 - 32 ∧ (save c).stackKind (c.r .r1) = 0 := by
  rw [FrameKind.excReturn] at h
  simp [save, Cpu.ifEq, Cpu.ifNe, h, Cpu.sp, calleeSaved]

theorem save_extended (h : c.r .lr = FrameKind.extended.excReturn) :
    (save c).mem = write (write c.mem (words (c.r .r12 - 64) 16) (Cpu.highFp.map c.s))
        (words (c.r .r12 - 64 - 32) 8) (calleeSaved.map c.r) ∧
      (save c).sp (c.r .r1) = c.r .r12 - 64 - 32 ∧ (save c).stackKind (c.r .r1) = 1 := by
  rw [FrameKind.excReturn] at h
  simp [save, Cpu.ifEq, Cpu.ifNe, h, Cpu.sp, calleeSaved]

theorem save_osg : (save c).osg = c.osg := by
  by_cases hz : c.r .lr &&& 16#32 = 0#32 <;> simp [save, Cpu.ifEq, Cpu.ifNe, hz]

theorem save_running : (save c).running = c.running := by
  by_cases hz : c.r .lr &&& 16#32 = 0#32 <;> simp [save, Cpu.ifEq, Cpu.ifNe, hz, Cpu.running]

theorem save_scheduled : (save c).scheduled = c.scheduled := by
  by_cases hz : c.r .lr &&& 16#32 = 0#32 <;> simp [save, Cpu.ifEq, Cpu.ifNe, hz, Cpu.scheduled]

theorem save_main : (save c).main = c.r .r2 :: c.r .r3 :: c.main := by
  by_cases hz : c.r .lr &&& 16#32 = 0#32 <;> simp [save, Cpu.ifEq, Cpu.ifNe, hz]

theorem save_others {task : Word} (h : task ≠ c.r .r1) :
    (save c).sp task = c.sp task ∧ (save c).stackKind task = c.stackKind task := by
  by_cases hz : c.r .lr &&& 16#32 = 0#32 <;> simp [save, Cpu.ifEq, Cpu.ifNe, hz, Cpu.sp, h]

/-- The registers are in ascending order below the process stack pointer, and below an extended
frame the floating-point registers come first. -/
theorem save_saves (h1 : c.r .r1 = c.running) (h12 : c.r .r12 = c.psp) : Saves .m4 c (save c) := by
  refine ⟨save_osg, save_running, save_scheduled, fun task ht => ?_, fun kind hsup hlr => ?_⟩
  · apply save_others
    rw [h1]
    exact ht
  have hlr := hlr rfl
  cases kind with
  | basic =>
    obtain ⟨hm, hsp, hk⟩ := save_basic hlr
    rw [h1, h12] at hsp
    rw [h12] at hm
    rw [h1] at hk
    constructor
    · exact hsup
    · exact fun _ => hk
    · rw [hsp]
      exact BitVec.sub_add_cancel c.psp 32
    · rw [hsp, hm]
      exact map_write (nodup_words (by decide)) (by simp [calleeSaved])
    · exact fun h => (by cases h)
  | extended =>
    obtain ⟨hm, hsp, hk⟩ := save_extended hlr
    rw [h1, h12] at hsp
    rw [h12] at hm
    rw [h1] at hk
    have hwords : words (c.psp - 64 - 32) (8 + 16) =
        words (c.psp - 64 - 32) 8 ++ words (c.psp - 64) 16 := by
      have ha : c.psp - 64 - 32 + BitVec.ofNat 32 (4 * 8) = c.psp - 64 := by bv_omega
      rw [words_add, ha]
    have hnodup : (words (c.psp - 64 - 32) (8 + 16)).Nodup := nodup_words (by decide)
    rw [hwords] at hnodup
    obtain ⟨hlow, hhigh, hdisj⟩ := List.nodup_append'.1 hnodup
    constructor
    · exact hsup
    · exact fun _ => hk
    · rw [hsp]
      change c.psp - 64 - 32 + 96 = c.psp
      bv_omega
    · rw [hsp, hm]
      exact map_write hlow (by simp [calleeSaved])
    · intro _
      have ha : c.psp - 64 - 32 + 32 = c.psp - 64 := by bv_omega
      rw [hsp, ha, hm, map_write_of_disjoint (List.disjoint_comm.1 hdisj)]
      exact map_write hhigh (by simp [Cpu.highFp])

section Restore
variable {n : Reg} {b : Cpu}

theorem restore_regs (hn : n = .r2 ∨ n = .r3) :
    calleeSaved.map (restore n c).r = (words (c.sp (c.r n)) 8).map c.mem := by
  obtain rfl | rfl := hn
  · by_cases hz : (c.stackKind (c.r .r2)).setWidth 32 = 0#32 <;>
      simp [restore, Cpu.ifEq, Cpu.ifNe, hz, calleeSaved, words, Cpu.sp]
  · by_cases hz : (c.stackKind (c.r .r3)).setWidth 32 = 0#32 <;>
      simp [restore, Cpu.ifEq, Cpu.ifNe, hz, calleeSaved, words, Cpu.sp]

theorem restore_basic (hn : n = .r2 ∨ n = .r3) (h : c.stackKind (c.r n) = 0) :
    (restore n c).psp = c.sp (c.r n) + 32 ∧ (restore n c).r .lr = FrameKind.basic.excReturn := by
  obtain rfl | rfl := hn <;>
    simp [restore, Cpu.ifEq, Cpu.ifNe, h, Cpu.sp, FrameKind.excReturn, words]

theorem restore_extended (hn : n = .r2 ∨ n = .r3) (h : c.stackKind (c.r n) = 1) :
    (restore n c).psp = c.sp (c.r n) + 32 + 64 ∧
      (restore n c).r .lr = FrameKind.extended.excReturn ∧
        Cpu.highFp.map (restore n c).s = (words (c.sp (c.r n) + 32) 16).map c.mem := by
  obtain rfl | rfl := hn <;>
    simp [restore, Cpu.ifEq, Cpu.ifNe, h, Cpu.sp, FrameKind.excReturn, Cpu.highFp, words]

theorem restore_keeps : (restore n c).running = c.running ∧
    (∀ task, (restore n c).sp task = c.sp task) ∧ (restore n c).stackKind = c.stackKind ∧
      (restore n c).mem = c.mem := by
  simp only [restore, Cpu.ifEq, Cpu.ifNe]
  split_ifs <;> simp [Cpu.running, Cpu.sp]

/-- The byte `stack_kind` says which of the two frames there is above the saved registers. -/
theorem restore_resumes (hn : n = .r2 ∨ n = .r3) {k : Context} (hk : HoldsContext .m4 c (c.r n) k) :
    Resumes k (restore n c) ((restore n c).r .lr) := by
  have hregs : ∀ m ∈ calleeSaved, (restore n c).r m = k.r m := by
    intro m hm
    have hmap := (restore_regs hn).trans hk.regs
    exact List.map_inj_left.1 hmap m hm
  have hkind := hk.stackKind rfl
  have hsp := hk.sp
  cases hb : k.kind with
  | basic =>
    rw [hb] at hkind hsp
    obtain ⟨hpsp, hlr⟩ := restore_basic hn hkind
    constructor
    · exact hregs
    · exact hpsp.trans hsp
    · exact hlr.trans (congrArg _ hb.symm)
    · intro he
      cases hb.symm.trans he
  | extended =>
    rw [hb] at hkind hsp
    obtain ⟨hpsp, hlr, hs⟩ := restore_extended hn hkind
    constructor
    · exact hregs
    · rw [hpsp, ← hsp, BitVec.add_assoc]
      rfl
    · exact hlr.trans (congrArg _ hb.symm)
    · intro _ i hi
      exact List.map_inj_left.1 (hs.trans (hk.fp hb)) i hi

/-- The state that a restore starts in: the scheduled task is the running one, and `n` holds it. -/
structure Fetched (n : Reg) (c b : Cpu) : Prop where
  r : b.r n = c.scheduled
  running : b.running = c.scheduled
  sp : ∀ task, b.sp task = c.sp task
  stackKind : b.stackKind = c.stackKind
  mem : b.mem = c.mem

theorem Fetched.loads (hn : n = .r2 ∨ n = .r3) (h : Fetched n c b) :
    Loads .m4 c (restore n b) ((restore n b).r .lr) := by
  obtain ⟨hrun, hsp, hkind, hmem⟩ := restore_keeps (n := n) (c := b)
  refine ⟨hrun.trans h.running, fun task => (hsp task).trans (h.sp task), hkind.trans h.stackKind,
    hmem.trans h.mem, fun k hk => ?_⟩
  apply restore_resumes hn
  rw [h.r]
  exact hk.spares (.of_mem (h.sp _) (congrFun h.stackKind _) h.mem)

end Restore

section PendSv

theorem pendSvFetch_fetched : Fetched .r3 c (pendSvFetch c) := by
  constructor <;> simp [pendSvFetch, Cpu.running, Cpu.scheduled, Cpu.sp]

theorem pendSvFetch_loads : Loads .m4 c (restore .r3 (pendSvFetch c)).cpsie
    ((restore .r3 (pendSvFetch c)).cpsie.r .lr) := by
  obtain ⟨hrun, hsp, hk, hm, hres⟩ := pendSvFetch_fetched.loads (.inr rfl) (c := c)
  exact ⟨hrun, hsp, hk, hm, fun k hk => ⟨(hres k hk).r, (hres k hk).psp, (hres k hk).excReturn,
    (hres k hk).s⟩⟩

theorem pendSvHandler_effect {p : Program} (h : pendSvHandler p c = some (c', e)) :
    HandlerEffect .m4 c c' e := by
  simp only [pendSvHandler] at h
  split_ifs at h
  · cases h
    apply HandlerEffect.stays <;> simp [Cpu.running, Cpu.sp]
  · cases h
    apply HandlerEffect.stays <;> simp [Cpu.running, Cpu.sp]
  · simp only [Option.bind_eq_bind, Option.bind_eq_some_iff, Option.pure_def,
      Option.some.injEq] at h
    obtain ⟨c₁, h₁, h⟩ := h
    cases h
    obtain ⟨hc, hs, hm⟩ := p.stackCheck_calls _ _ h₁
    apply HandlerEffect.keeps ((save_saves _ _).effect (.trans hc hs hm pendSvFetch_loads))
    · constructor <;> simp [calleeSaved, Cpu.running, Cpu.sp]
    · simp [Cpu.running]
    · simp

end PendSv

section Svc

/-- The value in `lr` on entry is on the main stack while the service function runs. -/
theorem svcReturn_keeps {c₁ : Cpu} (h : (svcCall c).Calls c₁) : Keeps .m4 c (svcReturn c₁) := by
  have hcall : Keeps .m4 c (svcCall c) := by
    constructor <;> simp [svcCall, calleeSaved, words, Cpu.running, Cpu.sp]
  have hmain : c₁.main = c.r .r4 :: c.r .lr :: c.main := by
    rw [h.main]
    simp [svcCall, words]
  have hr : ∀ n ∈ calleeSaved, c₁.r n = c.r n := fun n hn => (h.r n hn).trans (hcall.r n hn)
  refine ⟨?_, fun _ => ?_, fun i hi => (h.s i hi).trans (hcall.s i hi), h.psp.trans hcall.psp, ?_,
    fun task => (h.sp task).trans (hcall.sp task), h.stackKind.trans hcall.stackKind⟩
  · have hrest := (List.forall_mem_cons.1 hr).2
    simpa [svcReturn, hmain, calleeSaved] using hrest
  · simp [svcReturn, hmain]
  · exact h.running.trans hcall.running

theorem svcReturn_regs : (svcReturn c).r .r1 = (svcReturn c).running ∧
    (svcReturn c).r .r2 = (svcReturn c).scheduled ∧ (svcReturn c).r .r3 = (svcReturn c).osg ∧
      (svcReturn c).r .r12 = (svcReturn c).psp := by
  simp [svcReturn, Cpu.running, Cpu.scheduled]

theorem svcRestore_loads (h2 : c.r .r2 = c.scheduled) (h3 : c.r .r3 = c.osg) :
    Loads .m4 c (svcRestore c).1 (svcRestore c).2 := by
  apply Fetched.loads (.inl rfl)
  constructor
  · simpa [svcFetch] using h2
  · simpa [svcFetch, Cpu.running, h3] using h2
  · simp [svcFetch, Cpu.sp]
  · simp [svcFetch]
  · simp [svcFetch]

theorem svcSave_effect {c₁ : Cpu} (h1 : c.r .r1 = c.running) (h2 : c.r .r2 = c.scheduled)
    (h3 : c.r .r3 = c.osg) (h12 : c.r .r12 = c.psp) (hc : (save c).Calls c₁)
    (hs : c₁.scheduled = (save c).scheduled) (hm : c₁.mem = (save c).mem) :
    HandlerEffect .m4 c (svcRestore (c₁.pop [.r2, .r3])).1 (svcRestore (c₁.pop [.r2, .r3])).2 := by
  have hmain : c₁.main = c.r .r2 :: c.r .r3 :: c.main := hc.main.trans save_main
  have hr2 : (c₁.pop [.r2, .r3]).r .r2 = (c₁.pop [.r2, .r3]).scheduled := by
    have hsched : (c₁.pop [.r2, .r3]).scheduled = c₁.scheduled := rfl
    rw [hsched, hs, save_scheduled, ← h2]
    simp [hmain]
  have hr3 : (c₁.pop [.r2, .r3]).r .r3 = (c₁.pop [.r2, .r3]).osg := by
    have hosg : (c₁.pop [.r2, .r3]).osg = c₁.osg := rfl
    rw [hosg, hc.osg, save_osg, ← h3]
    simp [hmain]
  have hloads : Loads .m4 c₁ (svcRestore (c₁.pop [.r2, .r3])).1
      (svcRestore (c₁.pop [.r2, .r3])).2 := by
    obtain ⟨hrun, hsp, hk, hmem, hres⟩ := svcRestore_loads hr2 hr3
    exact ⟨hrun, hsp, hk, hmem, fun k hk => hres k (hk.spares (.of_mem rfl rfl rfl))⟩
  exact (save_saves h1 h12).effect (.trans hc hs hm hloads)

theorem svcHandler_effect {p : Program} (h : svcHandler p c = some (c', e)) :
    HandlerEffect .m4 c c' e := by
  simp only [svcHandler, Option.bind_eq_bind, Option.bind_eq_some_iff] at h
  obtain ⟨c₁, h₁, h⟩ := h
  apply HandlerEffect.keeps _ (svcReturn_keeps (p.service_calls _ _ _ h₁))
  obtain ⟨h1, h2, h3, h12⟩ := svcReturn_regs (c := c₁)
  revert h h1 h2 h3 h12
  generalize svcReturn c₁ = c₂
  intro h h1 h2 h3 h12
  split_ifs at h with hz hz' hz'' hz₃
  · cases h
    apply HandlerEffect.stays <;> simp [Cpu.running, Cpu.sp]
  · cases h
    apply HandlerEffect.stays <;> simp [Cpu.running, Cpu.sp]
  · cases h
    have hzero : c₂.running = 0 := h1.symm.trans hz''
    have hloads := svcRestore_loads (c := clearLazy (((c₂.cmpImm .r2 0).cmp .r1 .r2).tst .lr 0x10))
      (by simpa [clearLazy, Cpu.scheduled] using h2) (by simpa [clearLazy] using h3)
    apply (hloads.effect hzero).keeps
    constructor <;> simp [clearLazy, calleeSaved, Cpu.running, Cpu.sp]
  · cases h
    have hzero : c₂.running = 0 := h1.symm.trans hz''
    have hloads := svcRestore_loads (c := ((c₂.cmpImm .r2 0).cmp .r1 .r2).tst .lr 0x10)
      (by simpa [Cpu.scheduled] using h2) (by simpa using h3)
    apply (hloads.effect hzero).keeps
    constructor <;> simp [calleeSaved, Cpu.running, Cpu.sp]
  · simp only [Option.bind_eq_some_iff, Option.pure_def, Option.some.injEq] at h
    obtain ⟨c₃, h₃, h⟩ := h
    cases h
    obtain ⟨hc₃, hs₃, hm₃⟩ := p.stackCheck_calls _ _ h₃
    apply HandlerEffect.keeps (svcSave_effect (by simpa [Cpu.running] using h1)
      (by simpa [Cpu.scheduled] using h2) (by simpa using h3) (by simpa using h12) hc₃ hs₃ hm₃)
    constructor <;> simp [calleeSaved, Cpu.running, Cpu.sp]

end Svc

end Osh.M4
