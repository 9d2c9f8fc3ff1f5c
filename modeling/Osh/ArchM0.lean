import Osh.Context

namespace Osh.M0
open Function (update)
open Lib

/-- `r4` to `r11` saved below the process stack pointer, which is left in `r0`. -/
def save (c : Cpu) : Cpu :=
  c.mrs .r0
    |>.subs .r0 .r0 16
    |>.stmia .r0 [.r4, .r5, .r6, .r7]
    |>.movReg .r4 .r8
    |>.movReg .r5 .r9
    |>.movReg .r6 .r10
    |>.movReg .r7 .r11
    |>.subs .r0 .r0 32
    |>.stmia .r0 [.r4, .r5, .r6, .r7]
    |>.subs .r0 .r0 16

/-- `r4` to `r11` loaded from `r0` on. -/
def restore (c : Cpu) : Cpu :=
  c.ldmia .r0 [.r4, .r5, .r6, .r7]
    |>.movReg .r8 .r4
    |>.movReg .r9 .r5
    |>.movReg .r10 .r6
    |>.movReg .r11 .r7
    |>.ldmia .r0 [.r4, .r5, .r6, .r7]
    |>.msr .r0

/-- `pendsv_done`, with the value that `bx` loads. -/
def pendSvDone (c : Cpu) : Cpu × Word :=
  let c := c.mov .r0 0xFFFFFFFD
    |>.cpsie
  (c, c.r .r0)

/-- From the save to the first stack check. -/
def pendSvSave (c : Cpu) : Cpu :=
  save c
    |>.ldrOsg .r3
    |>.ldr .r2 .r3 .osgRunning
    |>.str .r0 .r2 .taskSp
    |>.push [.r2, .r3]

/-- From the first stack check to the second one. -/
def pendSvNext (c : Cpu) : Cpu :=
  c.pop [.r2, .r3]
    |>.ldrOsg .r3
    |>.ldr .r2 .r3 .osgScheduled
    |>.str .r2 .r3 .osgRunning
    |>.push [.r2, .r3]

/-- From the second stack check to the restore. -/
def pendSvFetch (c : Cpu) : Cpu :=
  c.pop [.r2, .r3]
    |>.ldrOsg .r3
    |>.ldr .r2 .r3 .osgScheduled
    |>.ldr .r0 .r2 .taskSp
    |>.movs .r2 0
    |>.str .r2 .r3 .osgScheduled

def pendSvHandler (p : Program) (c : Cpu) : Option (Cpu × Word) :=
  let c := c.cpsid
    |>.ldrOsg .r3
    |>.ldr .r1 .r3 .osgRunning
    |>.ldr .r2 .r3 .osgScheduled
    |>.cmp .r1 .r2
  if c.z then some (pendSvDone c)
  else
    let c := c.movs .r0 0
      |>.cmp .r2 .r0
    if c.z then some (pendSvDone c)
    else do
      let c ← p.stackCheck (pendSvSave c)
      let c ← p.stackCheck (pendSvNext c)
      return pendSvDone (restore (pendSvFetch c))

/-- `svc_done`, with the value that `bx` loads. -/
def svcDone (c : Cpu) : Cpu × Word :=
  let c := c.movs .r0 (~~~ 0xFFFFFFFD)
    |>.mvns .r0 .r0
  (c, c.r .r0)

/-- From `svc_switch` to the restore. -/
def svcFetch (c : Cpu) : Cpu :=
  c.ldrOsg .r0
    |>.str .r2 .r0 .osgRunning
    |>.movs .r1 0
    |>.str .r1 .r0 .osgScheduled
    |>.ldr .r0 .r2 .taskSp

def svcSwitch (c : Cpu) : Cpu × Word := svcDone (restore (svcFetch c))

/-- From the entry to the service function. -/
def svcCall (c : Cpu) : Cpu :=
  c.mrs .r0
    |>.ldrMem .r1 .r0 24
    |>.subs .r1 .r1 2
    |>.movReg .lr .r4
    |>.ldm .r0 [.r0, .r1, .r2, .r3, .r4]
    |>.movReg .r12 .r4
    |>.movReg .r4 .lr

/-- From the return of the service function to the first test. -/
def svcReturn (c : Cpu) : Cpu :=
  c.mrs .r3
    |>.stmia .r3 [.r0, .r1, .r2]
    |>.ldrOsg .r0
    |>.ldr .r1 .r0 .osgRunning
    |>.ldr .r2 .r0 .osgScheduled

/-- From the last test to the stack check. -/
def svcSave (c : Cpu) : Cpu :=
  save c
    |>.str .r0 .r1 .taskSp
    |>.push [.r2, .r3]

def svcHandler (p : Program) (c : Cpu) : Option (Cpu × Word) := do
  let c := svcCall c
  let c ← p.service (c.r .r12) c
  let c := svcReturn c
    |>.cmpImm .r2 0
  if c.z then some (svcDone c)
  else
    let c := c.cmp .r1 .r2
    if c.z then some (svcDone c)
    else
      let c := c.subs .r3 .r3 8
        |>.cmpImm .r1 0
      if c.z then some (svcSwitch c)
      else
        let c ← p.stackCheck (svcSave c)
        return svcSwitch (c.pop [.r2, .r3])

variable {c c' : Cpu} {e : Word}

/-- The registers are in the order of `Arch.order` below the process stack pointer. -/
theorem save_mem : (words (c.psp - 32) 8).map (save c).mem = Arch.m0.order.map c.r := by
  have hmem : (save c).mem =
      write (write c.mem (words (c.psp - 16) 4) ([.r4, .r5, .r6, .r7].map c.r))
        (words (c.psp - 32) 4) ([.r8, .r9, .r10, .r11].map c.r) := by
    simp [save]
  have hwords : words (c.psp - 32) 8 = words (c.psp - 32) 4 ++ words (c.psp - 16) 4 := by
    have ha : c.psp - 32 + BitVec.ofNat 32 (4 * 4) = c.psp - 16 := by bv_omega
    rw [← ha]
    exact words_add (n := 4) (k := 4)
  have hnodup : (words (c.psp - 32) 8).Nodup := nodup_words (by decide)
  rw [hwords] at hnodup ⊢
  rw [hmem, map_write_append hnodup (by simp) (by simp)]
  rfl

theorem restore_regs : Arch.m0.order.map (restore c).r = (words (c.r .r0) 8).map c.mem := by
  simp [restore, Arch.order, words, BitVec.add_assoc]

theorem restore_psp : (restore c).psp = c.r .r0 + 32 := by
  simp [restore, BitVec.add_assoc]

/-- The state that a restore starts in: the scheduled task is the running one, and `r0` holds its
stack pointer. -/
structure Fetched (c c' : Cpu) : Prop where
  running : c'.running = c.scheduled
  sp : ∀ task, c'.sp task = c.sp task
  stackKind : c'.stackKind = c.stackKind
  mem : c'.mem = c.mem
  r0 : c'.r .r0 = c.sp c.scheduled

theorem Fetched.loads {b : Cpu} (h : Fetched c b) (he : e = 0xFFFFFFFD)
    (hr : ∀ n ∈ calleeSaved, c'.r n = (restore b).r n) (hpsp : c'.psp = (restore b).psp)
    (hrun : c'.running = b.running) (hsp : ∀ task, c'.sp task = b.sp task)
    (hk : c'.stackKind = b.stackKind) (hm : c'.mem = b.mem) : Loads .m0 c c' e := by
  refine ⟨hrun.trans h.running, fun task => (hsp task).trans (h.sp task), hk.trans h.stackKind,
    hm.trans h.mem, fun k hold => ?_⟩
  have hkind : k.kind = .basic := hold.supports rfl
  constructor
  · intro n hn
    have hmap : Arch.m0.order.map (restore b).r = Arch.m0.order.map k.r := by
      rw [restore_regs, h.r0, h.mem]
      exact hold.regs
    have hmem : n ∈ Arch.m0.order := (by decide : ∀ n ∈ calleeSaved, n ∈ Arch.m0.order) n hn
    rw [hr n hn]
    exact List.map_inj_left.1 hmap n hmem
  · rw [hpsp, restore_psp, h.r0, ← hold.sp, hkind]
    rfl
  · rw [he, hkind]
    rfl
  · intro hext
    cases hkind.symm.trans hext

theorem saves_of_mem (hosg : c'.osg = c.osg) (hr : c'.running = c.running)
    (hs : c'.scheduled = c.scheduled) (hsp : c'.sp = update c.sp c.running (c.psp - 32))
    (hk : c'.stackKind = c.stackKind) (hm : c'.mem = (save c).mem) : Saves .m0 c c' := by
  have hself : c'.sp c.running = c.psp - 32 := by rw [hsp, Function.update_self]
  refine ⟨hosg, hr, hs, fun task ht => ⟨?_, by rw [hk]⟩, fun kind hsup _ => ?_⟩
  · rw [hsp, Function.update_of_ne ht]
  · obtain rfl : kind = .basic := hsup rfl
    constructor
    · exact hsup
    · exact fun h => (by cases h)
    · rw [hself]
      exact BitVec.sub_add_cancel c.psp 32
    · rw [hself, hm]
      exact save_mem
    · exact fun h => (by cases h)

theorem pendSvDone_loads {b : Cpu} (h : Fetched c b) :
    Loads .m0 c (pendSvDone (restore b)).1 (pendSvDone (restore b)).2 := by
  apply h.loads
  · simp [pendSvDone]
  · simp [calleeSaved, pendSvDone]
  · simp [pendSvDone]
  · simp [pendSvDone, restore, Cpu.running]
  · simp [pendSvDone, restore, Cpu.sp]
  · simp [pendSvDone, restore]
  · simp [pendSvDone, restore]

theorem svcDone_loads {b : Cpu} (h : Fetched c b) :
    Loads .m0 c (svcDone (restore b)).1 (svcDone (restore b)).2 := by
  apply h.loads
  · simp [svcDone]
  · simp [calleeSaved, svcDone]
  · simp [svcDone]
  · simp [svcDone, restore, Cpu.running]
  · simp [svcDone, restore, Cpu.sp]
  · simp [svcDone, restore]
  · simp [svcDone, restore]

section PendSv

theorem pendSvSave_saves : Saves .m0 c (pendSvSave c) := by
  apply saves_of_mem
  · simp [pendSvSave, save]
  · simp [pendSvSave, save, Cpu.running]
  · simp [pendSvSave, save, Cpu.scheduled]
  · funext task
    simp [pendSvSave, save, Cpu.sp, Cpu.running, Function.update_apply]
  · simp [pendSvSave, save]
  · simp [pendSvSave]

theorem pendSvNext_fetched {c₁ : Cpu} (hc : (pendSvNext c).Calls c₁)
    (hs : c₁.scheduled = (pendSvNext c).scheduled) (hm : c₁.mem = (pendSvNext c).mem) :
    Fetched c (pendSvFetch c₁) := by
  have hnext : (pendSvNext c).running = c.scheduled ∧ (pendSvNext c).scheduled = c.scheduled ∧
      (∀ task, (pendSvNext c).sp task = c.sp task) ∧
        (pendSvNext c).stackKind = c.stackKind ∧ (pendSvNext c).mem = c.mem := by
    simp [pendSvNext, Cpu.running, Cpu.scheduled, Cpu.sp]
  have hfetch : (pendSvFetch c₁).running = c₁.running ∧
      (∀ task, (pendSvFetch c₁).sp task = c₁.sp task) ∧
        (pendSvFetch c₁).stackKind = c₁.stackKind ∧ (pendSvFetch c₁).mem = c₁.mem ∧
          (pendSvFetch c₁).r .r0 = c₁.sp c₁.scheduled := by
    simp [pendSvFetch, Cpu.running, Cpu.scheduled, Cpu.sp]
  obtain ⟨hrun, hsched, hsp, hk, hmem⟩ := hnext
  obtain ⟨hrun', hsp', hk', hmem', hr0⟩ := hfetch
  have hsp₁ (task : Word) : c₁.sp task = c.sp task := (hc.sp task).trans (hsp task)
  refine ⟨hrun'.trans (hc.running.trans hrun), fun task => (hsp' task).trans (hsp₁ task),
    hk'.trans (hc.stackKind.trans hk), hmem'.trans (hm.trans hmem), ?_⟩
  rw [hr0, hs, hsched, hsp₁]

theorem pendSvDone_stays {b : Cpu} (h : Keeps .m0 c b) :
    HandlerEffect .m0 c (pendSvDone b).1 (pendSvDone b).2 := by
  refine .stays ?_ (fun task => ?_) ?_
  · rw [← h.running]
    simp [pendSvDone, Cpu.running]
  · rw [← h.sp]
    simp [pendSvDone, Cpu.sp]
  · rw [← h.stackKind]
    simp [pendSvDone]

theorem pendSvHandler_effect {p : Program} (h : pendSvHandler p c = some (c', e)) :
    HandlerEffect .m0 c c' e := by
  simp only [pendSvHandler] at h
  split_ifs at h
  · cases h
    apply pendSvDone_stays
    constructor <;> simp [calleeSaved, Cpu.running, Cpu.sp]
  · cases h
    apply pendSvDone_stays
    constructor <;> simp [calleeSaved, Cpu.running, Cpu.sp]
  · simp only [Option.bind_eq_bind, Option.bind_eq_some_iff, Option.pure_def,
      Option.some.injEq] at h
    obtain ⟨c₁, h₁, c₂, h₂, h⟩ := h
    cases h
    obtain ⟨hc₁, hs₁, hm₁⟩ := p.stackCheck_calls _ _ h₁
    obtain ⟨hc₂, hs₂, hm₂⟩ := p.stackCheck_calls _ _ h₂
    have hloads := pendSvDone_loads (pendSvNext_fetched hc₂ hs₂ hm₂)
    apply HandlerEffect.keeps (pendSvSave_saves.effect (.trans hc₁ hs₁ hm₁ hloads))
    constructor <;> simp [calleeSaved, Cpu.running, Cpu.sp]

end PendSv

section Svc

theorem svcCall_keeps : Keeps .m0 c (svcCall c) := by
  constructor <;> simp [svcCall, calleeSaved, words, Cpu.running, Cpu.sp]

/-- Up to the first test the handler leaves the results of the service function in the frame and
what it works with in `r0` to `r2`. -/
theorem svcReturn_keeps : Keeps .m0 c (svcReturn c) := by
  constructor <;> simp [svcReturn, calleeSaved, Cpu.running, Cpu.sp]

theorem svcReturn_regs : (svcReturn c).r .r1 = (svcReturn c).running ∧
    (svcReturn c).r .r2 = (svcReturn c).scheduled := by
  simp [svcReturn, Cpu.running, Cpu.scheduled]

theorem svcSave_saves (h1 : c.r .r1 = c.running) : Saves .m0 c (svcSave c) := by
  apply saves_of_mem
  · simp [svcSave, save]
  · simp [svcSave, save, Cpu.running]
  · simp [svcSave, save, Cpu.scheduled]
  · funext task
    rw [← h1]
    simp [svcSave, save, Cpu.sp, Function.update_apply]
  · simp [svcSave, save]
  · simp [svcSave]

theorem svcSwitch_loads (h2 : c.r .r2 = c.scheduled) :
    Loads .m0 c (svcSwitch c).1 (svcSwitch c).2 := by
  apply svcDone_loads
  constructor
  · simpa [svcFetch, Cpu.running] using h2
  · simp [svcFetch, Cpu.sp]
  · simp [svcFetch]
  · simp [svcFetch]
  · rw [← h2]
    simp [svcFetch, Cpu.sp]

theorem svcDone_stays : HandlerEffect .m0 c (svcDone c).1 (svcDone c).2 := by
  apply HandlerEffect.stays
  · simp [svcDone, Cpu.running]
  · simp [svcDone, Cpu.sp]
  · simp [svcDone]

theorem svcSave_effect {c₁ : Cpu} (h1 : c.r .r1 = c.running) (h2 : c.r .r2 = c.scheduled)
    (hc : (svcSave c).Calls c₁) (hs : c₁.scheduled = (svcSave c).scheduled)
    (hm : c₁.mem = (svcSave c).mem) : HandlerEffect .m0 c (svcSwitch (c₁.pop [.r2, .r3])).1
      (svcSwitch (c₁.pop [.r2, .r3])).2 := by
  have hmain : (svcSave c).main = c.r .r2 :: c.r .r3 :: c.main ∧
      (svcSave c).scheduled = c.scheduled := by
    simp [svcSave, save, Cpu.scheduled]
  have hr2 : (c₁.pop [.r2, .r3]).r .r2 = (c₁.pop [.r2, .r3]).scheduled := by
    have hsched : (c₁.pop [.r2, .r3]).scheduled = c₁.scheduled := rfl
    rw [hsched, hs, hmain.2, ← h2]
    simp [hc.main, hmain.1]
  have hloads : Loads .m0 c₁ (svcSwitch (c₁.pop [.r2, .r3])).1
      (svcSwitch (c₁.pop [.r2, .r3])).2 := by
    obtain ⟨hrun, hsp, hk, hmem, hres⟩ := svcSwitch_loads hr2
    exact ⟨hrun, hsp, hk, hmem, fun k hk => hres k (hk.spares (.of_mem rfl rfl rfl))⟩
  exact (svcSave_saves h1).effect (.trans hc hs hm hloads)

theorem svcHandler_effect {p : Program} (h : svcHandler p c = some (c', e)) :
    HandlerEffect .m0 c c' e := by
  simp only [svcHandler, Option.bind_eq_bind, Option.bind_eq_some_iff] at h
  obtain ⟨c₁, h₁, h⟩ := h
  have hcall := (p.service_calls _ _ _ h₁).keeps (a := .m0) fun ha => by cases ha
  apply HandlerEffect.keeps _ ((svcCall_keeps.trans hcall).trans svcReturn_keeps)
  obtain ⟨h1, h2⟩ := svcReturn_regs (c := c₁)
  revert h h1 h2
  generalize svcReturn c₁ = c₂
  intro h h1 h2
  split_ifs at h with hz hz' hz''
  · cases h
    apply HandlerEffect.keeps svcDone_stays
    constructor <;> simp [calleeSaved, Cpu.running, Cpu.sp]
  · cases h
    apply HandlerEffect.keeps svcDone_stays
    constructor <;> simp [calleeSaved, Cpu.running, Cpu.sp]
  · cases h
    have hzero : c₂.running = 0 := by simpa [← h1] using hz''
    have hloads := svcSwitch_loads (c := ((((c₂.cmpImm .r2 0).cmp .r1 .r2).subs .r3 .r3 8).cmpImm
      .r1 0)) (by simpa [Cpu.scheduled] using h2)
    apply HandlerEffect.keeps (hloads.effect hzero)
    constructor <;> simp [calleeSaved, Cpu.running, Cpu.sp]
  · simp only [Option.bind_eq_some_iff, Option.pure_def, Option.some.injEq] at h
    obtain ⟨c₃, h₃, h⟩ := h
    cases h
    obtain ⟨hc₃, hs₃, hm₃⟩ := p.stackCheck_calls _ _ h₃
    apply HandlerEffect.keeps (svcSave_effect (by simpa [Cpu.running] using h1)
      (by simpa [Cpu.scheduled] using h2) hc₃ hs₃ hm₃)
    constructor <;> simp [calleeSaved, Cpu.running, Cpu.sp]

end Svc

end Osh.M0
