import Osh.SwitchRuns

namespace Osh
open Function (update)
open Lib

/-- A handler that sees these fields of `osg` switches tasks. -/
def Cpu.Switches (c : Cpu) : Prop := c.scheduled ≠ 0 ∧ c.scheduled ≠ c.running

instance {c : Cpu} : Decidable c.Switches :=
  inferInstanceAs (Decidable (c.scheduled ≠ 0 ∧ c.scheduled ≠ c.running))

/-- The words below the process stack pointer where the running task is saved. -/
def Cpu.saveArea (a : Arch) (c : Cpu) : List Word :=
  if a = .m4 ∧ c.r .lr &&& 0x10 = 0 then words (c.psp - 96) 24 else words (c.psp - 32) 8

/-- The byte `stack_kind` of a task is one that the handlers write. -/
def Cpu.KindKnown (a : Arch) (c : Cpu) (task : Word) : Prop :=
  a = .m4 → c.stackKind task = 0 ∨ c.stackKind task = 1

/-- What a handler does from its tests on. -/
structure Exchanges (a : Arch) (c c' : Cpu) : Prop where
  osg : c'.osg = c.osg
  running : c'.running = if c.Switches then c.scheduled else c.running
  scheduled : c'.scheduled = if c.Switches then 0 else c.scheduled
  psp : ¬ c.Switches → c'.psp = c.psp
  sp : ∀ task, (c.Switches → task ≠ c.running) →
    c'.sp task = c.sp task ∧ c'.stackKind task = c.stackKind task
  mem : ∀ x, (c.Switches → x ∉ c.saveArea a) → c'.mem x = c.mem x
  resumed : c.Switches → c.KindKnown a c.scheduled → c'.psp = osiTaskReturnRegs a c c.scheduled

variable {a : Arch} {p : Program} {c c' c₁ : Cpu} {e : Word}

theorem Exchanges.stays (hn : ¬ c.Switches) (hosg : c'.osg = c.osg) (hr : c'.running = c.running)
    (hs : c'.scheduled = c.scheduled) (hpsp : c'.psp = c.psp) (hsp : ∀ task, c'.sp task = c.sp task)
    (hk : c'.stackKind = c.stackKind) (hm : c'.mem = c.mem) : Exchanges a c c' where
  osg := hosg
  running := by rw [hr, if_neg hn]
  scheduled := by rw [hs, if_neg hn]
  psp _ := hpsp
  sp task _ := ⟨hsp task, congrFun hk task⟩
  mem x _ := congrFun hm x
  resumed hw := absurd hw hn

theorem Exchanges.switches (hw : c.Switches) (hosg : c'.osg = c.osg)
    (hr : c'.running = c.scheduled) (hs : c'.scheduled = 0)
    (hsp : ∀ task ≠ c.running, c'.sp task = c.sp task ∧ c'.stackKind task = c.stackKind task)
    (hm : ∀ x ∉ c.saveArea a, c'.mem x = c.mem x)
    (hpsp : c.KindKnown a c.scheduled → c'.psp = osiTaskReturnRegs a c c.scheduled) :
    Exchanges a c c' where
  osg := hosg
  running := by rw [hr, if_pos hw]
  scheduled := by rw [hs, if_pos hw]
  psp h := absurd hw h
  sp task h := hsp task (h hw)
  mem x h := hm x (h hw)
  resumed _ := hpsp

theorem Exchanges.of_same (h : Exchanges a c₁ c') (hosg : c₁.osg = c.osg)
    (hf : c₁.field = c.field) (hpsp : c₁.psp = c.psp) (hk : c₁.stackKind = c.stackKind)
    (hm : c₁.mem = c.mem) (hlr : a = .m4 → c₁.r .lr = c.r .lr) : Exchanges a c c' := by
  have hr : c₁.running = c.running := by simp [Cpu.running, hosg, hf]
  have hs : c₁.scheduled = c.scheduled := by simp [Cpu.scheduled, hosg, hf]
  have hsp (task : Word) : c₁.sp task = c.sp task := by simp [Cpu.sp, hf]
  have hsw : c₁.Switches ↔ c.Switches := by simp [Cpu.Switches, hr, hs]
  have harea : c₁.saveArea a = c.saveArea a := by
    cases a with
    | m0 => simp [Cpu.saveArea, hpsp]
    | m4 => simp [Cpu.saveArea, hpsp, hlr rfl]
  constructor
  · exact h.osg.trans hosg
  · simpa only [hsw, hr, hs] using h.running
  · simpa only [hsw, hs] using h.scheduled
  · intro hn
    exact (h.psp fun hw => hn (hsw.1 hw)).trans hpsp
  · intro task ht
    rw [← hsp, ← hk]
    apply h.sp task
    rw [hsw, hr]
    exact ht
  · intro x hx
    rw [← hm]
    apply h.mem x
    rw [hsw, harea]
    exact hx
  · intro hw hkind
    have hregs : osiTaskReturnRegs a c₁ c₁.scheduled = osiTaskReturnRegs a c c.scheduled := by
      cases a <;> simp only [osiTaskReturnRegs, hs, hsp, hk]
    rw [← hregs]
    apply h.resumed (hsw.2 hw)
    rw [hs, Cpu.KindKnown, hk]
    exact hkind

structure Entered (c c₀ : Cpu) : Prop where
  args : [.r0, .r1, .r2, .r3].map c₀.r = (words c.psp 4).map c.mem
  function : c₀.r .r12 = c.mem (c.psp + 16)
  psp : c₀.psp = c.psp
  osg : c₀.osg = c.osg
  field : c₀.field = c.field
  stackKind : c₀.stackKind = c.stackKind
  mem : c₀.mem = c.mem

/-- What a service function returned is stored in the frame of its caller. -/
structure Answers (a : Arch) (c c₁ c₂ : Cpu) : Prop where
  lr : a = .m4 → c₂.r .lr = c.r .lr
  psp : c₂.psp = c₁.psp
  osg : c₂.osg = c₁.osg
  field : c₂.field = c₁.field
  stackKind : c₂.stackKind = c₁.stackKind
  mem : c₂.mem = write c₁.mem (words c₁.psp 3) ([.r0, .r1, .r2].map c₁.r)

/-- `SVC_Handler` calls the service function that the frame of the caller names, stores what it
returns and then looks for a switch. -/
def Serves (a : Arch) (p : Program) (c c' : Cpu) : Prop :=
  ∃ c₀ c₁ c₂, Entered c c₀ ∧ p.service (c₀.r .r12) c₀ = some c₁ ∧ Answers a c c₁ c₂ ∧
    Exchanges a c₂ c'

namespace M0

theorem save_mem_of_notMem {x : Word} (hx : x ∉ words (c.psp - 32) 8) :
    (save c).mem x = c.mem x := by
  have hmem : (save c).mem =
      write (write c.mem (words (c.psp - 16) 4) ([.r4, .r5, .r6, .r7].map c.r))
        (words (c.psp - 32) 4) ([.r8, .r9, .r10, .r11].map c.r) := by
    simp [save]
  have hwords : words (c.psp - 32) 8 = words (c.psp - 32) 4 ++ words (c.psp - 16) 4 := by
    have ha : c.psp - 32 + BitVec.ofNat 32 (4 * 4) = c.psp - 16 := by bv_omega
    rw [← ha]
    exact words_add (n := 4) (k := 4)
  rw [hwords, List.mem_append, not_or] at hx
  rw [hmem, write_of_notMem hx.1, write_of_notMem hx.2]

theorem pendSvSave_mem : (pendSvSave c).mem = (save c).mem := by
  simp [pendSvSave]

theorem pendSvSave_exchange {c₂ : Cpu} (hw : c.Switches) (hc₁ : (pendSvSave c).Calls c₁)
    (hs₁ : c₁.scheduled = (pendSvSave c).scheduled) (hm₁ : c₁.mem = (pendSvSave c).mem)
    (hc₂ : (pendSvNext c₁).Calls c₂) (hs₂ : c₂.scheduled = (pendSvNext c₁).scheduled)
    (hm₂ : c₂.mem = (pendSvNext c₁).mem) :
    Exchanges .m0 c (pendSvDone (restore (pendSvFetch c₂))).1 := by
  have hr0 := (pendSvNext_fetched hc₂ hs₂ hm₂).r0
  obtain ⟨hrun, hsp, hk, hm, -⟩ := pendSvDone_loads (pendSvNext_fetched hc₂ hs₂ hm₂)
  have hsave := pendSvSave_saves (c := c)
  apply Exchanges.switches hw
  · have hosg : (pendSvDone (restore (pendSvFetch c₂))).1.osg = c₂.osg := by
      simp [pendSvDone, restore, pendSvFetch]
    have hosg' : (pendSvNext c₁).osg = c₁.osg := by simp [pendSvNext]
    rw [hosg, hc₂.osg, hosg', hc₁.osg, hsave.osg]
  · rw [hrun, hs₁, hsave.scheduled]
  · simp [pendSvDone, restore, pendSvFetch, Cpu.scheduled]
  · intro task ht
    rw [hsp, hk, hc₁.sp, hc₁.stackKind]
    exact hsave.others task ht
  · intro x hx
    rw [hm, hm₁, pendSvSave_mem]
    exact save_mem_of_notMem hx
  · intro _
    have hpsp : (pendSvDone (restore (pendSvFetch c₂))).1.psp = (restore (pendSvFetch c₂)).psp := by
      simp [pendSvDone]
    rw [hpsp, restore_psp, hr0, hs₁, hsave.scheduled, hc₁.sp, (hsave.others _ hw.2).1]
    rfl

theorem pendSvHandler_exchange (h : pendSvHandler p c = some (c', e)) : Exchanges .m0 c c' := by
  simp only [pendSvHandler] at h
  split_ifs at h with hz hz'
  · have hsame : c.running = c.scheduled := by simpa [Cpu.running, Cpu.scheduled] using hz
    cases h
    apply Exchanges.stays (fun hw => hw.2 hsame.symm) <;>
      simp [Cpu.running, Cpu.scheduled, Cpu.sp]
  · have hnone : c.scheduled = 0 := by simpa [Cpu.scheduled] using hz'
    cases h
    apply Exchanges.stays (fun hw => hw.1 hnone) <;>
      simp [Cpu.running, Cpu.scheduled, Cpu.sp]
  · have hw : c.Switches := by
      constructor
      · simpa [Cpu.scheduled] using hz'
      · intro he
        apply hz
        simpa [Cpu.running, Cpu.scheduled] using he.symm
    simp only [Option.bind_eq_bind, Option.bind_eq_some_iff, Option.pure_def,
      Option.some.injEq] at h
    obtain ⟨c₁, h₁, c₂, h₂, h⟩ := h
    cases h
    obtain ⟨hc₁, hs₁, hm₁⟩ := p.stackCheck_calls _ _ h₁
    obtain ⟨hc₂, hs₂, hm₂⟩ := p.stackCheck_calls _ _ h₂
    apply (pendSvSave_exchange _ hc₁ hs₁ hm₁ hc₂ hs₂ hm₂).of_same
    · simp
    · simp
    · simp
    · simp
    · simp
    · intro h
      cases h
    · simpa [Cpu.Switches, Cpu.running, Cpu.scheduled] using hw

theorem svcSwitch_psp (h2 : c.r .r2 = c.scheduled) :
    (svcSwitch c).1.psp = c.sp c.scheduled + 32 := by
  have hpsp : (svcSwitch c).1.psp = (restore (svcFetch c)).psp := by simp [svcSwitch, svcDone]
  rw [hpsp, restore_psp, ← h2]
  simp [svcFetch, Cpu.sp]

theorem svcSave_exchange (hw : c.Switches) (h1 : c.r .r1 = c.running) (h2 : c.r .r2 = c.scheduled)
    (hc : (svcSave c).Calls c₁) (hs : c₁.scheduled = (svcSave c).scheduled)
    (hm : c₁.mem = (svcSave c).mem) : Exchanges .m0 c (svcSwitch (c₁.pop [.r2, .r3])).1 := by
  have hsave := svcSave_saves h1
  have hr2 : (c₁.pop [.r2, .r3]).r .r2 = (c₁.pop [.r2, .r3]).scheduled := by
    have hmain : (svcSave c).main = c.r .r2 :: c.r .r3 :: c.main := by simp [svcSave, save]
    have hsched : (c₁.pop [.r2, .r3]).scheduled = c₁.scheduled := rfl
    rw [hsched, hs, hsave.scheduled, ← h2]
    simp [hc.main, hmain]
  obtain ⟨hrun, hsp, hk, hmem, -⟩ := svcSwitch_loads hr2
  apply Exchanges.switches hw
  · have hosg : (svcSwitch (c₁.pop [.r2, .r3])).1.osg = c₁.osg := by
      simp [svcSwitch, svcDone, restore, svcFetch]
    rw [hosg, hc.osg, hsave.osg]
  · rw [hrun]
    exact hs.trans hsave.scheduled
  · simp [svcSwitch, svcDone, restore, svcFetch, Cpu.scheduled]
  · intro task ht
    rw [hsp, hk]
    obtain ⟨hsp', hk'⟩ := hsave.others task ht
    exact ⟨(hc.sp task).trans hsp', (congrFun hc.stackKind task).trans hk'⟩
  · intro x hx
    rw [hmem]
    refine (congrFun hm x).trans ?_
    have hsv : (svcSave c).mem = (save c).mem := by simp [svcSave]
    rw [hsv]
    exact save_mem_of_notMem hx
  · intro _
    have hsched : (c₁.pop [.r2, .r3]).scheduled = c.scheduled := hs.trans hsave.scheduled
    rw [svcSwitch_psp hr2, hsched]
    exact congrArg (· + 32) ((hc.sp _).trans (hsave.others _ hw.2).1)

theorem svcCall_entered : Entered c (svcCall c) := by
  constructor
  · simp [svcCall, words]
  · simp [svcCall, words, BitVec.add_assoc]
  all_goals simp [svcCall]

theorem svcReturn_answers : Answers .m0 c c₁ (svcReturn c₁) := by
  constructor
  · exact nofun
  all_goals simp [svcReturn]

theorem svcSwitch_exchange (hw : c.Switches) (h2 : c.r .r2 = c.scheduled) :
    Exchanges .m0 c (svcSwitch c).1 := by
  obtain ⟨hrun, hsp, hk, hmem, -⟩ := svcSwitch_loads h2
  apply Exchanges.switches hw
  · simp [svcSwitch, svcDone, restore, svcFetch]
  · exact hrun
  · simp [svcSwitch, svcDone, restore, svcFetch, Cpu.scheduled]
  · exact fun task _ => ⟨hsp task, congrFun hk task⟩
  · exact fun x _ => congrFun hmem x
  · exact fun _ => svcSwitch_psp h2

theorem svcHandler_serves (h : svcHandler p c = some (c', e)) : Serves .m0 p c c' := by
  simp only [svcHandler, Option.bind_eq_bind, Option.bind_eq_some_iff] at h
  obtain ⟨c₁, h₁, h⟩ := h
  refine ⟨_, c₁, _, svcCall_entered, h₁, svcReturn_answers, ?_⟩
  obtain ⟨h1, h2⟩ := svcReturn_regs (c := c₁)
  revert h h1 h2
  generalize svcReturn c₁ = c₂
  intro h h1 h2
  split_ifs at h with hz hz' hz''
  · have hnone : c₂.scheduled = 0 := by simpa [h2] using hz
    cases h
    apply Exchanges.stays (fun hw => hw.1 hnone) <;>
      simp [Cpu.running, Cpu.scheduled, Cpu.sp]
  · have hsame : c₂.running = c₂.scheduled := by simpa [h1, h2] using hz'
    cases h
    apply Exchanges.stays (fun hw => hw.2 hsame.symm) <;>
      simp [Cpu.running, Cpu.scheduled, Cpu.sp]
  all_goals
    have hw : c₂.Switches := by
      constructor
      · simpa [h2] using hz
      · intro he
        apply hz'
        simpa [h1, h2] using he.symm
  · cases h
    apply (svcSwitch_exchange _ _).of_same
    · simp
    · simp
    · simp
    · simp
    · simp
    · intro h
      cases h
    · simpa [Cpu.Switches, Cpu.running, Cpu.scheduled] using hw
    · simpa [Cpu.scheduled] using h2
  · simp only [Option.bind_eq_some_iff, Option.pure_def, Option.some.injEq] at h
    obtain ⟨c₃, h₃, h⟩ := h
    cases h
    obtain ⟨hc₃, hs₃, hm₃⟩ := p.stackCheck_calls _ _ h₃
    apply (svcSave_exchange _ _ _ hc₃ hs₃ hm₃).of_same
    · simp
    · simp
    · simp
    · simp
    · simp
    · intro h
      cases h
    · simpa [Cpu.Switches, Cpu.running, Cpu.scheduled] using hw
    · simpa [Cpu.running] using h1
    · simpa [Cpu.scheduled] using h2

end M0

namespace M4

theorem save_mem_of_notMem {x : Word} (h12 : c.r .r12 = c.psp) (hx : x ∉ c.saveArea .m4) :
    (save c).mem x = c.mem x := by
  by_cases hz : c.r .lr &&& 16#32 = 0#32
  · have hmem : (save c).mem = write (write c.mem (words (c.psp - 64) 16) (Cpu.highFp.map c.s))
        (words (c.psp - 64 - 32) 8) (calleeSaved.map c.r) := by
      simp [save, Cpu.ifEq, Cpu.ifNe, hz, calleeSaved, h12]
    have hwords : words (c.psp - 96) 24 =
        words (c.psp - 64 - 32) 8 ++ words (c.psp - 64) 16 := by
      have ha : c.psp - 96 = c.psp - 64 - 32 := by bv_omega
      have hb : c.psp - 64 - 32 + BitVec.ofNat 32 (4 * 8) = c.psp - 64 := by bv_omega
      have hadd := words_add (a := c.psp - 64 - 32) (n := 8) (k := 16)
      rw [hb] at hadd
      rw [ha]
      exact hadd
    have harea : c.saveArea .m4 = words (c.psp - 96) 24 := if_pos ⟨rfl, hz⟩
    rw [harea, hwords, List.mem_append, not_or] at hx
    rw [hmem, write_of_notMem hx.1, write_of_notMem hx.2]
  · have hmem : (save c).mem = write c.mem (words (c.psp - 32) 8) (calleeSaved.map c.r) := by
      simp [save, Cpu.ifEq, Cpu.ifNe, hz, calleeSaved, h12]
    have harea : c.saveArea .m4 = words (c.psp - 32) 8 := if_neg fun h => hz h.2
    rw [harea] at hx
    rw [hmem, write_of_notMem hx]

theorem restore_osg {n : Reg} : (restore n c).osg = c.osg ∧ (restore n c).field = c.field := by
  simp only [restore, Cpu.ifEq, Cpu.ifNe]
  split_ifs <;> simp

/-- The frame of a task lies above its saved registers, as `osi_task_return_regs` says. -/
theorem restore_psp {n : Reg} (hn : n = .r2 ∨ n = .r3) (hk : c.KindKnown .m4 (c.r n)) :
    (restore n c).psp = osiTaskReturnRegs .m4 c (c.r n) := by
  rcases hk rfl with hk | hk
  · rw [(restore_basic hn hk).1]
    simp [osiTaskReturnRegs, hk]
  · rw [(restore_extended hn hk).1]
    simp [osiTaskReturnRegs, hk, BitVec.add_assoc]

theorem returnRegs_congr {task : Word} (hsp : c'.sp task = c.sp task)
    (hk : c'.stackKind task = c.stackKind task) :
    osiTaskReturnRegs a c' task = osiTaskReturnRegs a c task := by
  cases a <;> simp only [osiTaskReturnRegs, hsp, hk]

theorem pendSvSave_exchange (hw : c.Switches) (h1 : c.r .r1 = c.running)
    (hc : (pendSvSave c).Calls c₁) (hs : c₁.scheduled = (pendSvSave c).scheduled)
    (hm : c₁.mem = (pendSvSave c).mem) :
    Exchanges .m4 c (restore .r3 (pendSvFetch c₁)).cpsie := by
  have hsave : Saves .m4 (c.cpsid.mrs .r12) (pendSvSave c) := by
    apply save_saves
    · simpa [Cpu.running] using h1
    · simp
  have harea : (c.cpsid.mrs .r12).saveArea .m4 = c.saveArea .m4 := by simp [Cpu.saveArea]
  obtain ⟨hrun, hsp, hk, hmem, -⟩ := pendSvFetch_loads (c := c₁)
  obtain ⟨hosg, hfield⟩ := restore_osg (n := .r3) (c := pendSvFetch c₁)
  apply Exchanges.switches hw
  · have hfetch : (pendSvFetch c₁).osg = c₁.osg := by simp [pendSvFetch]
    exact hosg.trans (hfetch.trans (hc.osg.trans hsave.osg))
  · exact hrun.trans (hs.trans hsave.scheduled)
  · change (restore .r3 (pendSvFetch c₁)).field .osgScheduled (restore .r3 (pendSvFetch c₁)).osg = 0
    rw [hosg, hfield]
    simp [pendSvFetch]
  · intro task ht
    rw [hsp, hk, hc.sp, hc.stackKind]
    exact hsave.others task (by simpa [Cpu.running] using ht)
  · intro x hx
    rw [hmem, hm]
    apply save_mem_of_notMem
    · simp
    · rw [harea]
      exact hx
  · intro hkind
    obtain ⟨hr, -, hsp', hk', -⟩ := pendSvFetch_fetched (c := c₁)
    have hsched : (pendSvFetch c₁).r .r3 = c.scheduled := hr.trans (hs.trans hsave.scheduled)
    have hne : c.scheduled ≠ (c.cpsid.mrs .r12).running := by simpa [Cpu.running] using hw.2
    obtain ⟨hsp₁, hk₁⟩ := hsave.others c.scheduled hne
    have hsp₂ : (pendSvFetch c₁).sp c.scheduled = c.sp c.scheduled :=
      (hsp' _).trans ((hc.sp _).trans hsp₁)
    have hk₂ : (pendSvFetch c₁).stackKind c.scheduled = c.stackKind c.scheduled := by
      rw [hk', hc.stackKind]
      exact hk₁
    change (restore .r3 (pendSvFetch c₁)).psp = _
    rw [restore_psp (.inr rfl), hsched, returnRegs_congr hsp₂ hk₂]
    rw [hsched, Cpu.KindKnown, hk₂]
    exact hkind

theorem pendSvHandler_exchange (h : pendSvHandler p c = some (c', e)) : Exchanges .m4 c c' := by
  simp only [pendSvHandler] at h
  split_ifs at h with hz hz'
  · have hsame : c.running = c.scheduled := by simpa [Cpu.running, Cpu.scheduled] using hz
    cases h
    apply Exchanges.stays (fun hw => hw.2 hsame.symm) <;>
      simp [Cpu.running, Cpu.scheduled, Cpu.sp]
  · have hnone : c.scheduled = 0 := by simpa [Cpu.scheduled] using hz'
    cases h
    apply Exchanges.stays (fun hw => hw.1 hnone) <;>
      simp [Cpu.running, Cpu.scheduled, Cpu.sp]
  · have hw : c.Switches := by
      constructor
      · simpa [Cpu.scheduled] using hz'
      · intro he
        apply hz
        simpa [Cpu.running, Cpu.scheduled] using he.symm
    simp only [Option.bind_eq_bind, Option.bind_eq_some_iff, Option.pure_def,
      Option.some.injEq] at h
    obtain ⟨c₁, h₁, h⟩ := h
    cases h
    obtain ⟨hc, hs, hm⟩ := p.stackCheck_calls _ _ h₁
    apply (pendSvSave_exchange _ _ hc hs hm).of_same
    · simp
    · simp
    · simp
    · simp
    · simp
    · simp
    · simpa [Cpu.Switches, Cpu.running, Cpu.scheduled] using hw
    · simp [Cpu.running]

theorem svcCall_entered : Entered c (svcCall c) := by
  constructor
  · simp [svcCall, words]
  · simp [svcCall, words, BitVec.add_assoc]
  all_goals simp [svcCall]

/-- The value in `lr` on entry is popped after the service function. -/
theorem svcReturn_answers (h : (svcCall c).Calls c₁) : Answers .m4 c c₁ (svcReturn c₁) := by
  have hmain : c₁.main = c.r .r4 :: c.r .lr :: c.main := by
    rw [h.main]
    simp [svcCall, words]
  constructor
  · intro _
    simp [svcReturn, hmain]
  all_goals simp [svcReturn, hmain]

theorem svcRestore_psp (h2 : c.r .r2 = c.scheduled) (hk : c.KindKnown .m4 c.scheduled) :
    (svcRestore c).1.psp = osiTaskReturnRegs .m4 c c.scheduled := by
  have hr2 : (svcFetch c).r .r2 = c.scheduled := by simpa [svcFetch] using h2
  have hsp : (svcFetch c).sp c.scheduled = c.sp c.scheduled := by simp [svcFetch, Cpu.sp]
  have hk' : (svcFetch c).stackKind = c.stackKind := by simp [svcFetch]
  change (restore .r2 (svcFetch c)).psp = _
  rw [restore_psp (.inl rfl), hr2, returnRegs_congr hsp (congrFun hk' _)]
  rw [hr2, Cpu.KindKnown, hk']
  exact hk

theorem svcRestore_exchange (hw : c.Switches) (h2 : c.r .r2 = c.scheduled) (h3 : c.r .r3 = c.osg) :
    Exchanges .m4 c (svcRestore c).1 := by
  obtain ⟨hrun, hsp, hk, hmem, -⟩ := svcRestore_loads h2 h3
  obtain ⟨hosg, hfield⟩ := restore_osg (n := .r2) (c := svcFetch c)
  apply Exchanges.switches hw
  · have hfetch : (svcFetch c).osg = c.osg := by simp [svcFetch]
    exact hosg.trans hfetch
  · exact hrun
  · change (restore .r2 (svcFetch c)).field .osgScheduled (restore .r2 (svcFetch c)).osg = 0
    rw [hosg, hfield]
    simp [svcFetch, h3]
  · exact fun task _ => ⟨hsp task, congrFun hk task⟩
  · exact fun x _ => congrFun hmem x
  · exact svcRestore_psp h2

theorem svcSave_exchange (hw : c.Switches) (h1 : c.r .r1 = c.running) (h2 : c.r .r2 = c.scheduled)
    (h3 : c.r .r3 = c.osg) (h12 : c.r .r12 = c.psp) (hc : (save c).Calls c₁)
    (hs : c₁.scheduled = (save c).scheduled) (hm : c₁.mem = (save c).mem) :
    Exchanges .m4 c (svcRestore (c₁.pop [.r2, .r3])).1 := by
  have hsave := save_saves h1 h12
  have hmain : c₁.main = c.r .r2 :: c.r .r3 :: c.main := hc.main.trans save_main
  have hr2 : (c₁.pop [.r2, .r3]).r .r2 = (c₁.pop [.r2, .r3]).scheduled := by
    have hsched : (c₁.pop [.r2, .r3]).scheduled = c₁.scheduled := rfl
    rw [hsched, hs, save_scheduled, ← h2]
    simp [hmain]
  have hr3 : (c₁.pop [.r2, .r3]).r .r3 = (c₁.pop [.r2, .r3]).osg := by
    have hosg : (c₁.pop [.r2, .r3]).osg = c₁.osg := rfl
    rw [hosg, hc.osg, save_osg, ← h3]
    simp [hmain]
  obtain ⟨hrun, hsp, hk, hmem, -⟩ := svcRestore_loads hr2 hr3
  obtain ⟨hosg, hfield⟩ := restore_osg (n := .r2) (c := svcFetch (c₁.pop [.r2, .r3]))
  apply Exchanges.switches hw
  · exact hosg.trans (hc.osg.trans save_osg)
  · exact hrun.trans (hs.trans save_scheduled)
  · change (restore .r2 (svcFetch (c₁.pop [.r2, .r3]))).field .osgScheduled
      (restore .r2 (svcFetch (c₁.pop [.r2, .r3]))).osg = 0
    rw [hosg, hfield]
    simp [svcFetch] at hr3 ⊢
    simp [hr3]
  · intro task ht
    rw [hsp, hk]
    obtain ⟨hsp', hk'⟩ := hsave.others task ht
    exact ⟨(hc.sp task).trans hsp', (congrFun hc.stackKind task).trans hk'⟩
  · intro x hx
    rw [hmem]
    exact (congrFun hm x).trans (save_mem_of_notMem h12 hx)
  · intro hkind
    have hsched : (c₁.pop [.r2, .r3]).scheduled = c.scheduled := hs.trans save_scheduled
    obtain ⟨hsp₁, hk₁⟩ := hsave.others c.scheduled hw.2
    have hsp₂ : (c₁.pop [.r2, .r3]).sp c.scheduled = c.sp c.scheduled := (hc.sp _).trans hsp₁
    have hk₂ : (c₁.pop [.r2, .r3]).stackKind c.scheduled = c.stackKind c.scheduled :=
      (congrFun hc.stackKind _).trans hk₁
    rw [svcRestore_psp hr2, hsched, returnRegs_congr hsp₂ hk₂]
    rw [hsched, Cpu.KindKnown, hk₂]
    exact hkind

theorem svcHandler_serves (h : svcHandler p c = some (c', e)) : Serves .m4 p c c' := by
  simp only [svcHandler, Option.bind_eq_bind, Option.bind_eq_some_iff] at h
  obtain ⟨c₁, h₁, h⟩ := h
  refine ⟨_, c₁, _, svcCall_entered, h₁, svcReturn_answers (p.service_calls _ _ _ h₁), ?_⟩
  obtain ⟨h1, h2, h3, h12⟩ := svcReturn_regs (c := c₁)
  revert h h1 h2 h3 h12
  generalize svcReturn c₁ = c₂
  intro h h1 h2 h3 h12
  split_ifs at h with hz hz' hz'' hz₃
  · have hnone : c₂.scheduled = 0 := by simpa [h2] using hz
    cases h
    apply Exchanges.stays (fun hw => hw.1 hnone) <;>
      simp [Cpu.running, Cpu.scheduled, Cpu.sp]
  · have hsame : c₂.running = c₂.scheduled := by simpa [h1, h2] using hz'
    cases h
    apply Exchanges.stays (fun hw => hw.2 hsame.symm) <;>
      simp [Cpu.running, Cpu.scheduled, Cpu.sp]
  all_goals
    have hw : c₂.Switches := by
      constructor
      · simpa [h2] using hz
      · intro he
        apply hz'
        simpa [h1, h2] using he.symm
  · cases h
    apply (svcRestore_exchange _ _ _).of_same
    · simp [clearLazy]
    · simp [clearLazy]
    · simp [clearLazy]
    · simp [clearLazy]
    · simp [clearLazy]
    · simp [clearLazy]
    · simpa [clearLazy, Cpu.Switches, Cpu.running, Cpu.scheduled] using hw
    · simpa [clearLazy, Cpu.scheduled] using h2
    · simpa [clearLazy] using h3
  · cases h
    apply (svcRestore_exchange _ _ _).of_same
    · simp
    · simp
    · simp
    · simp
    · simp
    · simp
    · simpa [Cpu.Switches, Cpu.running, Cpu.scheduled] using hw
    · simpa [Cpu.scheduled] using h2
    · simpa using h3
  · simp only [Option.bind_eq_some_iff, Option.pure_def, Option.some.injEq] at h
    obtain ⟨c₃, h₃, h⟩ := h
    cases h
    obtain ⟨hc₃, hs₃, hm₃⟩ := p.stackCheck_calls _ _ h₃
    apply (svcSave_exchange _ _ _ _ _ hc₃ hs₃ hm₃).of_same
    · simp
    · simp
    · simp
    · simp
    · simp
    · simp
    · simpa [Cpu.Switches, Cpu.running, Cpu.scheduled] using hw
    · simpa [Cpu.running] using h1
    · simpa [Cpu.scheduled] using h2
    · simpa using h3
    · simpa using h12

end M4

/-- Both handlers of both architectures switch in the same cases and to the same effect. -/
theorem Handler.exchange (h : Handler.pendSv.run a p c = some (c', e)) : Exchanges a c c' := by
  cases a with
  | m0 => exact M0.pendSvHandler_exchange h
  | m4 => exact M4.pendSvHandler_exchange h

theorem Handler.serves (h : Handler.svc.run a p c = some (c', e)) : Serves a p c c' := by
  cases a with
  | m0 => exact M0.svcHandler_serves h
  | m4 => exact M4.svcHandler_serves h

end Osh
