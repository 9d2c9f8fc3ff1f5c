import Osh.Cpu

namespace Osh
open Function (update)
open Lib

inductive Arch where
  | m0
  | m4
  deriving DecidableEq, Repr

inductive FrameKind where
  | basic
  | extended
  deriving DecidableEq, Repr

/-- The value in `lr` on exception entry from a task, which uses the process stack. -/
def FrameKind.excReturn : FrameKind → Word
  | .basic => 0xFFFFFFFD
  | .extended => 0xFFFFFFED

def FrameKind.stackKind : FrameKind → BitVec 8
  | .basic => 0
  | .extended => 1

/-- The bytes that the handlers save below the exception frame. -/
def FrameKind.saved : FrameKind → Word
  | .basic => 32
  | .extended => 96

/-- `r4` to `r11` in the order of their addresses on the stack. -/
def Arch.order : Arch → List Reg
  | .m0 => [.r8, .r9, .r10, .r11, .r4, .r5, .r6, .r7]
  | .m4 => calleeSaved

def osiTaskReturnRegs (a : Arch) (c : Cpu) (task : Word) : Word :=
  match a with
  | .m0 => c.sp task + 8 * 4
  | .m4 =>
    if c.stackKind task = 1 then c.sp task + (8 * 4 + 16 * 4)
    else c.sp task + 8 * 4

/-- What a task resumes with. -/
structure Context where
  r : Reg → Word
  s : Fin 32 → Word
  psp : Word
  kind : FrameKind

def Cpu.context (c : Cpu) (kind : FrameKind) : Context where
  r := c.r
  s := c.s
  psp := c.psp
  kind := kind

/-- Only the M4 has extended frames. -/
def Arch.Supports (a : Arch) (kind : FrameKind) : Prop := a = .m0 → kind = .basic

/-- The stack and the control block of a task hold a context. -/
structure HoldsContext (a : Arch) (c : Cpu) (task : Word) (k : Context) : Prop where
  supports : a.Supports k.kind
  stackKind : a = .m4 → c.stackKind task = k.kind.stackKind
  sp : c.sp task + k.kind.saved = k.psp
  regs : (words (c.sp task) 8).map c.mem = a.order.map k.r
  fp : k.kind = .extended → (words (c.sp task + 32) 16).map c.mem = Cpu.highFp.map k.s

structure Resumes (k : Context) (c : Cpu) (excReturn : Word) : Prop where
  r : ∀ n ∈ calleeSaved, c.r n = k.r n
  psp : c.psp = k.psp
  excReturn : excReturn = k.kind.excReturn
  s : k.kind = .extended → ∀ i ∈ Cpu.highFp, c.s i = k.s i

variable {a : Arch} {c c' c₁ : Cpu} {task t : Word} {k k' : Context} {e : Word}

/-- The words of the stack of a task that is switched out below its exception frame. -/
def Cpu.savedWords (a : Arch) (c : Cpu) (task : Word) : List Word :=
  words (c.sp task) (if a = .m4 ∧ c.stackKind task = 1 then 8 + 16 else 8)

/-- Nothing is written that a task resumes with. -/
structure Spares (a : Arch) (task : Word) (c c' : Cpu) : Prop where
  sp : c'.sp task = c.sp task
  stackKind : c'.stackKind task = c.stackKind task
  mem : ∀ x ∈ c.savedWords a task, c'.mem x = c.mem x

theorem Spares.of_mem (hsp : c'.sp task = c.sp task) (hk : c'.stackKind task = c.stackKind task)
    (hm : c'.mem = c.mem) : Spares a task c c' :=
  ⟨hsp, hk, fun x _ => congrFun hm x⟩

theorem HoldsContext.spares (h : HoldsContext a c task k) (hs : Spares a task c c') :
    HoldsContext a c' task k := by
  have hlow : (words (c.sp task) 8).map c'.mem = (words (c.sp task) 8).map c.mem := by
    apply List.map_congr_left
    intro x hx
    apply hs.mem
    rw [Cpu.savedWords]
    split_ifs
    · rw [words_add]
      exact List.mem_append_left _ hx
    · exact hx
  constructor
  · exact h.supports
  · intro ha
    rw [hs.stackKind]
    exact h.stackKind ha
  · rw [hs.sp]
    exact h.sp
  · rw [hs.sp, hlow]
    exact h.regs
  · intro hk
    have ha : a = .m4 := by
      cases a with
      | m0 => cases hk.symm.trans (h.supports rfl)
      | m4 => rfl
    have hkind : c.stackKind task = 1 := by
      rw [h.stackKind ha, hk]
      rfl
    rw [hs.sp, ← h.fp hk]
    apply List.map_congr_left
    intro x hx
    apply hs.mem
    rw [Cpu.savedWords, if_pos ⟨ha, hkind⟩, words_add]
    exact List.mem_append_right _ hx

theorem HoldsContext.congr (h : HoldsContext a c task k) (hr : ∀ n ∈ calleeSaved, k'.r n = k.r n)
    (hs : ∀ i ∈ Cpu.highFp, k'.s i = k.s i) (hpsp : k'.psp = k.psp) (hkind : k'.kind = k.kind) :
    HoldsContext a c task k' := by
  constructor
  · rw [hkind]
    exact h.supports
  · rw [hkind]
    exact h.stackKind
  · rw [hkind, hpsp]
    exact h.sp
  · rw [h.regs]
    apply List.map_congr_left
    intro n hn
    refine (hr n ?_).symm
    cases a with
    | m0 => exact (by decide : ∀ n ∈ Arch.m0.order, n ∈ calleeSaved) n hn
    | m4 => exact hn
  · intro hk
    rw [h.fp (hkind ▸ hk)]
    apply List.map_congr_left
    intro i hi
    exact (hs i hi).symm

/-- While a task is switched out, the kernel finds the frame that the hardware left. -/
theorem HoldsContext.returnRegs (h : HoldsContext a c task k) :
    osiTaskReturnRegs a c task = k.psp := by
  rw [← h.sp]
  cases a with
  | m0 =>
    rw [h.supports rfl]
    rfl
  | m4 =>
    have hkind := h.stackKind rfl
    cases hk : k.kind with
    | basic =>
      rw [hk] at hkind
      simp [osiTaskReturnRegs, hkind, FrameKind.stackKind, FrameKind.saved]
    | extended =>
      rw [hk] at hkind
      simp [osiTaskReturnRegs, hkind, FrameKind.stackKind, FrameKind.saved]

/-- The part of a handler that saves the context of the running task. -/
structure Saves (a : Arch) (c c' : Cpu) : Prop where
  osg : c'.osg = c.osg
  running : c'.running = c.running
  scheduled : c'.scheduled = c.scheduled
  others : ∀ task ≠ c.running, c'.sp task = c.sp task ∧ c'.stackKind task = c.stackKind task
  holds : ∀ kind : FrameKind, a.Supports kind → (a = .m4 → c.r .lr = kind.excReturn) →
    HoldsContext a c' c.running (c.context kind)

/-- The part of a handler that makes the scheduled task the running one and loads its context. -/
structure Loads (a : Arch) (c c' : Cpu) (e : Word) : Prop where
  running : c'.running = c.scheduled
  sp : ∀ task, c'.sp task = c.sp task
  stackKind : c'.stackKind = c.stackKind
  mem : c'.mem = c.mem
  resumes : ∀ k, HoldsContext a c c.scheduled k → Resumes k c' e

inductive HandlerEffect (a : Arch) (c c' : Cpu) (e : Word) : Prop
  | stays (hr : c'.running = c.running) (hsp : ∀ task, c'.sp task = c.sp task)
    (hk : c'.stackKind = c.stackKind)
  | switches
    (others : ∀ task ≠ c.running, c'.sp task = c.sp task ∧ c'.stackKind task = c.stackKind task)
    (saves : ∀ kind : FrameKind, a.Supports kind → (a = .m4 → c.r .lr = kind.excReturn) →
      c.running ≠ 0 → HoldsContext a c' c.running (c.context kind))
    (loads : ∀ k, HoldsContext a c' c'.running k → Resumes k c' e)

/-- What a handler keeps before it looks for a switch. -/
structure Keeps (a : Arch) (c c' : Cpu) : Prop where
  r : ∀ n ∈ calleeSaved, c'.r n = c.r n
  lr : a = .m4 → c'.r .lr = c.r .lr
  s : ∀ i ∈ Cpu.highFp, c'.s i = c.s i
  psp : c'.psp = c.psp
  running : c'.running = c.running
  sp : ∀ task, c'.sp task = c.sp task
  stackKind : c'.stackKind = c.stackKind

theorem Keeps.trans (h : Keeps a c c₁) (h' : Keeps a c₁ c') : Keeps a c c' where
  r n hn := (h'.r n hn).trans (h.r n hn)
  lr ha := (h'.lr ha).trans (h.lr ha)
  s i hi := (h'.s i hi).trans (h.s i hi)
  psp := h'.psp.trans h.psp
  running := h'.running.trans h.running
  sp task := (h'.sp task).trans (h.sp task)
  stackKind := h'.stackKind.trans h.stackKind

theorem Cpu.Calls.keeps (h : c.Calls c') (hlr : a = .m4 → c'.r .lr = c.r .lr) : Keeps a c c' :=
  ⟨h.r, hlr, h.s, h.psp, h.running, h.sp, h.stackKind⟩

theorem HandlerEffect.keeps (h : HandlerEffect a c₁ c' e) (hk : Keeps a c c₁) :
    HandlerEffect a c c' e := by
  cases h with
  | stays hr hsp hkind =>
    refine .stays (hr.trans hk.running) (fun task => ?_) (hkind.trans hk.stackKind)
    exact (hsp task).trans (hk.sp task)
  | switches others saves loads =>
    rw [hk.running] at others saves
    refine .switches (fun task ht => ?_) (fun kind hsup hlr hne => ?_) loads
    · rw [← hk.sp, ← hk.stackKind]
      exact others task ht
    · have hholds := saves kind hsup (fun ha => (hk.lr ha).trans (hlr ha)) hne
      apply hholds.congr
      · intro n hn
        exact (hk.r n hn).symm
      · intro i hi
        exact (hk.s i hi).symm
      · exact hk.psp.symm
      · rfl

theorem Loads.effect (h : Loads a c c' e) (hz : c.running = 0) : HandlerEffect a c c' e := by
  refine .switches (fun task _ => ⟨h.sp task, congrFun h.stackKind task⟩)
    (fun _ _ _ hne => absurd hz hne) fun k hk => ?_
  apply h.resumes
  rw [← h.running]
  apply hk.spares
  exact .of_mem (h.sp _).symm (congrFun h.stackKind _).symm h.mem.symm

theorem Loads.trans (h : c.Calls c₁) (hs : c₁.scheduled = c.scheduled) (hm : c₁.mem = c.mem)
    (hl : Loads a c₁ c' e) : Loads a c c' e := by
  refine ⟨hl.running.trans hs, fun task => (hl.sp task).trans (h.sp task),
    hl.stackKind.trans h.stackKind, hl.mem.trans hm, fun k hk => ?_⟩
  apply hl.resumes
  rw [hs]
  exact hk.spares (.of_mem (h.sp _) (congrFun h.stackKind _) hm)

theorem Saves.effect (h : Saves a c c₁) (hl : Loads a c₁ c' e) : HandlerEffect a c c' e := by
  refine .switches (fun task ht => ?_) (fun kind hsup hlr _ => ?_) fun k hk => ?_
  · rw [hl.sp, hl.stackKind]
    exact h.others task ht
  · apply (h.holds kind hsup hlr).spares
    exact .of_mem (hl.sp _) (congrFun hl.stackKind _) hl.mem
  · apply hl.resumes
    rw [← hl.running]
    apply hk.spares
    exact .of_mem (hl.sp _).symm (congrFun hl.stackKind _).symm hl.mem.symm

end Osh
