import Osh.ArchM0
import Osh.ArchM4

namespace Osh
open Function (update)
open Lib

inductive Handler where
  | pendSv
  | svc
  deriving DecidableEq, Repr

/-- The handler of an architecture, with the value that it returns to. -/
def Handler.run (h : Handler) (a : Arch) (p : Program) (c : Cpu) : Option (Cpu × Word) :=
  match a, h with
  | .m0, .pendSv => M0.pendSvHandler p c
  | .m0, .svc => M0.svcHandler p c
  | .m4, .pendSv => M4.pendSvHandler p c
  | .m4, .svc => M4.svcHandler p c

def stackMagicWord : Word := 0xE25A2EA5

/-- The words from `stk` on, with the address of `task_finished`. In position-independent code the
register `r9` is the one of the caller, `gotR9`. -/
def Arch.initialFrame (a : Arch) (gotR9 : Option Word) (taskFinished handler params : Word) :
    List Word :=
  let base := 0x1000
  let r9 := gotR9.getD (base + 9)
  let low := match a with
    | .m0 => [base + 8, r9, base + 10, base + 11, base + 4, base + 5, base + 6, base + 7]
    | .m4 => [base + 4, base + 5, base + 6, base + 7, base + 8, r9, base + 10, base + 11]
  low ++ [params, base + 1, base + 2, base + 3, base + 12, taskFinished, handler &&& ~~~ 1,
    0x01000000]

/-- `stk`, below an aligned end of the stack. -/
def initialSp (stack size : Word) : Word :=
  let stk := stack + 4 * (size / 4)
  let stk := if stk &&& 4 ≠ 0 then stk - 4 else stk
  stk - 64

def Arch.initializeStack (a : Arch) (gotR9 : Option Word) (taskFinished handler params : Word)
    (stack size : Word) (c : Cpu) : Option (Cpu × Word) :=
  if size % 4 = 0 ∧ 160 ≤ size then
    let stackOffset := (size / 4).toNat
    let stk := initialSp stack size
    -- `stack_paint`
    let mem := write c.mem (words stack stackOffset) (List.replicate stackOffset stackMagicWord)
    let mem := write mem (words stk 16) (a.initialFrame gotR9 taskFinished handler params)
    some ({ c with mem := update mem stack stackMagicWord }, stk)
  else none

/-- The part of `os_task_initialize_options` and `os_task_start_options` that the handlers see. -/
def startTask (a : Arch) (gotR9 : Option Word) (taskFinished handler params : Word)
    (stack size task : Word) (c : Cpu) : Option Cpu := do
  let (c, stk) ← a.initializeStack gotR9 taskFinished handler params stack size c
  return { c with
    field := update c.field .taskSp (update (c.field .taskSp) task stk)
    stackKind := update c.stackKind task 0 }

def initialContext (gotR9 : Option Word) (stk : Word) : Context where
  r n := match n with
    | .r4 => 0x1004 | .r5 => 0x1005 | .r6 => 0x1006 | .r7 => 0x1007 | .r8 => 0x1008
    | .r9 => gotR9.getD 0x1009 | .r10 => 0x100A | .r11 => 0x100B
    | _ => 0
  s _ := 0
  psp := stk + 32
  kind := .basic

variable {a : Arch} {p : Program} {c c' c₁ : Cpu} {task t e stack size stk : Word} {k : Context}
variable {gotR9 : Option Word} {taskFinished handler params : Word}

theorem Handler.effect {h : Handler} (hrun : h.run a p c = some (c', e)) :
    HandlerEffect a c c' e := by
  cases a with
  | m0 =>
    cases h with
    | pendSv => exact M0.pendSvHandler_effect hrun
    | svc => exact M0.svcHandler_effect hrun
  | m4 =>
    cases h with
    | pendSv => exact M4.pendSvHandler_effect hrun
    | svc => exact M4.svcHandler_effect hrun

section Start

theorem mul_div_cancel_of_mod (h : size % 4 = 0) : 4 * (size / 4) = size := by
  have hmod : size.toNat % 4 = 0 := congrArg BitVec.toNat h
  have hlt : size.toNat < 2 ^ 32 := size.isLt
  apply BitVec.eq_of_toNat_eq
  rw [BitVec.toNat_mul, BitVec.toNat_udiv]
  change 4 * (size.toNat / 4) % 2 ^ 32 = size.toNat
  omega

theorem notMem_initialFrame (h : size % 4 = 0 ∧ 160 ≤ size) :
    stack ∉ words (initialSp stack size) 16 := by
  intro hm
  obtain ⟨i, hi, hx⟩ := mem_words.1 hm
  rw [initialSp, mul_div_cancel_of_mod h.1] at hx
  split_ifs at hx <;> bv_omega

theorem length_initialFrame :
    (a.initialFrame gotR9 taskFinished handler params).length = 16 := by
  cases a <;> rfl

theorem initializeStack_eq
    (h : a.initializeStack gotR9 taskFinished handler params stack size c = some (c', stk)) :
    (size % 4 = 0 ∧ 160 ≤ size) ∧ stk = initialSp stack size ∧
      c'.mem = update (write (write c.mem (words stack (size / 4).toNat)
        (List.replicate (size / 4).toNat stackMagicWord)) (words stk 16)
        (a.initialFrame gotR9 taskFinished handler params)) stack stackMagicWord := by
  simp only [Arch.initializeStack] at h
  split_ifs at h with hs
  cases h
  exact ⟨hs, rfl, rfl⟩

theorem initializeStack_words
    (h : a.initializeStack gotR9 taskFinished handler params stack size c = some (c', stk)) :
    (words stk 16).map c'.mem = a.initialFrame gotR9 taskFinished handler params := by
  obtain ⟨hs, rfl, hmem⟩ := initializeStack_eq h
  have hoff : stack ∉ words (initialSp stack size) 16 := notMem_initialFrame hs
  have hmagic (f : Word → Word) : (words (initialSp stack size) 16).map
      (update f stack stackMagicWord) = (words (initialSp stack size) 16).map f :=
    List.map_congr_left fun x hx => Function.update_of_ne (ne_of_mem_of_not_mem hx hoff) _ _
  rw [hmem, hmagic, map_write (nodup_words (by decide))]
  rw [length_words, length_initialFrame]

theorem length_order : a.order.length = 8 := by cases a <;> rfl

theorem map_order_initialContext : a.order.map (initialContext gotR9 stk).r ++
      [params, 0x1001, 0x1002, 0x1003, 0x100C, taskFinished, handler &&& ~~~ 1, 0x01000000] =
    a.initialFrame gotR9 taskFinished handler params := by
  cases a <;> rfl

/-- The initial frame is one that the handlers load. -/
theorem startTask_holds
    (h : startTask a gotR9 taskFinished handler params stack size t c = some c') :
    HoldsContext a c' t (initialContext gotR9 (c'.sp t)) ∧ (words (c'.sp t + 32) 8).map c'.mem =
      [params, 0x1001, 0x1002, 0x1003, 0x100C, taskFinished, handler &&& ~~~ 1, 0x01000000] := by
  simp only [startTask, Option.bind_eq_bind, Option.bind_eq_some_iff, Option.pure_def,
    Option.some.injEq] at h
  obtain ⟨⟨c₁, stk⟩, h₁, h⟩ := h
  subst c'
  have hwords := initializeStack_words h₁
  rw [← @map_order_initialContext a stk, words_add (n := 8) (k := 8), List.map_append] at hwords
  obtain ⟨hlow, hhigh⟩ := List.append_inj hwords (by simp [length_order])
  have hsp : update (c₁.field .taskSp) t stk t = stk := Function.update_self ..
  simp only [Cpu.sp, Function.update_self]
  refine ⟨⟨fun _ => rfl, fun _ => Function.update_self .., ?_, ?_, fun h => (by cases h)⟩, hhigh⟩
  · simp [Cpu.sp, initialContext, FrameKind.saved]
  · simpa [Cpu.sp] using hlow

end Start

/-- What the rest of the system does while a task is switched out: code of other tasks and of the
kernel, and the handlers when they do not switch to the task. -/
inductive Away (a : Arch) (p : Program) (t : Word) : Cpu → Cpu → Prop
  | code {c c' : Cpu} (ht : c.running ≠ t) (hrun : c'.running = c.running)
    (hs : Spares a t c c') : Away a p t c c'
  | handler {h : Handler} {c c' : Cpu} {e : Word} (ht : c.running ≠ t)
    (hrun : h.run a p c = some (c', e)) (ht' : c'.running ≠ t)
    (hm : ∀ x ∈ c.savedWords a t, c'.mem x = c.mem x) : Away a p t c c'

/-- A task is switched out by a handler that it is running in, or is just started. -/
inductive SwitchedOut (a : Arch) (p : Program) (t : Word) : Context → Cpu → Prop
  | handler {h : Handler} {c c' : Cpu} {e : Word} {kind : FrameKind} (ht : t ≠ 0)
    (hr : c.running = t) (hsup : a.Supports kind) (hlr : c.r .lr = kind.excReturn)
    (hrun : h.run a p c = some (c', e)) (ht' : c'.running ≠ t) :
    SwitchedOut a p t (c.context kind) c'
  | started {gotR9 : Option Word} {taskFinished handler params stack size : Word} {c c' : Cpu}
    (ht : c.running ≠ t)
    (h : startTask a gotR9 taskFinished handler params stack size t c = some c') :
    SwitchedOut a p t (initialContext gotR9 (c'.sp t)) c'

theorem SwitchedOut.holds (h : SwitchedOut a p t k c) : HoldsContext a c t k := by
  cases h with
  | handler ht hr hsup hlr hrun ht' =>
    cases Handler.effect hrun with
    | stays hrun' => exact absurd (hrun'.trans hr) ht'
    | switches others saves loads =>
      rw [hr] at saves
      exact saves _ hsup (fun _ => hlr) ht
  | started ht h => exact (startTask_holds h).1

theorem Handler.spares {h : Handler} (hrun : h.run a p c = some (c', e)) (ht : c.running ≠ t)
    (hm : ∀ x ∈ c.savedWords a t, c'.mem x = c.mem x) : Spares a t c c' := by
  cases Handler.effect hrun with
  | stays hr hsp hk => exact ⟨hsp t, congrFun hk t, hm⟩
  | switches others saves loads =>
    obtain ⟨hsp, hk⟩ := others t ht.symm
    exact ⟨hsp, hk, hm⟩

theorem Away.holds (h : Away a p t c c') (hk : HoldsContext a c t k) : HoldsContext a c' t k := by
  cases h with
  | code ht hrun hs => exact hk.spares hs
  | handler ht hrun ht' hm => exact hk.spares (Handler.spares hrun ht hm)

theorem away_holds (h : Relation.ReflTransGen (Away a p t) c c') (hk : HoldsContext a c t k) :
    HoldsContext a c' t k := by
  induction h with
  | refl => exact hk
  | tail _ hstep ih => exact hstep.holds ih

/-- Both handlers save and both load the same layout, which `osi_task_return_regs` agrees with. -/
theorem switchedOut_resumes (h : SwitchedOut a p t k c)
    (haway : Relation.ReflTransGen (Away a p t) c c') :
    osiTaskReturnRegs a c' t = k.psp ∧
      ∀ (h : Handler) (c₁ : Cpu) (e : Word), h.run a p c' = some (c₁, e) → c'.running ≠ t →
        c₁.running = t → (∀ x ∈ c'.savedWords a t, c₁.mem x = c'.mem x) → Resumes k c₁ e := by
  have hk := away_holds haway h.holds
  constructor
  · exact hk.returnRegs
  · intro h c₁ e hrun ht ht₁ hm
    have hk₁ := hk.spares (Handler.spares hrun ht hm)
    cases Handler.effect hrun with
    | stays hr => exact absurd (hr.symm.trans ht₁) ht
    | switches others saves loads =>
      apply loads
      rw [ht₁]
      exact hk₁

/-- A program whose service functions are the addresses of the tasks that they schedule. -/
def scheduleService : Program where
  stackCheck c := some c
  service f c := some { c with
    field := update c.field .osgScheduled (update (c.field .osgScheduled) c.osg f) }
  stackCheck_calls c c' h := by
    cases h
    exact ⟨⟨fun _ _ => rfl, fun _ _ => rfl, rfl, rfl, rfl, rfl, fun _ => rfl, rfl⟩, rfl, rfl⟩
  service_calls f c c' h := by
    cases h
    constructor <;> simp [Cpu.running, Cpu.sp]

/-- The task at `0x100` is running and has used the floating-point registers, and the task at
`0x200`, which is about to schedule it again, is scheduled. -/
def twoTasks : Cpu where
  r n := if n = .lr then 0xFFFFFFED else if n = .r4 then 44 else 11
  s i := i.val
  psp := 0x1000
  z := false
  primask := false
  fpccr := 0
  osg := 0x10
  field f a := match f with
    | .osgRunning => 0x100
    | .osgScheduled => 0x200
    | .taskSp => if a = 0x200 then 0x2000 else 0
  stackKind _ := 0
  mem a := if a = 0x2030 then 0x100 else 0
  main := []

theorem switchedOut_resumes_twoTasks : ∃ (c c' : Cpu) (e e' : Word),
    Handler.pendSv.run .m4 scheduleService twoTasks = some (c, e) ∧
      Handler.svc.run .m4 scheduleService c = some (c', e') ∧
        osiTaskReturnRegs .m4 c 0x100 = 0x1000 ∧
          Resumes (twoTasks.context .extended) c' e' := by
  obtain ⟨⟨c, e⟩, ⟨c', e'⟩, hc, hc', hrun, hrun', hm⟩ : ∃ x y : Cpu × Word,
      Handler.pendSv.run .m4 scheduleService twoTasks = some x ∧
        Handler.svc.run .m4 scheduleService x.1 = some y ∧ x.1.running ≠ 0x100 ∧
          y.1.running = 0x100 ∧ ∀ a ∈ x.1.savedWords .m4 0x100, y.1.mem a = x.1.mem a := by
    refine ⟨_, _, rfl, rfl, by decide, rfl, ?_⟩
    exact List.map_inj_left.1 (by decide +kernel)
  have hout : SwitchedOut .m4 scheduleService 0x100 (twoTasks.context .extended) c := by
    apply SwitchedOut.handler (by decide) rfl _ rfl hc hrun
    intro h
    cases h
  obtain ⟨hregs, hres⟩ := switchedOut_resumes hout .refl
  exact ⟨c, c', e, e', hc, hc', hregs, hres .svc c' e' hc' hrun hrun' hm⟩

end Osh
