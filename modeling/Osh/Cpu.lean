import Osh.Lib.Cells

namespace Osh
open Function (update)
open Lib

abbrev Word := BitVec 32

inductive Reg where
  | r0 | r1 | r2 | r3 | r4 | r5 | r6 | r7 | r8 | r9 | r10 | r11 | r12 | lr
  deriving DecidableEq, Repr

/-- The words of `osg` and of a control block that the handlers name, by the `.equ` of `gcc.s`. -/
inductive Field where
  | osgRunning
  | osgScheduled
  | taskSp
  deriving DecidableEq, Repr

/-- The processor and what the exception handlers use of memory: `field f p` is the word `f` of
the structure at `p`, `stackKind p` is the byte at `OS_TASK_STACK_KIND`, `mem` are the words of
the task stacks, and `main` those of the main stack, the last one pushed first. -/
structure Cpu where
  r : Reg → Word
  s : Fin 32 → Word
  psp : Word
  z : Bool
  primask : Bool
  fpccr : Word
  osg : Word
  field : Field → Word → Word
  stackKind : Word → BitVec 8
  mem : Word → Word
  main : List Word

namespace Cpu
variable (c : Cpu)

def running : Word := c.field .osgRunning c.osg

def scheduled : Word := c.field .osgScheduled c.osg

def sp (task : Word) : Word := c.field .taskSp task

section Instructions
variable (d n m : Reg) (imm : Word) (regs : List Reg) (f : Field)

def set (v : Word) : Cpu := { c with r := update c.r d v }

def cpsid : Cpu := { c with primask := true }

def cpsie : Cpu := { c with primask := false }

def mrs : Cpu := c.set d c.psp

def msr : Cpu := { c with psp := c.r n }

/-- `ldr d, =osg` -/
def ldrOsg : Cpu := c.set d c.osg

/-- `ldr d, =imm` and `mov d, #imm` -/
def mov : Cpu := c.set d imm

def movs : Cpu := { c.set d imm with z := imm = 0 }

/-- `mov d, n` -/
def movReg : Cpu := c.set d (c.r n)

def mvn : Cpu := c.set d (~~~ imm)

def mvns : Cpu := { c.set d (~~~ c.r n) with z := ~~~ c.r n = 0 }

def subs : Cpu := { c.set d (c.r n - imm) with z := c.r n - imm = 0 }

def cmp : Cpu := { c with z := c.r n = c.r m }

/-- `cmp n, #imm` -/
def cmpImm : Cpu := { c with z := c.r n = imm }

def tst : Cpu := { c with z := c.r n &&& imm = 0 }

def ldr : Cpu := c.set d (c.field f (c.r n))

def str : Cpu := { c with field := update c.field f (update (c.field f) (c.r n) (c.r d)) }

/-- `ldrb d, [n, #OS_TASK_STACK_KIND]` -/
def ldrb : Cpu := c.set d ((c.stackKind (c.r n)).setWidth 32)

/-- `strb d, [n, #OS_TASK_STACK_KIND]` -/
def strb : Cpu := { c with stackKind := update c.stackKind (c.r n) ((c.r d).setWidth 8) }

/-- `ldr d, [n, #imm]` on the stack -/
def ldrMem : Cpu := c.set d (c.mem (c.r n + imm))

def bytes : Word := BitVec.ofNat 32 (4 * regs.length)

def ldm : Cpu := { c with r := write c.r regs ((words (c.r n) regs.length).map c.mem) }

def ldmia : Cpu := (c.ldm n regs).set n (c.r n + bytes regs)

def stm : Cpu := { c with mem := write c.mem (words (c.r n) regs.length) (regs.map c.r) }

def stmia : Cpu := (c.stm n regs).set n (c.r n + bytes regs)

def stmdb : Cpu := (c.set n (c.r n - bytes regs)).stm n regs

def push : Cpu := { c with main := regs.map c.r ++ c.main }

def pop : Cpu := { c with r := write c.r regs c.main, main := c.main.drop regs.length }

/-- `s16` to `s31` -/
def highFp : List (Fin 32) := [16, 17, 18, 19, 20, 21, 22, 23, 24, 25, 26, 27, 28, 29, 30, 31]

def vstmdb : Cpu :=
  { c.set n (c.r n - 64) with mem := write c.mem (words (c.r n - 64) 16) (highFp.map c.s) }

def vldmia : Cpu :=
  { c.set n (c.r n + 64) with s := write c.s highFp ((words (c.r n) 16).map c.mem) }

def bic : Cpu := c.set d (c.r d &&& ~~~ imm)

/-- `ldr d, [n]` where `n` is the address of `FPCCR` -/
def ldrFpccr : Cpu := c.set d c.fpccr

/-- `str d, [n]` where `n` is the address of `FPCCR` -/
def strFpccr : Cpu := { c with fpccr := c.r d }

/-- An instruction with the condition `eq` in an `it` block. -/
def ifEq (f : Cpu → Cpu) : Cpu := if c.z then f c else c

/-- An instruction with the condition `ne` in an `it` block. -/
def ifNe (f : Cpu → Cpu) : Cpu := if c.z then c else f c

attribute [simp] set cpsid cpsie mrs msr ldrOsg mov movs movReg mvn mvns subs cmp cmpImm tst ldr str
  ldrb strb ldrMem bytes ldm ldmia stm stmia stmdb push pop vstmdb vldmia bic ldrFpccr strFpccr

end Instructions
end Cpu

def calleeSaved : List Reg := [.r4, .r5, .r6, .r7, .r8, .r9, .r10, .r11]

/-- What a C function leaves alone: by the procedure call standard the registers that the callee
saves, the process stack pointer and what is on the main stack, and by the source of the kernel the
running task and the two fields of the control blocks, which only a start of the task writes. -/
structure Cpu.Calls (c c' : Cpu) : Prop where
  r : ∀ n ∈ calleeSaved, c'.r n = c.r n
  s : ∀ i ∈ Cpu.highFp, c'.s i = c.s i
  psp : c'.psp = c.psp
  main : c'.main = c.main
  osg : c'.osg = c.osg
  running : c'.running = c.running
  sp : ∀ task, c'.sp task = c.sp task
  stackKind : c'.stackKind = c.stackKind

/-- The C functions that the handlers call, which may not return. -/
structure Program where
  stackCheck : Cpu → Option Cpu
  service : Word → Cpu → Option Cpu
  stackCheck_calls : ∀ c c', stackCheck c = some c' →
    c.Calls c' ∧ c'.scheduled = c.scheduled ∧ c'.mem = c.mem
  service_calls : ∀ f c c', service f c = some c' → c.Calls c'

end Osh
