import Mathlib.Data.List.TakeWhile
import Osh.SwitchRuns

namespace Osh
open Function (update)
open Lib

/-- What a control block keeps of the stack of its task. -/
structure TaskStack where
  sp : Word
  stack : Word
  stackSize : Word
  highwater : Word

def TaskStack.cells (task : TaskStack) : List Word :=
  words task.stack (task.stackSize / 4).toNat

/-- The part of `os_task_initialize_options` that sets up the stack. -/
def Arch.initializeTaskStack (a : Arch) (gotR9 : Option Word)
    (taskFinished handler params stack size : Word) (task : TaskStack) (c : Cpu) :
    Option (Cpu × TaskStack) := do
  let (c, stk) ← a.initializeStack gotR9 taskFinished handler params stack size c
  return (c, { task with sp := stk, stack, stackSize := size })

inductive PanicKind where
  | assertion
  | stackOverflow
  deriving DecidableEq, Repr

/-- The assertions about `got_r9`, in position-independent code for the SAMD51 only. -/
def Arch.gotSaved (a : Arch) (gotR9 : Option Word) (mem : Word → Word) (sp : Word) : Bool :=
  match a, gotR9 with
  | .m4, some r9 => r9 == mem (sp + 20)
  | _, _ => true

/-- `osi_stack_check`, up to `osi_priority_check`, which only prints. -/
def osiStackCheck (a : Arch) (gotR9 : Option Word) (mem : Word → Word)
    (running scheduled : TaskStack) : Except PanicKind Unit :=
  if running.sp < running.stack ∨ mem running.stack ≠ stackMagicWord then .error .stackOverflow
  else if ¬ a.gotSaved gotR9 mem running.sp then .error .assertion
  else if ¬ a.gotSaved gotR9 mem scheduled.sp then .error .assertion
  else .ok ()

/-- The loop of `stack_highwater` with `n` turns left, and the addresses that it reads. -/
def stackHighwaterLoop (mem : Word → Word) (size : Word) : Nat → Word → Word → Word × List Word
  | 0, _, _ => (size, [])
  | n + 1, i, stack =>
    if mem stack ≠ stackMagicWord then (i, [stack])
    else
      let (highwater, reads) := stackHighwaterLoop mem size n (i + 1) (stack + 4)
      (highwater, stack :: reads)

/-- `stack_highwater`, with its `int32_t` result as the `uint32_t` that it is stored in. -/
def stackHighwater (mem : Word → Word) (stack size : Word) : Word × List Word :=
  stackHighwaterLoop mem size size.toNat 0 stack

/-- `os_task_highwater`, which returns the new `highwater`. `stack_paint` was given the size in
words, here it is in bytes. -/
def osTaskHighwater (mem : Word → Word) (task : TaskStack) : TaskStack × List Word :=
  let (highwater, reads) := stackHighwater mem task.stack task.stackSize
  ({ task with highwater }, reads)

def leadingMagic (mem : Word → Word) (l : List Word) : Nat :=
  (l.takeWhile (mem · = stackMagicWord)).length

structure StackArray (stack size : Word) : Prop where
  aligned : stack % 4 = 0
  inside : stack.toNat + size.toNat ≤ 2 ^ 32

structure FreshStack (a : Arch) (gotR9 : Option Word) (mem : Word → Word) (task : TaskStack) :
    Prop where
  frame : ∀ x ∈ words task.sp 16, x ∈ task.cells
  aligned : task.sp % 8 = 0
  magic : mem task.stack = stackMagicWord
  check : ∀ scheduled : TaskStack, a.gotSaved gotR9 mem scheduled.sp →
    osiStackCheck a gotR9 mem task scheduled = .ok ()
  highwater : (osTaskHighwater mem task).1.highwater = (task.sp - task.stack) / 4

/-- `os_task_highwater` reads the stack alone, and counts the magic words that it starts with. -/
structure HighwaterExact (mem : Word → Word) (task : TaskStack) : Prop where
  reads : ∀ x ∈ (osTaskHighwater mem task).2, x ∈ task.cells
  leading : (osTaskHighwater mem task).1.highwater.toNat = leadingMagic mem task.cells
  bound : (osTaskHighwater mem task).1.highwater.toNat ≤ (task.stackSize / 4).toNat

variable {a : Arch} {c c' : Cpu} {task task' : TaskStack} {mem : Word → Word}
variable {n k : Nat} {l l' : List Word} {gotR9 : Option Word}
  {taskFinished handler params stack size stk i : Word}

section Scan

theorem leadingMagic_le : leadingMagic mem l ≤ l.length := (List.takeWhile_sublist _).length_le

theorem leadingMagic_eq_length :
    leadingMagic mem l = l.length ↔ ∀ x ∈ l, mem x = stackMagicWord := by
  rw [leadingMagic, (List.takeWhile_sublist _).length_eq, List.takeWhile_eq_self_iff]
  simp only [decide_eq_true_eq]

theorem leadingMagic_lt (h : ∃ x ∈ l, mem x ≠ stackMagicWord) : leadingMagic mem l < l.length := by
  obtain ⟨x, hx, hm⟩ := h
  refine lt_of_le_of_ne leadingMagic_le fun he => hm ?_
  exact leadingMagic_eq_length.1 he x hx

theorem leadingMagic_append_of_ne (h : ∃ x ∈ l, mem x ≠ stackMagicWord) :
    leadingMagic mem (l ++ l') = leadingMagic mem l := by
  have hne := (leadingMagic_lt h).ne
  rw [leadingMagic] at hne ⊢
  rw [List.takeWhile_append, if_neg hne, leadingMagic]

theorem leadingMagic_append_of_eq (h : ∀ x ∈ l, mem x = stackMagicWord) :
    leadingMagic mem (l ++ l') = l.length + leadingMagic mem l' := by
  rw [leadingMagic, List.takeWhile_append_of_pos (by simpa using h), List.length_append,
    leadingMagic]

/-- The scan stops at the first word that is not the magic word, which is the last one it reads. -/
theorem stackHighwaterLoop_eq (hi : i + BitVec.ofNat 32 n = size) :
    stackHighwaterLoop mem size n i stack =
      (i + BitVec.ofNat 32 (leadingMagic mem (words stack n)),
        (words stack n).take (leadingMagic mem (words stack n) + 1)) := by
  induction n generalizing i stack with
  | zero =>
    rw [← hi]
    rfl
  | succ n ih =>
    have hi' : i + 1 + BitVec.ofNat 32 n = size := by
      rw [← hi, add_assoc, BitVec.ofNat_add, add_comm 1]
      rfl
    rw [stackHighwaterLoop, words, ih hi']
    by_cases hm : mem stack = stackMagicWord
    · have hcons : leadingMagic mem (stack :: words (stack + 4) n) =
          1 + leadingMagic mem (words (stack + 4) n) := by
        apply leadingMagic_append_of_eq (l := [stack])
        simpa using hm
      rw [if_neg (not_not.2 hm), hcons, List.take_succ_cons, BitVec.ofNat_add, add_comm 1,
        ← add_assoc]
      rfl
    · simp [hm, leadingMagic]

/-- The scan of `os_task_highwater` covers as many words as the stack has bytes. -/
theorem osTaskHighwater_eq (hm : leadingMagic mem (words task.stack task.stackSize.toNat) = n) :
    (osTaskHighwater mem task).1.highwater.toNat = n ∧
      (osTaskHighwater mem task).2 = words task.stack (min (n + 1) task.stackSize.toNat) := by
  subst hm
  have hle := (@leadingMagic_le mem (words task.stack task.stackSize.toNat)).trans_eq length_words
  have hscan : stackHighwaterLoop mem task.stackSize task.stackSize.toNat 0 task.stack = _ :=
    stackHighwaterLoop_eq (by simp)
  simp only [osTaskHighwater, stackHighwater, hscan, zero_add, BitVec.toNat_ofNat, take_words,
    and_true]
  exact Nat.mod_eq_of_lt (hle.trans_lt task.stackSize.isLt)

theorem toNat_of_mod (h : size % 4 = 0) : size.toNat = 4 * (size / 4).toNat := by
  have hmod : size.toNat % 4 = 0 := congrArg BitVec.toNat h
  rw [BitVec.toNat_udiv]
  change size.toNat = 4 * (size.toNat / 4)
  omega

theorem highwaterExact_iff (hsize : task.stackSize % 4 = 0) (hpos : 0 < task.stackSize.toNat) :
    HighwaterExact mem task ↔ ∃ x ∈ task.cells, mem x ≠ stackMagicWord := by
  have hn : task.stackSize.toNat = 4 * (task.stackSize / 4).toNat := toNat_of_mod hsize
  have hlt : task.stackSize.toNat < 2 ^ 32 := task.stackSize.isLt
  generalize hcells : (task.stackSize / 4).toNat = n at hn
  have hc : task.cells = words task.stack n := by rw [TaskStack.cells, hcells]
  have hsplit : words task.stack task.stackSize.toNat = task.cells ++
      words (task.stack + BitVec.ofNat 32 (4 * n)) (task.stackSize.toNat - n) := by
    rw [hc, ← words_add]
    congr 1
    omega
  obtain ⟨hcount, hreads⟩ := @osTaskHighwater_eq task mem _ rfl
  constructor
  · intro h
    by_contra hall
    push Not at hall
    have hle : n ≤ leadingMagic mem (words task.stack task.stackSize.toNat) := by
      rw [hsplit, leadingMagic_append_of_eq hall, hc, length_words]
      exact Nat.le_add_right ..
    -- the word behind the stack is read.
    have hnext : task.stack + BitVec.ofNat 32 (4 * n) ∈ (osTaskHighwater mem task).2 := by
      rw [hreads]
      exact mem_words.2 ⟨n, by omega, rfl⟩
    have hnot : task.stack + BitVec.ofNat 32 (4 * n) ∉ task.cells := by
      rw [hc]
      exact notMem_words (by omega)
    exact hnot (h.reads _ hnext)
  · intro hx
    have hlead : leadingMagic mem (words task.stack task.stackSize.toNat) =
        leadingMagic mem task.cells := by rw [hsplit, leadingMagic_append_of_ne hx]
    have hbound : leadingMagic mem task.cells < n := by
      have hlt := leadingMagic_lt hx
      rwa [hc, length_words, ← hc] at hlt
    rw [hlead] at hcount hreads
    constructor
    · intro x hx
      rw [hreads] at hx
      obtain ⟨i, hi, rfl⟩ := mem_words.1 hx
      rw [hc]
      exact mem_words.2 ⟨i, by omega, rfl⟩
    · exact hcount
    · rw [hcount, hcells]
      exact hbound.le

end Scan

section Fresh

theorem and_four : stk &&& 4 ≠ 0 ↔ stk.toNat / 4 % 2 = 1 := by
  have h : stk &&& 4 = if stk.getLsbD 2 then 4 else 0 := BitVec.and_twoPow stk 2
  rw [h, BitVec.getLsbD, Nat.testBit_eq_decide_div_mod_eq]
  simp

/-- The frame is the last sixteen words of the stack, or the last but one. -/
theorem initialSp_eq (hs : StackArray stack size) (hsize : size % 4 = 0 ∧ 160 ≤ size) :
    ∃ k, k + 16 ≤ (size / 4).toNat ∧
      initialSp stack size = stack + BitVec.ofNat 32 (4 * k) ∧ (stack.toNat + 4 * k) % 8 = 0 := by
  have hn : size.toNat = 4 * (size / 4).toNat := toNat_of_mod hsize.1
  have hmin : 160 ≤ size.toNat := hsize.2
  have hstack : stack.toNat % 4 = 0 := congrArg BitVec.toNat hs.aligned
  have hin := hs.inside
  have hend : (stack + size).toNat / 4 % 2 = (stack.toNat + size.toNat) / 4 % 2 := by
    rw [BitVec.toNat_add]
    omega
  rw [initialSp, mul_div_cancel_of_mod hsize.1]
  generalize (size / 4).toNat = n at hn
  simp only [and_four, hend]
  split_ifs with h
  · refine ⟨n - 17, by omega, ?_, by omega⟩
    apply BitVec.eq_of_toNat_eq
    bv_omega
  · refine ⟨n - 16, by omega, ?_, by omega⟩
    bv_omega

theorem initializeStack_painted
    (h : a.initializeStack gotR9 taskFinished handler params stack size c = some (c', stk))
    (hk : k + 16 ≤ (size / 4).toNat) (hstk : stk = stack + BitVec.ofNat 32 (4 * k)) :
    ∀ x ∈ words stack k, c'.mem x = stackMagicWord := by
  intro x hx
  obtain ⟨⟨hmod, -⟩, -, hmem⟩ := initializeStack_eq h
  rw [hmem]
  by_cases hxs : x = stack
  · rw [hxs, Function.update_self]
  · have hlt : 4 * (size / 4).toNat < 2 ^ 32 := toNat_of_mod hmod ▸ size.isLt
    have hn : (words stack (k + 16)).Nodup := nodup_words (by omega)
    rw [words_add, ← hstk] at hn
    have hframe : x ∉ words stk 16 := (List.nodup_append'.1 hn).2.2 hx
    have hcell : x ∈ words stack (size / 4).toNat := by
      obtain ⟨i, hi, rfl⟩ := mem_words.1 hx
      exact mem_words.2 ⟨i, by omega, rfl⟩
    have hpaint := @write_replicate _ _ _ c.mem _ _ stackMagicWord hcell
    rw [length_words] at hpaint
    rw [Function.update_of_ne hxs, write_of_notMem hframe, hpaint]

/-- The frame starts with another word than the magic word, and has `got_r9` in its place. -/
theorem initializeStack_frame
    (h : a.initializeStack gotR9 taskFinished handler params stack size c = some (c', stk)) :
    c'.mem stk ≠ stackMagicWord ∧ a.gotSaved gotR9 c'.mem stk := by
  have hwords := initializeStack_words h
  cases a with
  | m0 =>
    have h₀ : some (c'.mem stk) = some 0x1008 := congrArg (·[0]?) hwords
    rw [Option.some.inj h₀]
    exact ⟨by decide, rfl⟩
  | m4 =>
    have h₀ : some (c'.mem stk) = some 0x1004 := congrArg (·[0]?) hwords
    have h₅ : some (c'.mem (stk + 4 + 4 + 4 + 4 + 4)) = some (gotR9.getD 0x1009) :=
      congrArg (·[5]?) hwords
    have hstk : stk + 4 + 4 + 4 + 4 + 4 = stk + 20 := by simp only [BitVec.add_assoc]; rfl
    rw [hstk] at h₅
    rw [Option.some.inj h₀]
    refine ⟨by decide, ?_⟩
    cases gotR9 with
    | none => rfl
    | some r9 => exact beq_iff_eq.2 (Option.some.inj h₅).symm

theorem initializeTaskStack_eq
    (h : a.initializeTaskStack gotR9 taskFinished handler params stack size task c =
      some (c', task')) :
    a.initializeStack gotR9 taskFinished handler params stack size c = some (c', task'.sp) ∧
      task'.stack = stack ∧ task'.stackSize = size := by
  simp only [Arch.initializeTaskStack, Option.bind_eq_bind, Option.bind_eq_some_iff,
    Option.pure_def, Option.some.injEq, Prod.mk.injEq] at h
  obtain ⟨⟨c₁, stk⟩, h, rfl, rfl⟩ := h
  exact ⟨h, rfl, rfl⟩

theorem initializeTaskStack_fresh (hs : StackArray stack size)
    (h : a.initializeTaskStack gotR9 taskFinished handler params stack size task c =
      some (c', task')) : FreshStack a gotR9 c'.mem task' := by
  obtain ⟨h, rfl, rfl⟩ := initializeTaskStack_eq h
  obtain ⟨hsize, hsp, hmem⟩ := initializeStack_eq h
  obtain ⟨k, hk, hstk, h8⟩ := initialSp_eq hs hsize
  rw [← hsp] at hstk
  have hmagic : c'.mem task'.stack = stackMagicWord := by rw [hmem, Function.update_self]
  have hpaint := initializeStack_painted h hk hstk
  obtain ⟨hne, hgot⟩ := initializeStack_frame h
  have hn : task'.stackSize.toNat = 4 * (task'.stackSize / 4).toNat := toNat_of_mod hsize.1
  have hin := hs.inside
  have hnat : task'.sp.toNat = task'.stack.toNat + 4 * k := by
    rw [hstk, BitVec.toNat_add, BitVec.toNat_ofNat, Nat.mod_eq_of_lt (by omega),
      Nat.mod_eq_of_lt (by omega)]
  constructor
  · rw [hstk]
    exact words_sub hk
  · apply BitVec.eq_of_toNat_eq
    rw [BitVec.toNat_umod, hnat]
    exact h8
  · exact hmagic
  · intro scheduled hsched
    have hlt : ¬ task'.sp < task'.stack := by
      rw [BitVec.lt_def, hnat]
      omega
    rw [osiStackCheck, if_neg (not_or.2 ⟨hlt, not_not.2 hmagic⟩), if_neg (not_not.2 hgot),
      if_neg (not_not.2 hsched)]
  · have hlead : leadingMagic c'.mem (words task'.stack task'.stackSize.toNat) = k := by
      obtain ⟨m, hm⟩ := Nat.exists_eq_add_of_lt (show k < task'.stackSize.toNat by omega)
      rw [hm, Nat.add_assoc, words_add, leadingMagic_append_of_eq hpaint, length_words, ← hstk,
        words, leadingMagic, List.takeWhile_cons_of_neg (by simpa using hne)]
      rfl
    apply BitVec.eq_of_toNat_eq
    rw [(osTaskHighwater_eq hlead).1, BitVec.toNat_udiv, BitVec.toNat_sub_of_le, hnat]
    · change k = (task'.stack.toNat + 4 * k - task'.stack.toNat) / 4
      omega
    · rw [BitVec.le_def, hnat]
      exact Nat.le_add_right ..

end Fresh

/-- The painted stack, its frame and the scan agree for as long as the stack has some other word
than the magic word. -/
theorem initializeTaskStack_highwater (hs : StackArray stack size)
    (h : a.initializeTaskStack gotR9 taskFinished handler params stack size task c =
      some (c', task')) :
    FreshStack a gotR9 c'.mem task' ∧ ∀ (mem : Word → Word) (sp highwater : Word),
      HighwaterExact mem { task' with sp, highwater } ↔
        ∃ x ∈ task'.cells, mem x ≠ stackMagicWord := by
  obtain ⟨h', -, rfl⟩ := initializeTaskStack_eq h
  obtain ⟨⟨hmod, hmin⟩, -⟩ := initializeStack_eq h'
  constructor
  · exact initializeTaskStack_fresh hs h
  · intro mem sp highwater
    exact highwaterExact_iff hmod (lt_of_lt_of_le (by decide) hmin)

theorem initializeTaskStack_highwater_unaligned : ∃ (c' : Cpu) (task' : TaskStack),
    task'.sp = 0x20000060 ∧ task'.stack = 0x20000000 ∧
      FreshStack .m4 (some 0x20008000) c'.mem task' ∧ HighwaterExact c'.mem task' := by
  obtain ⟨c', task', h, hsp, hstack⟩ : ∃ (c' : Cpu) (task' : TaskStack),
      Arch.m4.initializeTaskStack (some 0x20008000) 0x4001 0x5001 0 0x20000000 164 ⟨0, 0, 0, 0⟩
        twoTasks = some (c', task') ∧ task'.sp = 0x20000060 ∧ task'.stack = 0x20000000 :=
    ⟨_, _, rfl, rfl, rfl⟩
  obtain ⟨hfresh, hiff⟩ := initializeTaskStack_highwater ⟨by decide, by decide⟩ h
  have hsp' : task'.sp ∈ words task'.sp 16 := List.mem_cons_self
  have hne := (initializeStack_frame (initializeTaskStack_eq h).1).1
  exact ⟨c', task', hsp, hstack, hfresh, (hiff ..).2 ⟨_, hfresh.frame _ hsp', hne⟩⟩

/-- Magic words as far as the frame of a second fresh stack, which follows the first. -/
def paintedWords (x : Word) : Word := if x < 0x20000100 then stackMagicWord else 0

/-- A stack that is full of magic words is scanned together with the one that follows it. -/
theorem not_initializeTaskStack_highwater : ∃ (c' : Cpu) (task' : TaskStack),
    Arch.m0.initializeTaskStack none 0x4001 0x5001 0 0x20000000 160 ⟨0, 0, 0, 0⟩ twoTasks =
      some (c', task') ∧ (∀ x ∈ task'.cells, paintedWords x = stackMagicWord) ∧
        (osTaskHighwater paintedWords task').1.highwater = 64 ∧
          ¬ HighwaterExact paintedWords task' := by
  obtain ⟨c', task', h, htask⟩ : ∃ (c' : Cpu) (task' : TaskStack),
      Arch.m0.initializeTaskStack none 0x4001 0x5001 0 0x20000000 160 ⟨0, 0, 0, 0⟩ twoTasks =
        some (c', task') ∧ task' = ⟨0x20000060, 0x20000000, 160, 0⟩ := ⟨_, _, rfl, rfl⟩
  subst htask
  have hhigh : (osTaskHighwater paintedWords ⟨0x20000060, 0x20000000, 160, 0⟩).1.highwater =
      64 := by decide +kernel
  refine ⟨c', _, h, leadingMagic_eq_length.1 (by decide +kernel), hhigh, fun hexact => ?_⟩
  have hb := hexact.bound
  rw [hhigh] at hb
  exact absurd hb (by decide)

end Osh
