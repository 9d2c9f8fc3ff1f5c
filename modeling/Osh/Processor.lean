import Osh.CreatedTasks
import Osh.DispatchRuns
import Osh.FixedRun
import Osh.HandlerSpec
import Osh.Lib.Simulation

namespace Osh
open Function (update)
open Lib

/-- Where the control blocks of the tasks lie. -/
structure Layout where
  tasks : List TaskId
  address : TaskId → Word
  injective : ∀ t ∈ tasks, ∀ t' ∈ tasks, address t = address t' → t = t'
  ne_zero : ∀ t ∈ tasks, address t ≠ 0

def Layout.pointer (l : Layout) : Option TaskId → Word
  | none => 0
  | some t => l.address t

def Layout.task (l : Layout) (w : Word) : Option TaskId := l.tasks.find? fun t => l.address t = w

/-- Whether `__svc_…` reads a tuple from `r0` and `r1`. -/
def Svc.returnsTuple : Svc → Bool
  | .queueEnqueue _ _ _ | .queueDequeue _ _ => true
  | _ => false

/-- The exception frame of a task. The running task has it on the process stack. -/
def Cpu.frame (a : Arch) (c : Cpu) (task : Word) : Word :=
  if c.running = task then c.psp else osiTaskReturnRegs a c task

def Cpu.frameWord (a : Arch) (c : Cpu) (task i : Word) : Word := c.mem (c.frame a task + i)

/-- The kernel, the processor, and the service call that each task made and has not gone on from. -/
structure Board where
  kernel : Kernel
  inCall : TaskId → Option Svc
  cpu : Cpu

/-- The processor shows the state of the kernel: the handlers see its two pointers, and a task that
has not gone on since its service call finds the answer to it in its frame. -/
structure Realizes (a : Arch) (l : Layout) (k : Kernel) (inCall : TaskId → Option Svc) (c : Cpu) :
    Prop where
  tasks : ∀ t ∈ k.tasks, t ∈ l.tasks
  running : c.running = l.pointer k.running
  scheduled : c.scheduled = l.pointer k.scheduled
  kinds : ∀ t ∈ l.tasks, c.KindKnown a (l.address t)
  status : ∀ t ∈ l.tasks, ∀ call, inCall t = some call →
    c.frameWord a (l.address t) 0 = BitVec.ofNat 32 (k.regs t).r0
  value : ∀ t ∈ l.tasks, ∀ call, inCall t = some call → call.returnsTuple →
    c.frameWord a (l.address t) 4 = BitVec.ofNat 32 (k.regs t).r1

/-- C code that takes the kernel from `k` to `k'` writes the pointers of `osg`, and of the frames of
the tasks in a call what it answers. -/
structure Carries (a : Arch) (l : Layout) (k k' : Kernel) (inCall : TaskId → Option Svc)
    (c c' : Cpu) : Prop where
  running : c'.running = l.pointer k'.running
  scheduled : c'.scheduled = l.pointer k'.scheduled
  kinds : ∀ t ∈ l.tasks, c.KindKnown a (l.address t) → c'.KindKnown a (l.address t)
  status : ∀ t ∈ l.tasks, ∀ call, inCall t = some call → c'.frameWord a (l.address t) 0 =
    if (k'.regs t).r0 = (k.regs t).r0 then c.frameWord a (l.address t) 0
    else BitVec.ofNat 32 (k'.regs t).r0
  value : ∀ t ∈ l.tasks, ∀ call, inCall t = some call → call.returnsTuple →
    c'.frameWord a (l.address t) 4 =
      if (k'.regs t).r1 = (k.regs t).r1 then c.frameWord a (l.address t) 4
      else BitVec.ofNat 32 (k'.regs t).r1

/-- The service function that the frame of the caller names does what its model does and returns
the same. -/
def Implements (a : Arch) (l : Layout) (p : Program) (k k₁ : Kernel)
    (inCall : TaskId → Option Svc) (status : Status) (value : Option Nat) (c : Cpu) : Prop :=
  ∀ c₀ c₁, Entered c c₀ → p.service (c₀.r .r12) c₀ = some c₁ →
    Carries a l k k₁ inCall c c₁ ∧ c₁.r .r0 = BitVec.ofNat 32 status.code ∧
      ∀ v ∈ value, c₁.r .r1 = BitVec.ofNat 32 v

/-- The frames of the other tasks are not where a handler writes. -/
def StacksApart (a : Arch) (l : Layout) (c : Cpu) : Prop :=
  ∀ t ∈ l.tasks, l.address t ≠ c.running →
    ∀ x ∈ words (osiTaskReturnRegs a c (l.address t)) 2, x ∉ words c.psp 3 ∧ x ∉ c.saveArea a

/-- The kernel with the pointers that a handler left in `osg`. PendSV is over with the switch that
it was asked for. -/
def Kernel.readBack (l : Layout) (k : Kernel) (c c' : Cpu) : Kernel :=
  { k with
    running := l.task c'.running
    scheduled := l.task c'.scheduled
    pendSv := k.pendSv && decide (c'.running = c.running) }

def Kernel.switched (k : Kernel) : Kernel :=
  if k.scheduled = none then k
  else { k with running := k.scheduled, scheduled := none, pendSv := false }

/-- The answer to a call, as `svcHandler` stores it. -/
def Kernel.returning (k : Kernel) (caller : TaskId) (status : Status) (value : Option Nat) :
    Kernel :=
  { k with regs := update k.regs caller ⟨status.code, value.getD (k.regs caller).r1⟩ }

/-- A task that is started again does not go on from its call. -/
def Act.starting (x : Act) (inCall : TaskId → Option Svc) : TaskId → Option Svc :=
  match x with
  | .taskStart t _ _ => update inCall t none
  | _ => inCall

inductive Board.Step (a : Arch) (l : Layout) (p : Program) : Board → Option Act → Board → Prop
  | svc {k k₁ : Kernel} {g : TaskId → Option Svc} {c c' : Cpu} {e : Word} {caller : TaskId}
    {call : Svc} {status : Status} {value : Option Nat} {kind : FrameKind}
    (hs : k.scheduled = none) (hr : k.running = some caller)
    (hcall : call.call k = .ok (k₁, status, value))
    (himp : Implements a l p k k₁ (update g caller none) status value c)
    (hsup : a.Supports kind) (hlr : c.r .lr = kind.excReturn) (hap : StacksApart a l c)
    (hrun : Handler.svc.run a p c = some (c', e)) :
    Board.Step a l p ⟨k, g, c⟩ (some (.svc call))
      ⟨(k₁.returning caller status value).readBack l c c', update g caller (some call), c'⟩
  | pendSv {k : Kernel} {g : TaskId → Option Svc} {c c' : Cpu} {e : Word} {kind : FrameKind}
    (hsup : a.Supports kind) (hlr : c.r .lr = kind.excReturn) (hap : StacksApart a l c)
    (hrun : Handler.pendSv.run a p c = some (c', e)) :
    Board.Step a l p ⟨k, g, c⟩ none ⟨k.readBack l c c', g, c'⟩
  | code {k k' : Kernel} {g : TaskId → Option Svc} {c c' : Cpu} {x : Act}
    (hsvc : ∀ call, x ≠ .svc call) (hsw : x ≠ .contextSwitch) (hstep : machine.step k x k')
    (hc : Carries a l k k' (x.starting g) c c') :
    Board.Step a l p ⟨k, g, c⟩ (some x) ⟨k', x.starting g, c'⟩
  | user {k : Kernel} {g : TaskId → Option Svc} {c c' : Cpu} {running : TaskId}
    (hr : k.running = some running) (hc : Carries a l k k (update g running none) c c') :
    Board.Step a l p ⟨k, g, c⟩ none ⟨k, update g running none, c'⟩

def board (a : Arch) (l : Layout) (p : Program) : System Board (Option Act) where
  init b := machine.init b.kernel ∧ (∀ t, b.inCall t = none) ∧ Realizes a l b.kernel b.inCall b.cpu
  step := Board.Step a l p

def Board.Meets (ok : Kernel → Act → Prop) (b : Board) (x : Option Act) : Prop :=
  ∀ act ∈ x, ok b.kernel act

variable {a : Arch} {l : Layout} {p : Program} {k k' k₁ : Kernel} {g g' : TaskId → Option Svc}
  {c c' c₀ c₁ c₂ : Cpu} {e : Word} {t caller : TaskId} {kind : FrameKind} {call : Svc}
  {status : Status} {value : Option Nat} {ok : Kernel → Act → Prop} {b : Board}

theorem Layout.task_address (ht : t ∈ l.tasks) : l.task (l.address t) = some t := by
  obtain ⟨t', ht'⟩ := Option.isSome_iff_exists.1
    ((List.find?_isSome (p := fun t' => decide (l.address t' = l.address t))).2 ⟨t, ht, by simp⟩)
  have hp := List.find?_some ht'
  have he : l.address t' = l.address t := of_decide_eq_true hp
  rw [Layout.task, ht', l.injective t' (List.mem_of_find?_eq_some ht') t ht he]

theorem Layout.task_zero : l.task 0 = none := by
  apply List.find?_eq_none.2
  intro t ht
  simpa using l.ne_zero t ht

theorem Layout.task_pointer {o : Option TaskId} (ho : ∀ t, o = some t → t ∈ l.tasks) :
    l.task (l.pointer o) = o := by
  cases o with
  | none => exact Layout.task_zero
  | some t => exact Layout.task_address (ho t rfl)

/-- The frame that the hardware pushed lies above the saved registers. -/
theorem notMem_saveArea {x : Word} (hx : x ∈ words c.psp 3) : x ∉ c.saveArea a := by
  have hdisj {n : Nat} {b : Word} (hn : 4 * (n + 3) ≤ 2 ^ 32)
      (hb : b + BitVec.ofNat 32 (4 * n) = c.psp) : x ∉ words b n := by
    have hnodup : (words b (n + 3)).Nodup := nodup_words hn
    rw [words_add, hb] at hnodup
    exact fun h => (List.nodup_append'.1 hnodup).2.2 h hx
  unfold Cpu.saveArea
  split_ifs
  · exact hdisj (by decide) (by bv_omega)
  · exact hdisj (by decide) (by bv_omega)

theorem mem_frameWords {x : Word} : x ∈ words c.psp 2 → x ∈ words c.psp 3 := by
  intro hx
  have h := words_sub (a := c.psp) (k := 0) (n := 2) (m := 3) (by decide) x
  apply h
  simpa using hx

theorem Handler.saved {h : Handler} (hrun : h.run a p c = some (c', e))
    (hne : c'.running ≠ c.running) (hz : c.running ≠ 0) (hsup : a.Supports kind)
    (hlr : a = .m4 → c.r .lr = kind.excReturn) :
    osiTaskReturnRegs a c' c.running = c.psp ∧ c'.KindKnown a c.running := by
  cases Handler.effect hrun with
  | stays hr => exact absurd hr hne
  | switches others saves loads =>
    have hold := saves kind hsup hlr hz
    constructor
    · exact hold.returnRegs
    · intro ha
      rw [hold.stackKind ha]
      cases kind with
      | basic => exact .inl rfl
      | extended => exact .inr rfl

theorem Layout.pointer_injective {o o' : Option TaskId} (ho : ∀ t, o = some t → t ∈ l.tasks)
    (ho' : ∀ t, o' = some t → t ∈ l.tasks) (h : l.pointer o = l.pointer o') : o = o' := by
  rw [← Layout.task_pointer ho, h, Layout.task_pointer ho']

/-- What the pointers of the kernel satisfy in every run. -/
structure Switchable (l : Layout) (k : Kernel) : Prop where
  running : k.running ≠ none
  mem : ∀ t, k.Used t → t ∈ l.tasks
  apart : ∀ t, k.scheduled = some t → k.running ≠ some t

theorem reach_switchable (h : machine.Reach ok k) (ht : ∀ t ∈ k.tasks, t ∈ l.tasks) :
    Switchable l k where
  running := reach_running h
  mem t hu := ht t ((reach_created h).used t hu)
  apart := (reach_queued (c := False) h fun hc => hc.elim).2.apart

section Switch
variable (h : Realizes a l k g c) (hk : Switchable l k)

include h hk

theorem Realizes.running_ne_zero : c.running ≠ 0 := by
  obtain ⟨t, ht⟩ := Option.ne_none_iff_exists'.1 hk.running
  rw [h.running, ht]
  exact l.ne_zero t (hk.mem t (.inl ht))

/-- The handlers see a switch if and only if the kernel asks for one. -/
theorem Realizes.switches_iff : c.Switches ↔ k.scheduled ≠ none := by
  constructor
  · intro hw hn
    apply hw.1
    rw [h.scheduled, hn]
    rfl
  · intro hs
    obtain ⟨t, ht⟩ := Option.ne_none_iff_exists'.1 hs
    have hmem : t ∈ l.tasks := hk.mem t (.inr (.inl ht))
    constructor
    · rw [h.scheduled, ht]
      exact l.ne_zero t hmem
    · intro he
      apply hk.apart t ht
      rw [h.scheduled, h.running, ht] at he
      refine (Layout.pointer_injective ?_ ?_ he).symm
      · rintro _ ⟨⟩
        exact hmem
      · exact fun x hx => hk.mem x (.inl hx)

theorem Realizes.scheduled_kind (hw : c.Switches) : c.KindKnown a c.scheduled := by
  obtain ⟨t, ht⟩ := Option.ne_none_iff_exists'.1 ((h.switches_iff hk).1 hw)
  rw [h.scheduled, ht]
  exact h.kinds t (hk.mem t (.inr (.inl ht)))

end Switch

theorem StacksApart.congr (h : StacksApart a l c) (hr : c'.running = c.running)
    (hpsp : c'.psp = c.psp) (hsp : ∀ task, c'.sp task = c.sp task)
    (hk : c'.stackKind = c.stackKind) (hlr : a = .m4 → c'.r .lr = c.r .lr) :
    StacksApart a l c' := by
  have harea : c'.saveArea a = c.saveArea a := by
    cases a with
    | m0 => simp [Cpu.saveArea, hpsp]
    | m4 => simp [Cpu.saveArea, hpsp, hlr rfl]
  intro t ht hne x hx
  rw [M4.returnRegs_congr (hsp _) (congrFun hk _)] at hx
  rw [hpsp, harea]
  exact h t ht (hr ▸ hne) x hx

theorem mem_frame_words {i b : Word} (hi : i = 0 ∨ i = 4) : b + i ∈ words b 2 := by
  rcases hi with rfl | rfl <;> simp [words]

section Frames
variable (h : Realizes a l k g c) (hk : Switchable l k) (hx : Exchanges a c c')
  (hap : StacksApart a l c)
  (hsaved : c.Switches → osiTaskReturnRegs a c' c.running = c.psp ∧ c'.KindKnown a c.running)

include h hk hx hsaved

theorem Realizes.exchange_frame (task : Word) : c'.frame a task = c.frame a task := by
  by_cases hw : c.Switches
  · have hrun : c'.running = c.scheduled := hx.running.trans (if_pos hw)
    by_cases hs : task = c.scheduled
    · have hne : c.running ≠ task := fun he => hw.2 (he.trans hs).symm
      rw [Cpu.frame, Cpu.frame, if_pos (hrun.trans hs.symm), if_neg hne, hs]
      exact hx.resumed hw (h.scheduled_kind hk hw)
    · rw [Cpu.frame, if_neg fun he => hs (he.symm.trans hrun)]
      by_cases hr : task = c.running
      · rw [Cpu.frame, if_pos hr.symm, hr]
        exact (hsaved hw).1
      · obtain ⟨hsp, hkind⟩ := hx.sp task fun _ => hr
        rw [Cpu.frame, if_neg fun he => hr he.symm]
        exact M4.returnRegs_congr hsp hkind
  · have hrun : c'.running = c.running := hx.running.trans (if_neg hw)
    obtain ⟨hsp, hkind⟩ := hx.sp task fun hw' => absurd hw' hw
    rw [Cpu.frame, Cpu.frame, hrun, hx.psp hw, M4.returnRegs_congr hsp hkind]

include hap

theorem Realizes.exchange_frameWord {i : Word} (ht : t ∈ l.tasks) (hi : i = 0 ∨ i = 4) :
    c'.frameWord a (l.address t) i = c.frameWord a (l.address t) i := by
  have hmem : c.frame a (l.address t) + i ∈ words (c.frame a (l.address t)) 2 :=
    mem_frame_words hi
  rw [Cpu.frameWord, h.exchange_frame hk hx hsaved]
  apply hx.mem
  intro _
  rw [Cpu.frame] at hmem ⊢
  split_ifs at hmem ⊢ with hr
  · exact notMem_saveArea (mem_frameWords hmem)
  · exact (hap t ht (fun he => hr he.symm) _ hmem).2

/-- A handler does the switch that the kernel asks for. -/
theorem Realizes.exchange : Realizes a l k.switched g c' := by
  have hregs : k.switched.regs = k.regs := by
    unfold Kernel.switched
    split_ifs <;> rfl
  have htasks : k.switched.tasks = k.tasks := by
    unfold Kernel.switched
    split_ifs <;> rfl
  have hsw := h.switches_iff hk
  constructor
  · rw [htasks]
    exact h.tasks
  · rw [hx.running]
    by_cases hs : k.scheduled = none
    · rw [if_neg fun hw => hsw.1 hw hs, Kernel.switched, if_pos hs]
      exact h.running
    · rw [if_pos (hsw.2 hs), Kernel.switched, if_neg hs]
      exact h.scheduled
  · rw [hx.scheduled]
    by_cases hs : k.scheduled = none
    · rw [if_neg fun hw => hsw.1 hw hs, Kernel.switched, if_pos hs]
      exact h.scheduled
    · rw [if_pos (hsw.2 hs), Kernel.switched, if_neg hs]
      rfl
  · intro t ht
    by_cases hr : c.Switches ∧ l.address t = c.running
    · rw [hr.2]
      exact (hsaved hr.1).2
    · rw [Cpu.KindKnown, (hx.sp _ fun hw he => hr ⟨hw, he⟩).2]
      exact h.kinds t ht
  · intro t ht call hg
    rw [h.exchange_frameWord hk hx hap hsaved ht (.inl rfl), hregs]
    exact h.status t ht call hg
  · intro t ht call hg hv
    rw [h.exchange_frameWord hk hx hap hsaved ht (.inr rfl), hregs]
    exact h.value t ht call hg hv

theorem Realizes.readBack : k.readBack l c c' = k.switched := by
  have hx' := h.exchange hk hx hap hsaved
  have hsw := h.switches_iff hk
  have hrun : l.task c'.running = k.switched.running := by
    rw [hx'.running]
    apply Layout.task_pointer
    intro t ht
    unfold Kernel.switched at ht
    split_ifs at ht
    · exact hk.mem t (.inl ht)
    · exact hk.mem t (.inr (.inl ht))
  have hsched : l.task c'.scheduled = k.switched.scheduled := by
    rw [hx'.scheduled]
    apply Layout.task_pointer
    intro t ht
    unfold Kernel.switched at ht
    split_ifs at ht
    exact hk.mem t (.inr (.inl ht))
  rw [Kernel.readBack, hrun, hsched]
  by_cases hs : k.scheduled = none
  · have hsame : c'.running = c.running := hx.running.trans (if_neg fun hw => hsw.1 hw hs)
    rw [Kernel.switched, if_pos hs, hsame]
    simp
  · have hne : c'.running ≠ c.running := by
      rw [hx.running, if_pos (hsw.2 hs)]
      exact (hsw.2 hs).2
    simp [Kernel.switched, hs, hne]

end Frames

theorem Realizes.carries (h : Realizes a l k g c) (hc : Carries a l k k' g' c c')
    (ht : k'.tasks = k.tasks) (hg : ∀ t call, g' t = some call → g t = some call) :
    Realizes a l k' g' c' := by
  constructor
  · rw [ht]
    exact h.tasks
  · exact hc.running
  · exact hc.scheduled
  · exact fun t ht => hc.kinds t ht (h.kinds t ht)
  · intro t ht call hcall
    rw [hc.status t ht call hcall]
    split_ifs with he
    · rw [he]
      exact h.status t ht call (hg t call hcall)
    · rfl
  · intro t ht call hcall hv
    rw [hc.value t ht call hcall hv]
    split_ifs with he
    · rw [he]
      exact h.value t ht call (hg t call hcall) hv
    · rfl

theorem Svc.value_of_returnsTuple (h : call.call k = .ok (k₁, status, value))
    (hv : call.returnsTuple) : value ≠ none := by
  cases call with
  | queueEnqueue | queueDequeue =>
    simp only [Svc.call, bind_eq_ok, pure_eq_ok, Prod.mk.injEq] at h
    obtain ⟨_, -, -, -, rfl⟩ := h
    exact Option.some_ne_none _
  | _ => cases hv

/-- `SVC_Handler` stores the answer in the frame of the caller and in no other one. -/
theorem Realizes.answers (h : Realizes a l k₁ (update g caller none) c₁)
    (hr : c₁.running = l.address caller) (ha : Answers a c c₁ c₂) (hap : StacksApart a l c₂)
    (h0 : c₁.r .r0 = BitVec.ofNat 32 status.code)
    (h1 : ∀ v ∈ value, c₁.r .r1 = BitVec.ofNat 32 v)
    (hv : call.returnsTuple → value ≠ none) (hc : caller ∈ l.tasks) :
    Realizes a l (k₁.returning caller status value) (update g caller (some call)) c₂ := by
  have hrun : c₂.running = c₁.running := by simp [Cpu.running, ha.osg, ha.field]
  have hsched : c₂.scheduled = c₁.scheduled := by simp [Cpu.scheduled, ha.osg, ha.field]
  have hregs (task : Word) : osiTaskReturnRegs a c₂ task = osiTaskReturnRegs a c₁ task := by
    apply M4.returnRegs_congr
    · simp [Cpu.sp, ha.field]
    · rw [ha.stackKind]
  have hframe (task : Word) : c₂.frame a task = c₁.frame a task := by
    rw [Cpu.frame, Cpu.frame, hrun, ha.psp, hregs]
  have hother {t : TaskId} {i : Word} (ht : t ∈ l.tasks) (hne : t ≠ caller)
      (hi : i = 0 ∨ i = 4) : c₂.frameWord a (l.address t) i = c₁.frameWord a (l.address t) i := by
    have hne' : l.address t ≠ c₁.running := fun he => hne (l.injective t ht caller hc (he.trans hr))
    rw [Cpu.frameWord, Cpu.frameWord, hframe, ha.mem]
    apply write_of_notMem
    rw [Cpu.frame, if_neg hne'.symm, ← hregs, ← ha.psp]
    exact (hap t ht (hrun ▸ hne') _ (mem_frame_words hi)).1
  have hown : c₂.frame a (l.address caller) = c₁.psp := by
    rw [hframe, Cpu.frame, if_pos hr]
  have hwrite : (words c₁.psp 3).map c₂.mem = [.r0, .r1, .r2].map c₁.r := by
    rw [ha.mem, map_write (nodup_words (by decide)) (by simp)]
  simp only [words, List.map_cons, List.cons.injEq] at hwrite
  obtain ⟨hw0, hw1, -⟩ := hwrite
  constructor
  · exact h.tasks
  · exact hrun.trans h.running
  · exact hsched.trans h.scheduled
  · intro t ht
    rw [Cpu.KindKnown, ha.stackKind]
    exact h.kinds t ht
  · intro t ht x hx
    by_cases hne : t = caller
    · subst hne
      rw [Cpu.frameWord, hown]
      simpa [Kernel.returning, hw0] using h0
    · rw [Function.update_of_ne hne] at hx
      rw [hother ht hne (.inl rfl), Kernel.returning]
      simp only [Function.update_of_ne hne]
      exact h.status t ht x (by rwa [Function.update_of_ne hne])
  · intro t ht x hx hxv
    by_cases hne : t = caller
    · subst hne
      rw [Function.update_self] at hx
      cases hx
      obtain ⟨v, rfl⟩ := Option.ne_none_iff_exists'.1 (hv hxv)
      rw [Cpu.frameWord, hown, hw1, h1 v rfl]
      simp [Kernel.returning]
    · rw [Function.update_of_ne hne] at hx
      rw [hother ht hne (.inr rfl), Kernel.returning]
      simp only [Function.update_of_ne hne]
      exact h.value t ht x (by rwa [Function.update_of_ne hne]) hxv

theorem Entered.congr (h : Entered c c₀) : c₀.running = c.running ∧ c₀.scheduled = c.scheduled ∧
    ∀ task, c₀.sp task = c.sp task := by
  refine ⟨?_, ?_, fun task => ?_⟩
  · simp [Cpu.running, h.osg, h.field]
  · simp [Cpu.scheduled, h.osg, h.field]
  · simp [Cpu.sp, h.field]

/-- The two steps of the kernel that a service call is: the answer, and the switch. -/
theorem svcHandler_returning (hr : k.running = some caller)
    (hcall : call.call k = .ok (k₁, status, value)) :
    svcHandler k call = .ok (k₁.returning caller status value) := by
  simp only [svcHandler, Kernel.self, hr, hcall, ok_bind]
  rfl

theorem Svc.call_tasks (hr : k.running = some caller)
    (hcall : call.call k = .ok (k₁, status, value)) : k₁.tasks = k.tasks := by
  have hrun : (Act.svc call).run k = .ok (k₁.returning caller status value) :=
    svcHandler_returning hr hcall
  exact (Act.run_effect hrun).tasks

theorem Realizes.svc (h : Realizes a l k g c) (hreach : machine.Reach ok k)
    (hs : k.scheduled = none) (hr : k.running = some caller)
    (hcall : call.call k = .ok (k₁, status, value)) (hok : ok k (.svc call))
    (himp : Implements a l p k k₁ (update g caller none) status value c)
    (hsup : a.Supports kind) (hlr : c.r .lr = kind.excReturn) (hap : StacksApart a l c)
    (hrun : Handler.svc.run a p c = some (c', e)) :
    machine.Reach ok (k₁.returning caller status value) ∧
      (k₁.returning caller status value).readBack l c c' =
          (k₁.returning caller status value).switched ∧
        Realizes a l (k₁.returning caller status value).switched (update g caller (some call))
          c' := by
  have hreach₁ : machine.Reach ok (k₁.returning caller status value) :=
    hreach.step hok ⟨hs, svcHandler_returning hr hcall⟩
  have hk := reach_switchable hreach h.tasks
  have htasks := Svc.call_tasks hr hcall
  have hmem : caller ∈ l.tasks := hk.mem caller (.inl hr)
  have hz : c.running ≠ 0 := h.running_ne_zero hk
  obtain ⟨c₀, c₁, c₂, hent, hserv, hans, hx⟩ := Handler.serves hrun
  obtain ⟨hcar, h0, h1⟩ := himp c₀ c₁ hent hserv
  obtain ⟨hrun₀, -, hsp₀⟩ := hent.congr
  have hcalls := p.service_calls _ _ _ hserv
  have hrun₁ : c₁.running = c.running := hcalls.running.trans hrun₀
  have hrun₂ : c₂.running = c₁.running := by simp [Cpu.running, hans.osg, hans.field]
  have hpsp₁ : c₁.psp = c.psp := hcalls.psp.trans hent.psp
  have hk₁ : c₁.stackKind = c.stackKind := hcalls.stackKind.trans hent.stackKind
  have hsp₁ (task : Word) : c₁.sp task = c.sp task := (hcalls.sp task).trans (hsp₀ task)
  have h₁ : Realizes a l k₁ (update g caller none) c₁ := by
    apply h.carries hcar htasks
    intro t x hx
    rw [Function.update_apply] at hx
    split_ifs at hx
    exact hx
  have hap₂ : StacksApart a l c₂ := by
    apply hap.congr (hrun₂.trans hrun₁) (hans.psp.trans hpsp₁) _ (hans.stackKind.trans hk₁) hans.lr
    intro task
    rw [← hsp₁]
    simp [Cpu.sp, hans.field]
  have hcaller : c₁.running = l.address caller := by
    rw [hrun₁, h.running, hr]
    rfl
  have h₂ := h₁.answers hcaller hans hap₂ h0 h1 (Svc.value_of_returnsTuple hcall) hmem
  have hk₂ : Switchable l (k₁.returning caller status value) := reach_switchable hreach₁ h₂.tasks
  have hsaved : c₂.Switches →
      osiTaskReturnRegs a c' c₂.running = c₂.psp ∧ c'.KindKnown a c₂.running := by
    intro hw
    rw [hrun₂, hrun₁, hans.psp, hpsp₁]
    apply Handler.saved hrun _ hz hsup fun _ => hlr
    rw [hx.running, if_pos hw, ← hrun₁, ← hrun₂]
    exact hw.2
  have hback := h₂.readBack hk₂ hx hap₂ hsaved
  rw [Kernel.readBack, hrun₂, hrun₁] at hback
  exact ⟨hreach₁, hback, h₂.exchange hk₂ hx hap₂ hsaved⟩

theorem steps_switched (hsw : ∀ k, ok k .contextSwitch) :
    machine.Steps ok k k.switched := by
  unfold Kernel.switched
  split_ifs with hs
  · exact .refl
  · exact .one (hsw k) ⟨hs, rfl⟩

theorem board_simulates (hsw : ∀ k, ok k .contextSwitch) :
    System.Simulation (board a l p) machine (Board.Meets ok) ok
      fun b k => b.kernel = k ∧ Realizes a l b.kernel b.inCall b.cpu := by
  constructor
  · rintro b ⟨hk, -, hr⟩
    exact ⟨b.kernel, hk, rfl, hr⟩
  · rintro b x b' _ - hreach ⟨rfl, h⟩ hok hstep
    cases hstep with
    | @svc k k₁ g c c' e caller call status value kind hs hr hcall himp hsup hlr hap hrun =>
      obtain ⟨hreach₁, hback, hreal⟩ :=
        h.svc hreach hs hr hcall (hok _ rfl) himp hsup hlr hap hrun
      refine ⟨(k₁.returning caller status value).switched, ?_, hback, hback ▸ hreal⟩
      have hone : machine.step k (.svc call) (k₁.returning caller status value) :=
        ⟨hs, svcHandler_returning hr hcall⟩
      exact (System.Steps.one (hok _ rfl) hone).trans (steps_switched hsw)
    | @pendSv k g c c' e kind hsup hlr hap hrun =>
      have hk := reach_switchable hreach h.tasks
      have hx := Handler.exchange hrun
      have hsaved : c.Switches →
          osiTaskReturnRegs a c' c.running = c.psp ∧ c'.KindKnown a c.running := by
        intro hw
        apply Handler.saved hrun _ (h.running_ne_zero hk) hsup fun _ => hlr
        rw [hx.running, if_pos hw]
        exact hw.2
      have hback := h.readBack hk hx hap hsaved
      exact ⟨k.switched, steps_switched hsw, hback,
        hback ▸ h.exchange hk hx hap hsaved⟩
    | @code k k' g c c' x hsvc hsw' hstep hc =>
      refine ⟨k', .one (hok _ rfl) hstep, rfl, h.carries hc (Act.run_effect hstep.2).tasks ?_⟩
      intro t call hg
      cases x with
      | taskStart =>
        simp only [Act.starting, Function.update_apply] at hg
        split_ifs at hg
        exact hg
      | _ => exact hg
    | @user k g c c' running hr hc =>
      refine ⟨k, .refl, rfl, h.carries hc rfl ?_⟩
      intro t call hg
      change update g running none t = some call at hg
      rw [Function.update_apply] at hg
      split_ifs at hg
      exact hg

/-- On every run of the processor the kernel is in a state that it reaches, and the processor shows
that state. -/
theorem board_realizes (hsw : ∀ k, ok k .contextSwitch)
    (h : (board a l p).Reach (Board.Meets ok) b) :
    machine.Reach ok b.kernel ∧ Realizes a l b.kernel b.inCall b.cpu := by
  obtain ⟨k, hk, rfl, hr⟩ := (board_simulates hsw).reach h
  exact ⟨hk, hr⟩

def twoBlocks : Layout where
  tasks := [0, 1]
  address t := if t = 0 then 0x100 else 0x200
  injective := by decide
  ne_zero := by decide

/-- A program whose service functions are the addresses of the tasks that they schedule, and which
return `OSS_ERROR_TO`. -/
def delayService : Program where
  stackCheck c := some c
  service f c := some { c with
    r := update c.r .r0 2
    field := update c.field .osgScheduled (update (c.field .osgScheduled) c.osg f) }
  stackCheck_calls := scheduleService.stackCheck_calls
  service_calls f c c' h := by
    cases h
    constructor <;> simp [Cpu.running, Cpu.sp, calleeSaved]

/-- The processor while the idle task at `0x100` runs. The frame of the task at `0x200` names a
service function that schedules the idle task. -/
def started (scheduled : Word) : Cpu where
  r n := if n = .lr then 0xFFFFFFFD else 11
  s i := i.val
  psp := 0x1000
  z := false
  primask := false
  fpccr := 0
  osg := 0x10
  field f a := match f with
    | .osgRunning => 0x100
    | .osgScheduled => scheduled
    | .taskSp => if a = 0x200 then 0x2000 else 0
  stackKind _ := 0
  mem a := if a = 0x2030 then 0x100 else 0
  main := []

theorem delayService_implements {status : Status} {value : Option Nat} (hr : c.running = 0x200)
    (hf : c.mem (c.psp + 16) = 0x100) (hrun : k₁.running = some 1) (hs : k₁.scheduled = some 0)
    (hst : status = .errorTo) (hv : value = none) (hg : ∀ t, g t = none) :
    Implements .m4 twoBlocks delayService k k₁ g status value c := by
  intro c₀ c₁ hent h
  obtain ⟨hr₀, -, -⟩ := hent.congr
  cases h
  refine ⟨?_, ?_, ?_⟩
  · constructor
    · rw [hrun]
      simpa [Cpu.running, twoBlocks, Layout.pointer] using hr₀.trans hr
    · rw [hs]
      simpa [Cpu.scheduled, twoBlocks, Layout.pointer] using hent.function.trans hf
    · intro t _ hk
      rw [Cpu.KindKnown] at hk ⊢
      rw [hent.stackKind]
      exact hk
    · intro t _ x hx
      cases (hg t).symm.trans hx
    · intro t _ x hx
      cases (hg t).symm.trans hx
  · rw [hst]
    rfl
  · rw [hv]
    intro v hv
    cases hv

theorem m4_supports : Arch.m4.Supports .basic := fun _ => rfl

theorem twoBlocks_stacksApart {c : Cpu} (other frame psp : Word)
    (hr : c.running = 0x100 ∧ other = 0x200 ∨ c.running = 0x200 ∧ other = 0x100)
    (hf : osiTaskReturnRegs .m4 c other = frame) (hpsp : c.psp = psp)
    (hlr : c.r .lr &&& 0x10 ≠ 0)
    (hap : ∀ x ∈ words frame 2, x ∉ words psp 3 ∧ x ∉ words (psp - 32) 8) :
    StacksApart .m4 twoBlocks c := by
  have harea : c.saveArea .m4 = words (c.psp - 32) 8 := if_neg fun h => hlr h.2
  have hother : ∀ t ∈ twoBlocks.tasks, twoBlocks.address t ≠ c.running →
      twoBlocks.address t = other := by
    rcases hr with ⟨hr, rfl⟩ | ⟨hr, rfl⟩ <;> rw [hr] <;> decide
  intro t ht hne x hx
  rw [hother t ht hne, hf] at hx
  rw [harea, hpsp]
  exact hap x hx

theorem started_switch : ∃ (c₁ c₂ : Cpu) (e₁ e₂ : Word),
    Handler.pendSv.run .m4 delayService (started 0x200) = some (c₁, e₁) ∧
      Handler.svc.run .m4 delayService c₁ = some (c₂, e₂) ∧
        c₁.running = 0x200 ∧ c₁.scheduled = 0 ∧ c₁.mem (c₁.psp + 16) = 0x100 ∧
          c₁.r .lr = 0xFFFFFFFD ∧ StacksApart .m4 twoBlocks c₁ ∧ c₂.running = 0x100 := by
  obtain ⟨⟨c₁, e₁⟩, ⟨c₂, e₂⟩, hc₁, hc₂, hlr, hrun⟩ : ∃ x y : Cpu × Word,
      Handler.pendSv.run .m4 delayService (started 0x200) = some x ∧
        Handler.svc.run .m4 delayService x.1 = some y ∧ x.1.r .lr = 0xFFFFFFFD ∧
          y.1.running = 0x100 := by
    refine ⟨_, _, rfl, rfl, by decide +kernel, rfl⟩
  have hw : (started 0x200).Switches := by decide
  have hx := Handler.exchange hc₁
  have hr₁ : c₁.running = 0x200 := hx.running.trans (if_pos hw)
  have hpsp : c₁.psp = 0x2020 := hx.resumed hw fun _ => .inl rfl
  have hne : c₁.running ≠ (started 0x200).running := by
    rw [hr₁]
    decide
  obtain ⟨hsaved, -⟩ := Handler.saved hc₁ hne (by decide) m4_supports fun _ => rfl
  refine ⟨c₁, c₂, e₁, e₂, hc₁, hc₂, hr₁, hx.scheduled.trans (if_pos hw), ?_, hlr, ?_, hrun⟩
  · rw [hpsp, hx.mem _ fun _ => by decide +kernel]
    rfl
  · apply twoBlocks_stacksApart 0x100 0x1000 0x2020 (.inr ⟨hr₁, rfl⟩) hsaved hpsp
    · rw [hlr]
      decide
    · simp [words]

theorem board_realizes_delay : ∃ b : Board,
    (board .m4 twoBlocks delayService).Reach (Board.Meets fun _ _ => True) b ∧
      b.kernel.running = some 0 ∧ b.inCall 1 = some (.delay 10) ∧
        (machine.Reach (fun _ _ => True) b.kernel ∧
          Realizes .m4 twoBlocks b.kernel b.inCall b.cpu) := by
  obtain ⟨k₀, hk₀, hr₀, hs₀, ht₀, h₀⟩ := exists_of_toOption_any
    (x := (Boot.simple [0, 16] (by decide)).start)
    (P := fun k => k.running = some 0 ∧ k.scheduled = none ∧ k.tasks = [1, 0] ∧
      (Act.schedule.run k).toOption.any fun k => k.running = some 0 ∧ k.scheduled = some 1 ∧
        ((Svc.delay 10).call { k with running := some 1, scheduled := none, pendSv := false }
          ).toOption.any fun r => r.1.running = some 1 ∧ r.1.scheduled = some 0 ∧
            r.2.1 = .errorTo ∧ r.2.2 = none) (by decide +kernel)
  obtain ⟨k₁, hk₁, hr₁, hs₁, h₁⟩ := exists_of_toOption_any h₀
  obtain ⟨⟨k₂, status, value⟩, hk₂, hr₂, hs₂, hst, hv⟩ := exists_of_toOption_any h₁
  obtain ⟨c₁, c₂, e₁, e₂, hc₁, hc₂, hrun₁, hsched₁, hf₁, hlr₁, hap₁, hrun₂⟩ :=
    started_switch
  have hinit : (board .m4 twoBlocks delayService).Reach (Board.Meets fun _ _ => True)
      ⟨k₀, fun _ => none, started 0⟩ := by
    refine .init ⟨⟨_, hk₀⟩, fun _ => rfl, ?_⟩
    constructor
    · rw [ht₀]
      decide
    · rw [hr₀]
      rfl
    · rw [hs₀]
      rfl
    · exact fun _ _ _ => .inl rfl
    · exact nofun
    · exact nofun
  have hschedule : (board .m4 twoBlocks delayService).Reach (Board.Meets fun _ _ => True)
      ⟨k₁, fun _ => none, started 0x200⟩ := by
    apply hinit.step (a := some .schedule) fun _ _ => trivial
    refine Board.Step.code (x := .schedule) ?_ ?_ ⟨trivial, hk₁⟩ ?_
    · exact nofun
    · exact nofun
    constructor
    · rw [hr₁]
      rfl
    · rw [hs₁]
      rfl
    · exact fun _ _ h => h
    · exact nofun
    · exact nofun
  have hback : k₁.readBack twoBlocks (started 0x200) c₁ =
      { k₁ with running := some 1, scheduled := none, pendSv := false } := by
    have hne : c₁.running ≠ (started 0x200).running := by
      rw [hrun₁]
      decide
    rw [Kernel.readBack, decide_eq_false hne, hrun₁, hsched₁, Bool.and_false]
    rfl
  have hswitch : (board .m4 twoBlocks delayService).Reach (Board.Meets fun _ _ => True)
      ⟨{ k₁ with running := some 1, scheduled := none, pendSv := false }, fun _ => none, c₁⟩ := by
    rw [← hback]
    apply hschedule.step (a := none) fun _ _ => trivial
    apply Board.Step.pendSv m4_supports rfl _ hc₁
    apply twoBlocks_stacksApart 0x200 0x2020 0x1000 (.inl ⟨rfl, rfl⟩) rfl rfl
    · decide
    · simp [words]
  have himp : Implements .m4 twoBlocks delayService
      { k₁ with running := some 1, scheduled := none, pendSv := false } k₂
      (update (fun _ => none) 1 none) status value c₁ := by
    apply delayService_implements hrun₁ hf₁ hr₂ hs₂ hst hv
    intro t
    rw [Function.update_apply, ite_self]
  have hstep : Board.Step .m4 twoBlocks delayService
      ⟨{ k₁ with running := some 1, scheduled := none, pendSv := false }, fun _ => none, c₁⟩ _ _ :=
    .svc rfl rfl hk₂ himp m4_supports hlr₁ hap₁ hc₂
  have hsvc := hswitch.step (fun _ _ => trivial) hstep
  refine ⟨_, hsvc, ?_, rfl, board_realizes (fun _ => trivial) hsvc⟩
  change twoBlocks.task c₂.running = some 0
  rw [hrun₂]
  rfl

end Osh
