import Osh.BootSpec
import Osh.FixedRun
import Osh.Turns
import Mathlib.Data.Nat.ModEq

namespace Osh
open Function (update)
open Lib

variable {k k' k₀ : Kernel} {s s' : Sched} {t x r : TaskId} {a : Act}

section Account

/-- The time from one value of a 32-bit counter to another, less than a wrap later. -/
def elapsed (since now : Nat) : Nat := (now + 2 ^ 32 - since) % 2 ^ 32

/-- What `osi_dispatch` credits the running task with: a stamp of 0 stands for a task that was not
dispatched. -/
theorem dispatchAccount_runtime : (dispatchAccount s r t).runtime x =
    if x = r ∧ s.scheduledAt r > 0 then
      (s.runtime x + elapsed (s.scheduledAt x) s.micros) % 2 ^ 32 else s.runtime x := by
  unfold dispatchAccount
  by_cases hs : s.scheduledAt r > 0
  · by_cases hx : x = r
    · simp [hs, hx, elapsed]
    · simp [hs, hx]
  · simp [hs]

theorem dispatchAccount_scheduledAt : (dispatchAccount s r t).scheduledAt x =
    if x = t then s.micros else if x = r then 0 else s.scheduledAt x := by
  unfold dispatchAccount
  by_cases hs : s.scheduledAt r > 0
  · simp [hs, Function.update_apply]
  · simp only [hs, if_false, Function.update_apply]
    split_ifs with hxt hxr
    · rfl
    · rw [hxr]
      omega
    · rfl

end Account

section Dispatches

structure Dispatch where
  micros : Nat
  task : TaskId
  deriving DecidableEq, Repr

/-- The sum of the intervals between the dispatches of `log`, the latest first, that begin with one
which meets `p`. -/
def timeIn (p : Dispatch → Bool) : List Dispatch → Nat
  | later :: d :: log => (if p d then elapsed d.micros later.micros else 0) + timeIn p (d :: log)
  | _ => 0

/-- The time in which `t` was the dispatched task. -/
def runTime (t : TaskId) (log : List Dispatch) : Nat := timeIn (fun d => d.task = t) log

/-- The part of it in intervals that began when `os_micros` was 0. -/
def lostTime (t : TaskId) (log : List Dispatch) : Nat :=
  timeIn (fun d => d.task = t ∧ d.micros = 0) log

/-- The stamps that the last dispatch leaves. -/
def stampOf (t : TaskId) : List Dispatch → Nat
  | [] => 0
  | d :: _ => if t = d.task then d.micros else 0

def recordDispatch (log : List Dispatch) (k : Kernel) (_ : Act) (k' : Kernel) : List Dispatch :=
  match k.scheduled, k'.scheduled with
  | none, some t => ⟨k.micros, t⟩ :: log
  | _, _ => log

end Dispatches

/-- A dispatch waits for the switch that is pending. -/
def Act.AwaitsSwitch (k : Kernel) (a : Act) : Prop := k.scheduled = none ∨ ¬ a.Preempts k

theorem balance_credit {run lost base all e : Nat} (h : run + lost ≡ base + all [MOD 2 ^ 32]) :
    (run + e) % 2 ^ 32 + lost ≡ base + (e + all) [MOD 2 ^ 32] := by
  unfold Nat.ModEq at h ⊢
  omega

theorem balance_debit {run lost base all e : Nat} (h : run + lost ≡ base + all [MOD 2 ^ 32]) :
    run + (e + lost) ≡ base + (e + all) [MOD 2 ^ 32] := by
  rw [Nat.add_left_comm run, Nat.add_left_comm base]
  exact h.add_left e

/-- The accounts after the dispatches `log`, which began in `k₀`. -/
structure Accounts (k₀ k : Kernel) (log : List Dispatch) : Prop where
  stamps : ∀ x, k.scheduledAt x = stampOf x log
  next : ∀ d ∈ log.head?, k.next = some d.task
  balance : ∀ x, k.runtime x + lostTime x log ≡ k₀.runtime x + runTime x log [MOD 2 ^ 32]

namespace Accounts
variable {log : List Dispatch}

theorem keep (h : Accounts k₀ k log) (hn : k'.next = k.next) (hs : k'.scheduledAt = k.scheduledAt)
    (hr : k'.runtime = k.runtime) : Accounts k₀ k' log := by
  constructor
  · intro x
    rw [hs]
    exact h.stamps x
  · intro d hd
    rw [hn]
    exact h.next d hd
  · intro x
    rw [hr]
    exact h.balance x

theorem dispatch (h : Accounts k₀ k log) (hs : k.scheduled = none) (hr : k.running = some r)
    (hd : Requeued { dispatchAccount k.toSched r t with scheduled := some t } k'.toSched) :
    Accounts k₀ k' (⟨k.micros, t⟩ :: log) := by
  have hlast : ∀ d ∈ log.head?, d.task = r := by
    intro d hd
    have hnext := h.next d hd
    rw [next_of_none hs, hr] at hnext
    exact (Option.some.inj hnext).symm
  constructor
  · intro x
    have hst : k'.scheduledAt x = (dispatchAccount k.toSched r t).scheduledAt x :=
      congrFun hd.scheduledAt x
    rw [hst, dispatchAccount_scheduledAt, h.stamps x]
    by_cases hxt : x = t
    · simp [stampOf, hxt]
    · by_cases hxr : x = r
      · simp [stampOf, hxr]
      · cases log with
        | nil => simp [stampOf, hxt]
        | cons d log =>
          obtain rfl : d.task = r := hlast d rfl
          simp [stampOf, hxt, hxr]
  · intro d hd'
    obtain rfl : _ = d := Option.some.inj hd'
    exact next_of_scheduled hd.scheduled
  · intro x
    have hrun : k'.runtime x = (dispatchAccount k.toSched r t).runtime x :=
      congrFun hd.runtime x
    have hbal := h.balance x
    rw [hrun, dispatchAccount_runtime, h.stamps x, h.stamps r]
    cases log with
    | nil =>
      have hzero : stampOf r [] = 0 := rfl
      rw [hzero, if_neg (by omega)]
      exact hbal
    | cons d log =>
      obtain rfl : d.task = r := hlast d rfl
      simp only [lostTime, runTime, timeIn, stampOf, if_true, decide_eq_true_eq]
      by_cases hx : x = d.task
      · subst hx
        by_cases hz : d.micros = 0
        · -- the stamp says that the task was not dispatched: its time is lost
          simp only [hz, lt_irrefl, and_false, and_self, if_false, if_true]
          exact balance_debit hbal
        · have hpos : d.micros > 0 := Nat.pos_of_ne_zero hz
          simp only [hz, hpos, and_false, and_self, if_false, if_true, Nat.zero_add]
          exact balance_credit hbal
      · have hx' : d.task ≠ x := Ne.symm hx
        simp only [hx, hx', false_and, if_false, Nat.zero_add]
        exact hbal

/-- Every step that dispatches no task while a switch is pending keeps the accounts. -/
theorem step (h : Accounts k₀ k log) (hs : machine.step k a k') (hr : ¬ a.restarts)
    (ha : a.AwaitsSwitch k) : Accounts k₀ k' (recordDispatch log k a k') := by
  have hrec (hsched : k'.scheduled = k.scheduled ∨ k'.scheduled = none) :
      recordDispatch log k a k' = log := by
    unfold recordDispatch
    split
    · rename_i hk hk'
      rcases hsched with he | he
      · cases hk.symm.trans (he.symm.trans hk')
      · cases he.symm.trans hk'
    · rfl
  cases (Act.run_effect hs.2).turn with
  | step hacc =>
    cases hacc with
    | same hq =>
      rw [hrec (.inl hq.scheduled)]
      apply h.keep
      · simp only [Sched.next, hq.scheduled, hq.running]
      · exact hq.scheduledAt
      · exact hq.runtime
    | @dispatched r t hn hrun hne hq =>
      have hn' : k.scheduled = none := by
        rcases hn with hn | hp
        · exact hn
        · exact ha.resolve_right fun hna => hna hp
      have hsome : k'.scheduled = some t := hq.scheduled
      have hlog : recordDispatch log k a k' = ⟨k.micros, t⟩ :: log := by
        simp only [recordDispatch, hn', hsome]
      rw [hlog]
      exact h.dispatch hn' hrun hq
  | contextSwitch hk =>
    have hnone : k'.scheduled = none := by rw [hk]
    rw [hrec (.inr hnone)]
    obtain ⟨n, hn⟩ := Option.ne_none_iff_exists'.1 hs.1
    apply h.keep
    · rw [next_of_none hnone, next_of_scheduled hn, hk]
      exact hn
    · rw [hk]
    · rw [hk]
  | clock hk =>
    rw [hrec (.inl (by rw [hk]))]
    apply h.keep
    · rw [hk]
      rfl
    · rw [hk]
    · rw [hk]
  | restart => exact absurd rfl hr

end Accounts

theorem machine_init_accounts (hk : machine.init k) : k.scheduledAt x = 0 ∧ k.runtime x = 0 := by
  obtain ⟨b, hb⟩ := hk
  obtain ⟨k₀, i, hI, -, rfl⟩ := b.start_invariant
    (I := fun k => ∀ x, k.scheduledAt x = 0 ∧ k.runtime x = 0) hb (fun _ => ⟨rfl, rfl⟩)
    fun k t options k' _ _ hst hk hinit => by
      obtain ⟨-, s, hs, rfl⟩ := osTaskInitializeOptions_cases hst hinit
      have hq : Requeued (k.created t options) s := (joinRunqueue_rethreaded hs).requeued
      have hat : s.scheduledAt = update k.scheduledAt t 0 := hq.scheduledAt
      have hrun : s.runtime = update k.runtime t 0 := hq.runtime
      intro x
      dsimp only
      rw [hat, hrun, Function.update_apply, Function.update_apply]
      split_ifs
      · exact ⟨rfl, rfl⟩
      · exact hk x
  exact hI x

abbrev dispatchMachine (k₀ : Kernel) : System (Kernel × List Dispatch) Act :=
  (machine.startingAt k₀).withHistory [] recordDispatch

/-- In a run that restarts no task and makes every switch before the next dispatch, the run time of
a task is the time in which it was dispatched exactly if the intervals of it that began when
`os_micros` was 0 add up to nothing. -/
theorem runtime_exact_iff {log : List Dispatch} (hk₀ : machine.init k₀)
    (h : (dispatchMachine k₀).Reach (fun p a => ¬ a.restarts ∧ a.AwaitsSwitch p.1) (k, log))
    (t : TaskId) : k.runtime t ≡ k₀.runtime t + runTime t log [MOD 2 ^ 32] ↔
      lostTime t log ≡ 0 [MOD 2 ^ 32] := by
  have hacc : Accounts k₀ k log := by
    refine h.history_invariant (J := Accounts k₀) ?_ ?_
    · rintro _ rfl
      exact ⟨fun x => (machine_init_accounts hk₀).1, nofun, fun x => rfl⟩
    · intro k log a k' _ hacc ha hs
      exact hacc.step hs ha.1 ha.2
  have hbal := hacc.balance t
  constructor
  · intro hrun
    exact Nat.ModEq.add_left_cancel' (k.runtime t) (hbal.trans hrun.symm)
  · intro hlost
    exact (hlost.symm.add_left (k.runtime t)).trans hbal

theorem lostTime_eq_zero {log : List Dispatch} (h : ∀ d ∈ log, d.micros ≠ 0) :
    lostTime t log = 0 := by
  induction log with
  | nil => rfl
  | cons later log ih =>
    cases log with
    | nil => rfl
    | cons d log =>
      have hd : d.micros ≠ 0 := h d (by simp)
      have hrest : lostTime t (d :: log) = 0 := ih fun x hx => h x (List.mem_cons_of_mem _ hx)
      unfold lostTime at hrest ⊢
      rw [timeIn, hrest]
      simp [hd]

set_option maxRecDepth 10000 in
theorem runtime_exact_over_wrap : ∃ k₀ k : Kernel, k₀.runtime 1 = 0 ∧ k.scheduled = some 0 ∧
    k.runtime 1 ≡ k₀.runtime 1 + 120 [MOD 2 ^ 32] := by
  obtain ⟨k₀, k, log, hb, hr, hs, hrun, hlog⟩ :=
    (Boot.simple [0, 16] (by simp)).exists_recorded_from [] recordDispatch
      (fun p a => ¬ a.restarts ∧ (p.1.scheduled = none ∨ a = .contextSwitch))
      (fun k log => k.scheduled = some 0 ∧ runTime 1 log = 120 ∧ ∀ d ∈ log, d.micros ≠ 0)
      [.clock 1 (2 ^ 32 - 20), .systick, .contextSwitch, .clock 2 (2 ^ 32 + 100),
        .svc (.delay 5)] (by decide)
  have hk₀ : machine.init k₀ := ⟨_, hb⟩
  have hreach : (dispatchMachine k₀).Reach
      (fun p a => ¬ a.restarts ∧ a.AwaitsSwitch p.1) (k, log) := by
    refine hr.mono fun p a ha => ⟨ha.1, ha.2.imp_right ?_⟩
    rintro rfl ⟨x, hx, -⟩
    cases hx
  have h := (runtime_exact_iff hk₀ hreach 1).2 (by rw [lostTime_eq_zero hlog])
  rw [hrun] at h
  exact ⟨k₀, k, (machine_init_accounts hk₀).2, hs, h⟩

set_option maxRecDepth 10000 in
/-- A task that is dispatched when the clock wraps to 0 is credited with nothing. -/
theorem runtime_lost : ∃ (k₀ k : Kernel) (log : List Dispatch), machine.init k₀ ∧
    (dispatchMachine k₀).Reach (fun p a => ¬ a.restarts ∧ a.AwaitsSwitch p.1) (k, log) ∧
    runTime 1 log = 100 ∧ ¬ k.runtime 1 ≡ k₀.runtime 1 + runTime 1 log [MOD 2 ^ 32] := by
  obtain ⟨k₀, k, log, hb, hr, hrun, hzero⟩ :=
    (Boot.simple [0, 16] (by simp)).exists_recorded_from [] recordDispatch
      (fun p a => ¬ a.restarts ∧ (p.1.scheduled = none ∨ a = .contextSwitch))
      (fun k log => runTime 1 log = 100 ∧ k.runtime 1 = 0)
      [.clock 1 (2 ^ 32), .systick, .contextSwitch, .clock 2 (2 ^ 32 + 100), .svc (.delay 5)]
      (by decide)
  have hk₀ : machine.init k₀ := ⟨_, hb⟩
  refine ⟨k₀, k, log, hk₀, hr.mono fun p a ha => ⟨ha.1, ha.2.imp_right ?_⟩, hrun, ?_⟩
  · rintro rfl ⟨x, hx, -⟩
    cases hx
  · rw [hrun, hzero, (machine_init_accounts hk₀).2]
    decide

end Osh
