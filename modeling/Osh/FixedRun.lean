import Osh.Machine

namespace Osh
open Lib

variable {k k' : Kernel}

/-- A program with one task for each priority, the first of which is the idle task, with stacks of
the minimal size, queues of two messages and semaphores without tokens. -/
def Boot.simple (priorities : List Nat) (h : priorities ≠ []) : Boot where
  tasks := priorities.zipIdx.map fun p => (p.2, {
    suspended := false
    params := 0
    stackSize := stackMinimumSize
    priority := p.1 })
  distinct := by
    simp only [List.map_map, Function.comp_def]
    rw [List.zipIdx_map_snd]
    exact List.nodup_range'
  nonempty := by simpa using h
  mutexes _ := ⟨0⟩
  queues _ := ⟨2, 0⟩
  semaphores _ := ⟨0, 0⟩
  rwlocks _ := ⟨0⟩

def Boot.withQueues (b : Boot) (d : QueueDefinition) : Boot := { b with queues := fun _ => d }

def runWith (ok : Kernel → Act → Prop) [∀ k a, Decidable (ok k a)] (k : Kernel) :
    List Act → Option Kernel
  | [] => some k
  | a :: rest =>
    if a.Enabled k ∧ ok k a then
      match a.run k with
      | .ok k => runWith ok k rest
      | .error _ => none
    else none

/-- The state of a program after a run, and the state before its start if there is no such run. -/
def Boot.after (b : Boot) (ok : Kernel → Act → Prop) [∀ k a, Decidable (ok k a)]
    (acts : List Act) : Option Kernel :=
  match b.start with
  | .ok k => runWith ok k acts
  | .error _ => none

section
variable {ok : Kernel → Act → Prop} [∀ k a, Decidable (ok k a)]

theorem runWith_reach {S : System Kernel Act} {acts : List Act} (hS : S.step = machine.step)
    (h : S.Reach ok k) (hr : runWith ok k acts = some k') : S.Reach ok k' := by
  induction acts generalizing k with
  | nil =>
    cases hr
    exact h
  | cons a rest ih =>
    rw [runWith] at hr
    split_ifs at hr with ha
    split at hr
    · rename_i k₁ hk₁
      have hs : S.step k a k₁ := hS ▸ ⟨ha.1, hk₁⟩
      exact ih (.step h ha.2 hs) hr
    · cases hr

theorem Boot.reach_after {b : Boot} {acts : List Act} (h : b.after ok acts = some k) :
    machine.Reach ok k := by
  unfold Boot.after at h
  split at h
  · rename_i k₀ hk₀
    exact runWith_reach rfl (.init ⟨b, hk₀⟩) h
  · cases h

end

/-- A fixed run that can be evaluated shows that such a state is reachable. -/
theorem Boot.exists_after (b : Boot) (ok : Kernel → Act → Prop) [∀ k a, Decidable (ok k a)]
    (P : Kernel → Prop) [DecidablePred P] (acts : List Act)
    (h : (b.after ok acts).any fun k => P k) : ∃ k, machine.Reach ok k ∧ P k := by
  obtain ⟨k, hk, hp⟩ := (Option.any_eq_true _ _).1 h
  exact ⟨k, Boot.reach_after hk, of_decide_eq_true hp⟩

theorem exists_of_toOption_any {α : Type*} {x : Except Stop α} {P : α → Prop} [DecidablePred P]
    (h : x.toOption.any fun y => P y) : ∃ y, x = .ok y ∧ P y := by
  cases x with
  | error e => cases h
  | ok y => exact ⟨y, rfl, of_decide_eq_true h⟩

def stopOf {α : Type*} : Except Stop α → Option Stop
  | .ok _ => none
  | .error e => some e

theorem eq_error_of_stopOf {α : Type*} {x : Except Stop α} {e : Stop} (h : stopOf x = some e) :
    x = .error e := by
  cases x with
  | error e' => exact congrArg Except.error (Option.some.inj h)
  | ok y => cases h

theorem Boot.exists_step (b : Boot) (ok : Kernel → Act → Prop) [∀ k a, Decidable (ok k a)]
    (P Q : Kernel → Prop) [DecidablePred P] [DecidablePred Q] (acts : List Act) (a : Act)
    (h : (b.after ok acts).any fun k =>
      P k ∧ a.Enabled k ∧ (a.run k).toOption.any fun k' => Q k') :
    ∃ k k', machine.Reach ok k ∧ machine.step k a k' ∧ P k ∧ Q k' := by
  obtain ⟨k, hk, hp⟩ := (Option.any_eq_true _ _).1 h
  obtain ⟨hp, he, hq⟩ := of_decide_eq_true hp
  obtain ⟨k', hr, hq⟩ := exists_of_toOption_any hq
  exact ⟨k, k', Boot.reach_after hk, ⟨he, hr⟩, hp, hq⟩

section Recorded
variable {η : Type} {record : η → Kernel → Act → Kernel → η} {ok : Kernel × η → Act → Prop}
  [∀ p a, Decidable (ok p a)]

/-- `runWith` with a history. -/
def runRecorded (record : η → Kernel → Act → Kernel → η) (ok : Kernel × η → Act → Prop)
    [∀ p a, Decidable (ok p a)] (k : Kernel) (e : η) : List Act → Option (Kernel × η)
  | [] => some (k, e)
  | a :: rest =>
    if a.Enabled k ∧ ok (k, e) a then
      match a.run k with
      | .ok k' => runRecorded record ok k' (record e k a k') rest
      | .error _ => none
    else none

def Boot.recorded (b : Boot) (start : η) (record : η → Kernel → Act → Kernel → η)
    (ok : Kernel × η → Act → Prop) [∀ p a, Decidable (ok p a)] (acts : List Act) :
    Option (Kernel × η) :=
  match b.start with
  | .ok k => runRecorded record ok k start acts
  | .error _ => none

theorem runRecorded_reach {S : System Kernel Act} {start e : η} {p : Kernel × η}
    {acts : List Act} (hS : S.step = machine.step)
    (h : (S.withHistory start record).Reach ok (k, e))
    (hr : runRecorded record ok k e acts = some p) : (S.withHistory start record).Reach ok p := by
  induction acts generalizing k e with
  | nil =>
    cases hr
    exact h
  | cons a rest ih =>
    rw [runRecorded] at hr
    split_ifs at hr with ha
    split at hr
    · rename_i k' hk'
      have hs : S.step k a k' := hS ▸ ⟨ha.1, hk'⟩
      exact ih (.step h ha.2 ⟨hs, rfl⟩) hr
    · cases hr

theorem Boot.exists_recorded (b : Boot) (start : η) (record : η → Kernel → Act → Kernel → η)
    (ok : Kernel × η → Act → Prop) [∀ p a, Decidable (ok p a)] (P : Kernel → η → Prop)
    [∀ k e, Decidable (P k e)] (acts : List Act)
    (h : (b.recorded start record ok acts).any fun p => P p.1 p.2) :
    ∃ k e, (machine.withHistory start record).Reach ok (k, e) ∧ P k e := by
  obtain ⟨p, hp, hP⟩ := (Option.any_eq_true _ _).1 h
  refine ⟨p.1, p.2, ?_, of_decide_eq_true hP⟩
  unfold Boot.recorded at hp
  split at hp
  · rename_i k hk
    exact runRecorded_reach rfl (.init ⟨⟨b, hk⟩, rfl⟩) hp
  · cases hp

theorem Boot.exists_recorded_from (b : Boot) (start : η) (record : η → Kernel → Act → Kernel → η)
    (ok : Kernel × η → Act → Prop) [∀ p a, Decidable (ok p a)] (P : Kernel → η → Prop)
    [∀ k e, Decidable (P k e)] (acts : List Act)
    (h : (b.recorded start record ok acts).any fun p => P p.1 p.2) :
    ∃ k₀ k e, b.start = .ok k₀ ∧
      ((machine.startingAt k₀).withHistory start record).Reach ok (k, e) ∧ P k e := by
  obtain ⟨p, hp, hP⟩ := (Option.any_eq_true _ _).1 h
  unfold Boot.recorded at hp
  split at hp
  · rename_i k₀ hk₀
    exact ⟨k₀, p.1, p.2, hk₀, runRecorded_reach rfl (.init ⟨rfl, rfl⟩) hp, of_decide_eq_true hP⟩
  · cases hp

end Recorded

end Osh
