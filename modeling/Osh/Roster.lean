import Osh.FindTotal
import Osh.SleepRuns

namespace Osh
open Function (update)
open Lib

variable {k k' : Kernel} {s s' : Sched} {t x : TaskId} {a : Act} {ρ : Roster} {r w : List TaskId}

/-- What the scheduler keeps, without its links: the runnable tasks by priority, and the sleeping
tasks by deadline. -/
structure Roster where
  run : List TaskId
  wait : List TaskId
  status : TaskId → TaskStatus
  priority : TaskId → Nat
  delay : TaskId → Nat
  running : Option TaskId
  scheduled : Option TaskId
  uptime : Nat

namespace Roster

def Due (ρ : Roster) (t : TaskId) : Prop := ρ.delay t ≠ uint32Max ∧ ρ.uptime ≥ ρ.delay t

instance : Decidable (ρ.Due t) :=
  inferInstanceAs (Decidable (¬ ρ.delay t = uint32Max ∧ ρ.uptime ≥ ρ.delay t))

/-- `t` becomes runnable, behind the tasks of its priority. -/
def ready (ρ : Roster) (t : TaskId) : Roster :=
  { ρ with
    run := insertByPriority ρ.priority t ρ.run
    wait := ρ.wait.erase t
    status := update ρ.status t .idle }

def stop (ρ : Roster) (t : TaskId) (new : TaskStatus) : Roster :=
  { ρ with
    run := ρ.run.erase t
    wait := ρ.wait.erase t
    status := update ρ.status t new }

def sleep (ρ : Roster) (t : TaskId) (deadline : Nat) : Roster :=
  { ρ with
    run := ρ.run.erase t
    wait := insertByDelay (update ρ.delay t deadline) t ρ.wait
    status := update ρ.status t .wait
    delay := update ρ.delay t deadline }

/-- The sleeping task with the earliest deadline becomes runnable, if it is due. -/
def wake (ρ : Roster) : Roster :=
  match ρ.wait.find? fun x => ρ.Due x with
  | some t => ρ.ready t
  | none => ρ

def hand (ρ : Roster) (running t : TaskId) : Roster :=
  { ρ with
    run := if ρ.status t = .wait then insertByPriority ρ.priority t ρ.run else ρ.run
    wait := if ρ.status t = .wait then ρ.wait.erase t else ρ.wait
    status := update (update ρ.status running (ρ.status running).preempted) t .active
    delay := update ρ.delay t 0
    scheduled := some t }

/-- The task that is to follow `t`: the head of the run list if its priority is higher, the next
one of the same priority otherwise. -/
def successor (ρ : Roster) (t : TaskId) : Option TaskId :=
  if ∃ x ∈ ρ.run.head?, ρ.priority t < ρ.priority x then ρ.run.head?
  else if ∃ x ∈ ρ.run, ρ.priority x = ρ.priority t then
    (cyclicAfter t ρ.run).find? fun x => ρ.priority x = ρ.priority t
  else if (ρ.status t).isRunning then none
  else ρ.run.head?

def follow (ρ : Roster) (running : TaskId) : Roster :=
  match ρ.successor running with
  | some t => if running = t then ρ else ρ.hand running t
  | none => ρ

def schedule (ρ : Roster) : Roster :=
  match ρ.running with
  | none => ρ
  | some running =>
    if ρ.status running = .idle ∨ ρ.scheduled ≠ none then ρ else ρ.wake.follow running

def reschedule (ρ : Roster) : Roster := if ρ.scheduled = none then ρ.schedule else ρ

def handOver (ρ : Roster) (t : TaskId) : Roster :=
  match ρ.running with
  | none => ρ
  | some running =>
    if ∃ x ∈ ρ.run, ρ.priority x > ρ.priority t then
      (if (ρ.status t).isRunning then ρ else ρ.ready t).reschedule
    else if running = t then ρ
    else ρ.hand running t

/-- A reader is let in, which may be runnable already. -/
def letIn (ρ : Roster) (t : TaskId) : Roster :=
  if t ∈ ρ.run then { ρ with status := update ρ.status t .idle } else ρ.ready t

end Roster

/-- What the rest of the kernel asks of the scheduler. -/
inductive Order where
  | keep
  | sleep (ms : Nat)
  | abort
  | finish
  | handOver (t : TaskId)
  | letIn (t : TaskId)
  | start (t : TaskId) (priority : Nat)
  | suspend (t : TaskId)
  | resume (t : TaskId)
  | schedule
  | contextSwitch
  | clock (uptime : Nat)
  deriving DecidableEq, Repr

namespace Roster

def deadline (ρ : Roster) (ms : Nat) : Nat :=
  if ms = uint32Max then uint32Max else (ρ.uptime + ms) % 2 ^ 32

/-- The running task leaves the run list, and the scheduler looks for another one. -/
def leave (ρ : Roster) (f : Roster → TaskId → Roster) : Roster :=
  match ρ.running with
  | none => ρ
  | some running => (f ρ running).reschedule

def obey (ρ : Roster) : Order → Roster
  | .keep => ρ
  | .sleep ms => ρ.leave fun ρ t => ρ.sleep t (ρ.deadline ms)
  | .abort => ρ.leave fun ρ t => ρ.stop t .aborted
  | .finish =>
    match ρ.running with
    | none => ρ
    | some running => ρ.stop running .finished
  | .handOver t => ρ.handOver t
  | .letIn t => ρ.letIn t
  | .start t priority =>
    { ρ with
      priority := update ρ.priority t (priority % 2 ^ 8)
      delay := update ρ.delay t 0 }.ready t
  | .suspend t => ρ.stop t .suspended
  | .resume t => ρ.ready t
  | .schedule => ρ.schedule
  | .contextSwitch => { ρ with running := ρ.scheduled, scheduled := none }
  | .clock uptime => { ρ with uptime := uptime % 2 ^ 32 }

end Roster

end Osh
