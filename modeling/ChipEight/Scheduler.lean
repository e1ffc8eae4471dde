import ChipEight.Clock
import ChipEight.Interpreter.Execute

/-!
# Schedulers

Cycles are due one period apart.  A deadline is counted from the deadline before it, not from when
the cycle ended, so that cycles of uneven length do not shift the schedule.  A pacer that lags
behind by more than `maxLag` when a cycle begins drops its schedule and starts a new one at that
time.

An engine is an interpreter with a pacer.  A beat runs one cycle at a given time and says until when
to wait before the next.  A beat that fails leaves the schedule and the count of cycles as they
were.

A scheduler runs an engine by a clock.  One tick reads the clock, runs a cycle, lets the time pass
that the devices took, and waits for the cycle's deadline.  Waiting may never end; all runs
therefore have a limit on the readings of a single wait, and no result where a wait exceeds it.
-/

namespace ChipEight

/-! ## Pacers -/

structure Pacer where
  /-- The time from one cycle to the next. -/
  period : Nat
  /-- How long before a deadline a wait starts to spin. -/
  slack : Nat
  maxLag : Nat
  /-- When the next cycle is due; `none` before the first one. -/
  due? : Option Nat := none
  deriving DecidableEq

namespace Pacer

def ofOptions (o : Options) : Pacer where
  period := o.cpuPeriod
  slack := o.spinSlack
  maxLag := o.cpuPeriod * o.catchUpLimit.toNat

/-- When a cycle that begins at `now` was due; the first one is due when it begins. -/
def dueAt (p : Pacer) (now : Nat) : Nat := p.due?.getD now

def lag (p : Pacer) (now : Nat) : Nat := now - p.dueAt now

/-- Whether the schedule is dropped by a cycle that begins at `now`. -/
def drops (p : Pacer) (now : Nat) : Bool := p.maxLag < p.lag now

/-- The time from which the deadline of a cycle that begins at `now` is counted. -/
def anchor (p : Pacer) (now : Nat) : Nat := if p.drops now then now else p.dueAt now

/-- When the cycle after one that begins at `now` is due. -/
def deadline (p : Pacer) (now : Nat) : Nat := p.anchor now + p.period

end Pacer

/-! ## Engines -/

structure Engine (D K S G : Type) where
  interpreter : Interpreter D K S G
  pacer : Pacer
  /-- The number of cycles that have been completed. -/
  cycles : Nat := 0

namespace Engine

variable {D K S G : Type}

/-- Tell of a schedule that is dropped. -/
def noteLag (e : Engine D K S G) (now : Nat) : Interpreter D K S G :=
  if e.pacer.drops now then
    { e.interpreter with
      journal := e.interpreter.journal.note (.scheduleDropped (e.pacer.lag now)) }
  else e.interpreter

variable [Display D] [Keyboard K] [Speaker S] [Entropy G]

/-- Run one cycle that begins at `now`.  The result is the deadline of the wait that follows. -/
def beat (e : Engine D K S G) (now : Nat) : Except Failure Nat × Engine D K S G :=
  let deadline := e.pacer.deadline now
  match (e.noteLag now).perform (Interpreter.cycle now) with
  | (.error f, interpreter) => (.error f, { e with interpreter })
  | (.ok (), interpreter) =>
    (.ok deadline,
      { interpreter, pacer := { e.pacer with due? := some deadline }, cycles := e.cycles + 1 })

end Engine

/-! ## Schedulers -/

structure Scheduler (C D K S G : Type) where
  engine : Engine D K S G
  clock : C

namespace Scheduler

variable {C D K S G : Type} [Clock C]

/-- Run a command on the interpreter, and let the time pass that its devices take. -/
def act {α : Type} (s : Scheduler C D K S G) (command : Command D K S G α) :
    Except Failure α × Scheduler C D K S G :=
  let before := s.engine.interpreter.waited
  let (result, interpreter) := s.engine.interpreter.perform command
  (result, {
    engine := { s.engine with interpreter }
    clock := Clock.elapse s.clock (interpreter.waited - before) })

variable [Display D] [Keyboard K] [Speaker S] [Entropy G]

/-- Run one cycle and wait until the next one is due.  The result is the reading that ended the
wait.  A cycle that fails is not waited for. -/
def tick (limit : Nat) (s : Scheduler C D K S G) :
    Option (Except Failure Nat × Scheduler C D K S G) :=
  let before := s.engine.interpreter.waited
  let (now, clock) := Clock.read s.clock
  let (result, engine) := s.engine.beat now
  let clock := Clock.elapse clock (engine.interpreter.waited - before)
  match result with
  | .error f => some (.error f, { engine, clock })
  | .ok deadline =>
    (Clock.waitUntil limit engine.pacer.slack deadline clock).map fun (time, clock) ↦
      (.ok time, { engine, clock })

/-- Run a number of ticks, or fewer if one fails. -/
def runFor (limit : Nat) : Nat → Scheduler C D K S G →
    Option (Except Failure Unit × Scheduler C D K S G)
  | 0, s => some (.ok (), s)
  | n + 1, s =>
    match tick limit s with
    | none => none
    | some (.error f, s) => some (.error f, s)
    | some (.ok _, s) => runFor limit n s

/-- Run until a tick fails; the result is the failure.  There is none if none of the first `ticks`
ticks fails. -/
def run (limit : Nat) : Nat → Scheduler C D K S G → Option (Failure × Scheduler C D K S G)
  | 0, _ => none
  | ticks + 1, s =>
    match tick limit s with
    | none => none
    | some (.error f, s) => some (f, s)
    | some (.ok _, s) => run limit ticks s

end Scheduler

end ChipEight
