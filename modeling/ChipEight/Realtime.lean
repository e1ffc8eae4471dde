import ChipEight.Clock
import ChipEight.Scheduler

/-!
# Running in real time

The clock of the computer, and an engine that is run by it.  What a beat does and when the next one
is due is decided by the engine, and how much of a wait is slept by `Clock.sleepTime?`.  This module
reads the clock, sleeps and spins as they say.
-/

namespace ChipEight.Realtime

/-- The time of the computer's monotonic clock, in nanoseconds. -/
def now : BaseIO Nat := IO.monoNanosNow

/-- Spin until a time has come. -/
def spinUntil (deadline : Nat) : BaseIO Unit := do
  while (← now) < deadline do
    pure ()

/-- Sleep for at least this long: whole milliseconds by sleeping and the rest by spinning. -/
def sleep (duration : Nat) : BaseIO Unit := do
  let wake := (← now) + duration
  IO.sleep (UInt32.ofNat (duration / 1000000))
  spinUntil wake

/-- Wait for a deadline: sleep until `slack` before it, and spin for the rest. -/
def waitUntil (slack deadline : Nat) : BaseIO Unit := do
  match Clock.sleepTime? slack deadline (← now) with
  | some duration => sleep duration
  | none => pure ()
  spinUntil deadline

variable {D K S G : Type} [Display D] [Keyboard K] [Speaker S] [Entropy G]

/-- Run a number of cycles, or fewer if one fails. -/
def runFor : Nat → Engine D K S G → BaseIO (Except Failure Unit × Engine D K S G)
  | 0, e => pure (.ok (), e)
  | n + 1, e => do
    match e.beat (← now) with
    | (.error f, e) => pure (.error f, e)
    | (.ok deadline, e) =>
      waitUntil e.pacer.slack deadline
      runFor n e

end ChipEight.Realtime
