/-!
# Rates and countdown timers

Rates are in hertz and durations in nanoseconds.  A rate of zero counts as one.

The delay and sound timers hold a byte that counts down to zero, one step per period.  A timer does
not read a clock: whoever polls it passes the time.  A poll takes at most one step, and the next
step falls due one period after the last one *was due*, so a late poll does not shift the steps
that follow it.
-/

namespace ChipEight

/-! ## Options -/

/-- One second, in nanoseconds. -/
def second : Nat := 1000000000

/-- The length of one period at a rate, in whole nanoseconds. -/
def periodOf (rate : UInt32) : Nat := second / max rate.toNat 1

structure Options where
  /-- Instructions per second. -/
  cpuRate : UInt32 := 512
  /-- Steps per second of the delay and sound timers. -/
  timerRate : UInt32 := 60
  /-- How long before a deadline a wait stops sleeping and starts to spin. -/
  spinSlack : Nat := 500000
  /-- How many cycles a scheduler may lag behind before it gives up its schedule. -/
  catchUpLimit : UInt32 := 64
  deriving DecidableEq

namespace Options

/-- Options for runs under a simulated clock: no spinning, and lag is always caught up. -/
def simulated : Options where
  spinSlack := 0
  catchUpLimit := 0xFFFFFFFF

def cpuPeriod (o : Options) : Nat := periodOf o.cpuRate

def timerPeriod (o : Options) : Nat := periodOf o.timerRate

end Options

/-! ## Countdown timers -/

structure Countdown where
  /-- The time between two steps. -/
  period : Nat
  count : UInt8 := 0
  /-- When the count was last set. -/
  setAt : Nat := 0
  /-- When the next step is due. -/
  due : Nat := 0
  deriving DecidableEq

namespace Countdown

/-- A timer that rests at zero. -/
def ofRate (rate : UInt32) : Countdown where
  period := periodOf rate

/-- Set the count; the first step is due one period later. -/
def set (t : Countdown) (count : UInt8) (now : Nat) : Countdown :=
  { t with count, setAt := now, due := now + t.period }

/-- Take one step if the timer is running and the step is due. -/
def poll (t : Countdown) (now : Nat) : Countdown :=
  if 0 < t.count ∧ t.due ≤ now then
    { t with count := t.count - 1, due := t.due + t.period }
  else t

theorem period_poll (t : Countdown) (now : Nat) : (t.poll now).period = t.period := by
  unfold poll
  split <;> rfl

end Countdown

end ChipEight
