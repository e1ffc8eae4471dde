/-!
# Clocks

A clock tells the time in nanoseconds, and can be made to wait by sleeping, which is coarse, or by
spinning, which is fine.  Reading a clock and waiting on it may take any time, so each returns the
clock as it is afterwards.
-/

namespace ChipEight

class Clock (C : Type) where
  read : C → Nat × C
  /-- Sleep for about this long. -/
  sleep : C → Nat → C
  /-- One turn of a busy wait. -/
  spin : C → C
  /-- Let the time pass that something else takes. -/
  elapse : C → Nat → C

namespace Clock

/-- For how long a wait that begins at `now` sleeps: until `slack` before the deadline, if that is
still to come. -/
def sleepTime? (slack deadline now : Nat) : Option Nat :=
  if now + slack < deadline then some (deadline - now - slack) else none

variable {C : Type} [Clock C]

/-- Spin until the deadline is reached; the result has the reading that reached it.  There is no
result if the clock does not get there within `limit` readings. -/
def spinUntil (deadline : Nat) : Nat → C → Option (Nat × C)
  | 0, _ => none
  | limit + 1, c =>
    let (now, c) := read c
    if now < deadline then spinUntil deadline limit (spin c) else some (now, c)

/-- Wait for a deadline: sleep until `slack` before it, and spin for the rest.  The result has the
reading that ended the wait. -/
def waitUntil (limit slack deadline : Nat) (c : C) : Option (Nat × C) :=
  let (now, c) := read c
  let c := match sleepTime? slack deadline now with
    | some duration => sleep c duration
    | none => c
  spinUntil deadline limit c

end Clock

/-! ## Simulated clocks -/

/-- A clock whose time passes only by what is done with it.  Sleeps may come out longer or shorter
than asked for, by a fixed amount.  The clock keeps a record of its sleeps and spins. -/
structure SimulatedClock where
  time : Nat := 0
  /-- How long a reading takes, after the time has been read. -/
  readCost : Nat := 0
  /-- How long one turn of a busy wait takes. -/
  spinStep : Nat := 1000
  /-- By how much a sleep is too long; a negative number makes it too short. -/
  oversleep : Int := 0
  /-- The durations that were asked of sleeps, the first one first. -/
  sleeps : Array Nat := #[]
  spins : Nat := 0
  deriving DecidableEq

namespace SimulatedClock

def read (c : SimulatedClock) : Nat × SimulatedClock :=
  (c.time, { c with time := c.time + c.readCost })

def sleep (c : SimulatedClock) (duration : Nat) : SimulatedClock :=
  { c with
    time := c.time + (duration + c.oversleep).toNat
    sleeps := c.sleeps.push duration }

def spin (c : SimulatedClock) : SimulatedClock :=
  { c with time := c.time + c.spinStep, spins := c.spins + 1 }

def elapse (c : SimulatedClock) (duration : Nat) : SimulatedClock :=
  { c with time := c.time + duration }

instance : Clock SimulatedClock where
  read := read
  sleep := sleep
  spin := spin
  elapse := elapse

end SimulatedClock

end ChipEight
