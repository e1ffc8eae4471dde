import ChipEight.Clock
import ChipEight.Display
import ChipEight.Interpreter.Execute
import ChipEight.Keyboard
import ChipEight.Program
import ChipEight.Scheduler

/-!
# The workbench

A scheduler under a simulated clock, with devices that are chosen when it is set up, for looking at
a program from outside while it runs.  What the devices and the clock have recorded can be taken out
between any two operations.
-/

namespace ChipEight

/-! ## Devices chosen at run time -/

inductive Screen where
  | frame (f : Frame)
  | shared (s : SharedFrame)
  | console (c : Console Sink)

namespace Screen

def current : Screen → Frame
  | frame f => f
  | shared s => s.frame
  | console c => c.frame

/-- Change the frame without going through the display, as whoever paints it may. -/
def mapFrame (change : Frame → Frame) : Screen → Screen
  | frame f => frame (change f)
  | shared s => shared ⟨change s.frame⟩
  | console c => console { c with frame := change c.frame }

/-- Take out the text that was written since the last time. -/
def drain : Screen → String × Screen
  | console c =>
    let (text, out) := c.out.drain
    (text, console { c with out })
  | other => ("", other)

instance : Display Screen where
  clear
    | frame f => frame (Display.clear f)
    | shared s => shared (Display.clear s)
    | console c => console (Display.clear c)
  draw d sprite x y :=
    match d with
    | frame f => (Display.draw f sprite x y).map id frame
    | shared s => (Display.draw s sprite x y).map id shared
    | console c => (Display.draw c sprite x y).map id console
  poll
    | frame f => (Display.poll f).map id frame
    | shared s => (Display.poll s).map id shared
    | console c => (Display.poll c).map id console

end Screen

inductive KeyPanel where
  | script (s : KeyScript)
  | pad (p : Keypad)

namespace KeyPanel

def keys : KeyPanel → Keys
  | script s => s.keys
  | pad p => p.keys

def press (panel : KeyPanel) (k : Key) : KeyPanel :=
  match panel with
  | script s => script { s with keys := s.keys.press k }
  | pad p => pad (p.press k)

def release (panel : KeyPanel) (k : Key) : KeyPanel :=
  match panel with
  | script s => script { s with keys := s.keys.release k }
  | pad p => pad (p.release k)

/-- Lay down further answers to waits; a keypad has none. -/
def addAnswers (panel : KeyPanel) (answers : List (UInt8 × Nat)) : KeyPanel :=
  match panel with
  | script s => script { s with answers := s.answers ++ answers }
  | pad p => pad p

instance : Keyboard KeyPanel where
  isHeld panel k :=
    match panel with
    | script s => Keyboard.isHeld s k
    | pad p => Keyboard.isHeld p k
  await
    | script s => (Keyboard.await s).map id script
    | pad p => (Keyboard.await p).map id pad
  awaitTime
    | script s => Keyboard.awaitTime s
    | pad p => Keyboard.awaitTime p

end KeyPanel

inductive Voice where
  | mute
  | recorder (r : ToneRecorder)

namespace Voice

/-- Take out the durations of the tones since the last time. -/
def drain : Voice → List Nat × Voice
  | mute => ([], mute)
  | recorder r => (r.durations.toList, recorder {})

instance : Speaker Voice where
  tone v now duration :=
    match v with
    | mute => mute
    | recorder r => recorder (Speaker.tone r now duration)

end Voice

/-! ## The bench -/

abbrev Workbench := Scheduler SimulatedClock (Delayed Screen) KeyPanel Voice StdGen

/-- What was recorded since the last report. -/
structure Report where
  text : String
  tones : List Nat
  events : List Event
  sleeps : List Nat
  spins : Nat

namespace Workbench

def interpreter (w : Workbench) : Interpreter (Delayed Screen) KeyPanel Voice StdGen :=
  w.engine.interpreter

def machine (w : Workbench) : Machine := w.interpreter.machine

def frame (w : Workbench) : Frame := w.interpreter.display.inner.current

/-- Change the interpreter without letting time pass. -/
def edit (w : Workbench) (f : Interpreter (Delayed Screen) KeyPanel Voice StdGen →
    Interpreter (Delayed Screen) KeyPanel Voice StdGen) : Workbench :=
  { w with engine := { w.engine with interpreter := f w.engine.interpreter } }

/-- Take out all records. -/
def report (w : Workbench) : Report × Workbench :=
  let s := w.interpreter
  let (text, inner) := s.display.inner.drain
  let (tones, speaker) := s.speaker.drain
  ({ text, tones,
     events := s.journal.events.toList
     sleeps := w.clock.sleeps.toList
     spins := w.clock.spins },
   { engine := { w.engine with interpreter := { s with
       display := { s.display with inner }, speaker, journal := { s.journal with events := #[] } } }
     clock := { w.clock with sleeps := #[], spins := 0 } })

end Workbench

end ChipEight
