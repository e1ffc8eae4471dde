import ChipEight.Devices
import ChipEight.Journal
import ChipEight.Machine
import ChipEight.Timing

/-!
# Interpreters

An interpreter is a machine with its two timers and with the devices it drives: a display, a
keyboard, a speaker and a source of random bytes.  It never reads a clock.  Where the time matters,
the time is an argument, and what the devices take of it is added up in `waited`.

A `Command` keeps the interpreter when it fails, as the parts of an instruction that came before the
fault stay done.
-/

namespace ChipEight

structure Interpreter (D K S G : Type) where
  machine : Machine := .initial
  delay : Countdown
  sound : Countdown
  display : D
  keyboard : K
  speaker : S
  entropy : G
  /-- For how long the devices have kept the interpreter waiting, in nanoseconds. -/
  waited : Nat := 0
  journal : Journal := {}

/-- A change of an interpreter that may fail. -/
abbrev Command (D K S G α : Type) := EStateM Failure (Interpreter D K S G) α

namespace Command

variable {D K S G : Type}

def note (e : Event) : Command D K S G Unit :=
  modify fun s ↦ { s with journal := s.journal.note e }

/-- Change the machine. -/
def alter (f : Machine → Machine) : Command D K S G Unit :=
  modify fun s ↦ { s with machine := f s.machine }

/-- Stop with a fault. -/
def stop {α : Type} (context : Option Context) (fault : Fault) : Command D K S G α :=
  throw { fault, context }

/-- Change the machine by an operation that may fault. -/
def attempt (context : Option Context) (f : Machine → Except Fault Machine) :
    Command D K S G Unit := do
  match f (← get).machine with
  | .error fault => stop context fault
  | .ok m => alter fun _ ↦ m

end Command

namespace Interpreter

variable {D K S G : Type}

/-- An interpreter with a fresh machine and resting timers. -/
def ofOptions (o : Options) (display : D) (keyboard : K) (speaker : S) (entropy : G) :
    Interpreter D K S G where
  delay := Countdown.ofRate o.timerRate
  sound := Countdown.ofRate o.timerRate
  display := display
  keyboard := keyboard
  speaker := speaker
  entropy := entropy

/-- Outcome and interpreter after a command. -/
def perform {α : Type} (s : Interpreter D K S G) (command : Command D K S G α) :
    Except Failure α × Interpreter D K S G :=
  match command.run s with
  | .ok a s => (.ok a, s)
  | .error f s => (.error f, s)

section Perform

variable {α β : Type} (s : Interpreter D K S G)

@[simp] theorem perform_pure (a : α) : s.perform (pure a) = (.ok a, s) := rfl

theorem perform_bind (command : Command D K S G α) (next : α → Command D K S G β) :
    s.perform (command >>= next) =
      match s.perform command with
      | (.ok a, t) => t.perform (next a)
      | (.error f, t) => (.error f, t) := by
  change (match EStateM.bind command next s with
    | .ok a t => (Except.ok a, t)
    | .error f t => (.error f, t)) = _
  unfold EStateM.bind perform EStateM.run
  cases command s <;> rfl

@[simp] theorem perform_get : s.perform (get : Command D K S G _) = (.ok s, s) := rfl

@[simp] theorem perform_set (t : Interpreter D K S G) :
    s.perform (set t : Command D K S G _) = (.ok ⟨⟩, t) := rfl

@[simp] theorem perform_modify (f : Interpreter D K S G → Interpreter D K S G) :
    s.perform (modify f : Command D K S G _) = (.ok ⟨⟩, f s) := rfl

@[simp] theorem perform_alter (f : Machine → Machine) :
    s.perform (Command.alter f) = (.ok (), { s with machine := f s.machine }) := rfl

@[simp] theorem perform_note (e : Event) :
    s.perform (Command.note e) = (.ok (), { s with journal := s.journal.note e }) := rfl

@[simp] theorem perform_stop (context : Option Context) (fault : Fault) :
    s.perform (Command.stop context fault : Command D K S G α) =
      (.error { fault, context }, s) := rfl

/-- An operation that faults leaves the interpreter as it was. -/
theorem perform_attempt (context : Option Context) (f : Machine → Except Fault Machine) :
    s.perform (Command.attempt context f) =
      match f s.machine with
      | .ok m => (.ok (), { s with machine := m })
      | .error fault => (.error { fault, context }, s) := by
  unfold Command.attempt
  rw [perform_bind, perform_get]
  cases h : f s.machine <;> simp [h]

end Perform

end Interpreter

end ChipEight
