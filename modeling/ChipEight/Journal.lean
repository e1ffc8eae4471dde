import ChipEight.Instruction

/-!
# The journal

Events worth telling about have a level of detail.  A journal keeps, in order, those that its limit
admits, and without a limit it keeps none.
-/

namespace ChipEight

inductive Level where
  | warning
  | info
  | debug
  | trace
  deriving DecidableEq

namespace Level

/-- How much detail the level stands for. -/
def detail : Level → Nat
  | warning => 2
  | info => 3
  | debug => 4
  | trace => 5

def text : Level → String
  | warning => "WARN"
  | info => "INFO"
  | debug => "DEBUG"
  | trace => "TRACE"

end Level

inductive Event where
  /-- A call into the machine code of the host was left out. -/
  | routineIgnored (routine : Address)
  | programLoaded (size : Nat)
  | soundSet (count : UInt8) (duration : Nat)
  /-- A scheduler lagged behind by more than its limit. -/
  | scheduleDropped (lag : Nat)
  /-- An instruction is about to be executed. -/
  | stepping (pc : Address) (i : Instruction)
  deriving DecidableEq

namespace Event

def level : Event → Level
  | routineIgnored _ => .warning
  | programLoaded _ => .info
  | soundSet _ _ | scheduleDropped _ => .debug
  | stepping _ _ => .trace

def message : Event → String
  | routineIgnored routine => "ignoring machine code routine at " ++ routine.text
  | programLoaded size => "loaded program of " ++ Nat.repr size ++ " bytes"
  | soundSet count duration =>
    "sound timer set to " ++ Nat.repr count.toNat ++ ", sounding for " ++ Nat.repr duration ++ " ns"
  | scheduleDropped lag =>
    "fell " ++ Nat.repr lag ++ " ns behind schedule; restarting from the current time"
  | stepping pc i => pc.text ++ ": " ++ i.mnemonic

/-- The event as a line of text. -/
def line (e : Event) : String := e.level.text ++ ": " ++ e.message

end Event

structure Journal where
  limit : Option Level := none
  /-- The events kept, the first one first. -/
  events : Array Event := #[]

namespace Journal

def admits (j : Journal) (e : Event) : Bool :=
  match j.limit with
  | none => false
  | some limit => e.level.detail ≤ limit.detail

def note (j : Journal) (e : Event) : Journal :=
  if j.admits e then { j with events := j.events.push e } else j

end Journal

end ChipEight
