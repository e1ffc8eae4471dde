import ChipEight.Instruction

/-!
# Faults

A `Fault` is the cause for which the machine stops, and a `Failure` is a fault together with what
was being done, if that is worth saying.  The text of a failure is that of its context if it has
one; the fault's own text then follows as the cause.
-/

namespace ChipEight

inductive Fault where
  /-- The opcode at `pc` is not in the instruction table. -/
  | malformed (op : Opcode) (pc : Address)
  /-- A call with the stack already full. -/
  | stackOverflow (depth : Nat)
  /-- A return with nothing on the stack. -/
  | stackUnderflow
  /-- A place outside of memory, or one at which no instruction may start. -/
  | outOfRange (place : Nat)
  /-- An odd target of a jump. -/
  | misaligned (target : Address)
  /-- A keyboard reported a key that does not exist. -/
  | invalidKey (index : UInt8)
  | programTooLarge (size : Nat)
  /-- A device outside of the machine failed, with the device's own text. -/
  | device (text : String)
  deriving DecidableEq

def Fault.message : Fault → String
  | .malformed op pc => "malformed instruction " ++ op.text ++ " at " ++ pc.text
  | .stackOverflow depth => "call stack overflow (depth " ++ Nat.repr depth ++ ")"
  | .stackUnderflow => "no subroutine to return from"
  | .outOfRange place => "address out of range: " ++ Address.textOf place
  | .misaligned target => "misaligned address: " ++ target.text
  | .invalidKey index => "invalid key index: " ++ Nat.repr index.toNat
  | .programTooLarge size => "program of " ++ Nat.repr size ++ " bytes is too large"
  | .device text => text

/-- What was being done when a fault arose. -/
inductive Context where
  | executing (i : Instruction)
  /-- Moving on to the next instruction. -/
  | movingOn
  /-- Adding `V0` to the base of a jump. -/
  | offsettingJump
  | refreshing
  | readingProgram
  deriving DecidableEq

def Context.message : Context → String
  | .executing i => "error executing " ++ i.mnemonic
  | .movingOn => "program counter ran off the end of memory"
  | .offsettingJump => "attempted to jump to out of range address"
  | .refreshing => "could not refresh display"
  | .readingProgram => "could not read program"

structure Failure where
  fault : Fault
  context : Option Context := none
  deriving DecidableEq

namespace Failure

/-- The outermost text. -/
def message (f : Failure) : String :=
  match f.context with
  | none => f.fault.message
  | some c => c.message

/-- The texts below the outermost one. -/
def causes (f : Failure) : List String :=
  match f.context with
  | none => []
  | some _ => [f.fault.message]

end Failure

end ChipEight
