import ChipEight.Opcode
import ChipEight.Instruction
import ChipEight.Fault
import ChipEight.Machine
import ChipEight.Timing
import ChipEight.Devices
import ChipEight.Display
import ChipEight.Interpreter.Basic
import ChipEight.Interpreter.Execute
import ChipEight.Keyboard
import ChipEight.Program
import ChipEight.Clock
import ChipEight.Scheduler
import ChipEight.Realtime
import ChipEight.Workbench
import ChipEight.Proofs.Machine.Control
import ChipEight.Proofs.Machine.Spans
import ChipEight.Proofs.Machine.Slots
import ChipEight.Proofs.Interpreter.Effect
import ChipEight.Proofs.Interpreter.Stability
import ChipEight.Proofs.Interpreter.Operation
import ChipEight.Proofs.Interpreter.Failures
import ChipEight.Proofs.Clock.Later
import ChipEight.Proofs.Scheduler.Window
import ChipEight.Proofs.Scheduler.Rate
import ChipEight.Proofs.Clock.Exact
import ChipEight.Proofs.Clock.Simulated
import ChipEight.Proofs.Scheduler.Grid
import ChipEight.Proofs.Interpreter.CallStack
import ChipEight.Proofs.Interpreter.Footprint
import ChipEight.Proofs.Interpreter.Remains
import ChipEight.Proofs.Interpreter.Lockstep
import ChipEight.Proofs.Interpreter.Untimed
import ChipEight.Proofs.Scheduler.Turns
import ChipEight.Proofs.Countdown.Polled
import ChipEight.Proofs.Interpreter.Timers
import ChipEight.Proofs.Scheduler.Cadence
import ChipEight.Proofs.Display.Faithful
import ChipEight.Proofs.Interpreter.Displays
import ChipEight.Proofs.Display.Refresh
import ChipEight.Proofs.Display.Printing
import ChipEight.Proofs.Display.Coverage
import ChipEight.Proofs.Display.Drawings
import ChipEight.Proofs.Interpreter.Tone
import ChipEight.Proofs.Clock.Punctual
import ChipEight.Proofs.Interpreter.Flags
import ChipEight.Proofs.Interpreter.Continuation
import ChipEight.Proofs.Interpreter.Loading
import ChipEight.Proofs.Interpreter.Transfer
import ChipEight.Proofs.Interpreter.Writes
import ChipEight.Proofs.Interpreter.Glyph
import ChipEight.Proofs.Scheduler.Standing
import ChipEight.Proofs.Scheduler.Succession
import ChipEight.Proofs.Word.Checked
import ChipEight.Proofs.Word.Execution
import ChipEight.Proofs.Word.Schedule
import ChipEight.Proofs.Instruction.Coding
import ChipEight.Proofs.Instruction.Mnemonic
import ChipEight.Proofs.Interpreter.KeyFaults
import ChipEight.Proofs.Keyboard.Held
import ChipEight.Proofs.Keyboard.Waking
