import ChipEight.Interpreter.Basic
import ChipEight.Program

/-!
# Loading and execution

A program is loaded from a source, of which one byte more than fits is asked, so that a program that
is too large is noticed.  `execute` carries out one instruction at a given time.  Its effect comes
first; then the program counter moves on to the next instruction, unless the instruction has set it.
A skip that is taken moves on once more before that.  `cycle` is one beat of the interpreter: both
timers are polled, the display gets a chance to repaint, and the instruction at the program counter
is executed.
-/

namespace ChipEight.Interpreter

open Command

variable {D K S G : Type}

/-! ## Loading a program -/

/-- Load the program that a source delivers. -/
def loadProgram (source : List Read) : Command D K S G Unit := do
  let intake := Read.intake (Address.programRoom + 1) source
  match intake.fault? with
  | some text => stop (some .readingProgram) (.device text)
  | none =>
    attempt none (·.loadProgram intake.bytes)
    note (.programLoaded intake.bytes.length)

/-! ## Instructions -/

variable [Display D] [Keyboard K] [Speaker S] [Entropy G]

/-- Continue at the next instruction. -/
def moveOn : Command D K S G Unit := attempt (some .movingOn) Machine.advance

def skipIf (condition : Bool) : Command D K S G Unit :=
  if condition then moveOn else pure ()

/-- Return to the address on top of the call stack. -/
def comeBack (context : Option Context) : Command D K S G Unit := do
  match (← get).machine.pop with
  | .error fault => stop context fault
  | .ok (back, m) =>
    alter fun _ ↦ m
    attempt context (·.jump back)

/-- Jump, leaving the address of the next instruction on the call stack. -/
def callTo (context : Option Context) (target : Address) : Command D K S G Unit := do
  match (← get).machine.pc.offset 2 with
  | .error fault => stop context fault
  | .ok back =>
    attempt context (·.push back)
    attempt context (·.jump target)

def jumpFrom (context : Option Context) (base : Address) : Command D K S G Unit := do
  match base.offset ((← get).machine.reg Register.zero).toNat with
  | .error fault => stop (some .offsettingJump) fault
  | .ok target => attempt context (·.jump target)

/-- Draw the sprite at the index register.  The flag is set if a pixel was unset. -/
def drawSprite (context : Option Context) (x y : Register) (rows : Nat) : Command D K S G Unit := do
  let s ← get
  match s.machine.slice s.machine.index rows with
  | .error fault => stop context fault
  | .ok sprite =>
    let (hit, display) :=
      Display.draw s.display sprite (s.machine.reg x).toNat (s.machine.reg y).toNat
    set { s with display, machine := s.machine.setReg Register.flag hit.toUInt8 }

/-- Wait for a key and put its number into `x`. -/
def awaitKeyInto (x : Register) : Command D K S G Unit := do
  let s ← get
  let (index, keyboard) := Keyboard.await s.keyboard
  set { s with keyboard, waited := s.waited + Keyboard.awaitTime s.keyboard }
  match Key.ofIndex? index with
  | none => stop none (.invalidKey index)
  | some key => alter (·.setReg x key.toByte)

/-- Set the sound timer, and start a tone that ends when the timer will. -/
def startSound (x : Register) (now : Nat) : Command D K S G Unit := do
  let s ← get
  let count := s.machine.reg x
  let duration := count.toNat * s.sound.period
  set { s with sound := s.sound.set count now, speaker := Speaker.tone s.speaker now duration }
  note (.soundSet count duration)

/-- Put a random byte under a mask into `x`. -/
def randomize (x : Register) (mask : UInt8) : Command D K S G Unit :=
  modify fun s ↦
    let (byte, entropy) := Entropy.next s.entropy
    { s with entropy, machine := s.machine.setReg x (byte &&& mask) }

/-- The effect of an instruction, apart from moving on to the next one. -/
def effect (i : Instruction) (now : Nat) : Command D K S G Unit := do
  let m := (← get).machine
  let here := some (Context.executing i)
  match i with
  | .sys routine => note (.routineIgnored routine)
  | .cls => modify fun s ↦ { s with display := Display.clear s.display }
  | .ret => comeBack here
  | .jump target => attempt here (·.jump target)
  | .call target => callTo here target
  | .skipEqImm x value => skipIf (m.reg x == value)
  | .skipNeImm x value => skipIf (m.reg x != value)
  | .skipEq x y => skipIf (m.reg x == m.reg y)
  | .setImm x value => alter (·.setReg x value)
  | .addImm x value => alter fun m ↦ m.setReg x (m.reg x + value)
  | .copy x y => alter fun m ↦ m.setReg x (m.reg y)
  | .or x y => alter fun m ↦ m.setReg x (m.reg x ||| m.reg y)
  | .and x y => alter fun m ↦ m.setReg x (m.reg x &&& m.reg y)
  | .xor x y => alter fun m ↦ m.setReg x (m.reg x ^^^ m.reg y)
  | .add x y => alter (·.add x y)
  | .sub x y => alter (·.sub x y)
  | .shiftRight x => alter (·.shiftRight x)
  | .subFrom x y => alter (·.subFrom x y)
  | .shiftLeft x => alter (·.shiftLeft x)
  | .skipNe x y => skipIf (m.reg x != m.reg y)
  | .setIndex value => alter (·.setIndex value)
  | .jumpOffset base => jumpFrom here base
  | .random x mask => randomize x mask
  | .draw x y rows => drawSprite here x y rows.toNat
  | .skipHeld x => skipIf (Keyboard.isHeld (← get).keyboard (Key.ofByte (m.reg x)))
  | .skipFree x => skipIf (!Keyboard.isHeld (← get).keyboard (Key.ofByte (m.reg x)))
  | .readDelay x => modify fun s ↦ { s with machine := s.machine.setReg x s.delay.count }
  | .awaitKey x => awaitKeyInto x
  | .setDelay x => modify fun s ↦ { s with delay := s.delay.set (s.machine.reg x) now }
  | .setSound x => startSound x now
  | .addIndex x => alter (·.addIndex x)
  | .glyph x => alter (·.pointAtGlyph x)
  | .decimal x => attempt here (·.storeDecimal x)
  | .store last => attempt here (·.storeRegisters last)
  | .load last => attempt here (·.loadRegisters last)

/-- Carry out an instruction at the time `now`, as if it stood at the program counter. -/
def execute (i : Instruction) (now : Nat) : Command D K S G Unit := do
  effect i now
  unless i.transfersControl do moveOn

/-- Execute the instruction at the program counter. -/
def step (now : Nat) : Command D K S G Unit := do
  let m := (← get).machine
  match m.current with
  | .error fault => stop none fault
  | .ok i =>
    note (.stepping m.pc i)
    execute i now

/-- Poll both timers. -/
def pollTimers (now : Nat) : Command D K S G Unit :=
  modify fun s ↦ { s with delay := s.delay.poll now, sound := s.sound.poll now }

/-- Give the display a chance to repaint. -/
def pollDisplay : Command D K S G Unit := do
  let s ← get
  let (result, display) := Display.poll s.display
  set { s with display, waited := s.waited + Display.pollTime s.display }
  match result with
  | .error fault => stop (some .refreshing) fault
  | .ok () => pure ()

def cycle (now : Nat) : Command D K S G Unit := do
  pollTimers now
  pollDisplay
  step now

end ChipEight.Interpreter
