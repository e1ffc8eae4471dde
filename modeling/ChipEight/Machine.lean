import ChipEight.Fault

/-!
# The machine

Memory, the general registers, the index register, the program counter and the call stack.  The
stack is the list of the return addresses still to be used, the latest first, and holds at most
sixteen.  Operations that can fault leave the machine as it was when they do.

Arithmetic on addresses is checked: a result outside of memory is a fault that names it.  Whether an
instruction may start at an address is a further question, asked when control is transferred.

The operands of arithmetic on registers are read before anything is written, and the flag is written
before the result.  So an operation whose destination is `VF` leaves its result there, and the flag
is lost.
-/

namespace ChipEight

/-! ## Blocks of a vector

Reading and overwriting runs of consecutive places.  What would lie beyond the end of the vector is
neither read nor written; callers that must not run off the end check the span first.
-/

namespace Block

variable {α : Type} {n : Nat}

/-- The `length` elements from `start`. -/
def read (v : Vector α n) (start length : Nat) : List α :=
  (v.toArray.extract start (start + length)).toList

/-- Put the elements of a list in the places from `start`. -/
def write (v : Vector α n) (start : Nat) : List α → Vector α n
  | [] => v
  | a :: rest => write (v.setIfInBounds start a) (start + 1) rest

theorem length_read (v : Vector α n) {start length : Nat} (h : start + length ≤ n) :
    (read v start length).length = length := by
  simp only [read, Array.length_toList, Array.size_extract, Vector.size_toArray]
  omega

theorem getElem?_read (v : Vector α n) {start length i : Nat} (h : start + length ≤ n)
    (hi : i < length) : (read v start length)[i]? = v[start + i]? := by
  simp only [read, Array.getElem?_toList, Array.getElem?_extract, Vector.size_toArray,
    Vector.getElem?_toArray]
  rw [if_pos (by omega)]

/-- A place outside of the block keeps its element, and one inside has that of the list. -/
theorem getElem?_write (v : Vector α n) (start : Nat) (list : List α) (i : Nat) :
    (write v start list)[i]? =
      if start ≤ i ∧ i < n then list[i - start]?.or v[i]? else v[i]? := by
  induction list generalizing v start with
  | nil => simp [write]
  | cons a rest ih =>
    rw [write, ih, Vector.getElem?_setIfInBounds]
    by_cases hlt : i < n
    · rcases Nat.lt_trichotomy start i with h | h | h
      · have : i - start = (i - (start + 1)) + 1 := by omega
        simp [hlt, this, show start + 1 ≤ i by omega, show start ≤ i by omega,
          show start ≠ i by omega]
      · subst h
        simp [hlt, show ¬ start + 1 ≤ start by omega]
      · simp [hlt, show ¬ start + 1 ≤ i by omega, show ¬ start ≤ i by omega,
          show start ≠ i by omega]
    · simp [hlt]
      omega

end Block

/-! ## The hexadecimal font

Each of the sixteen digits has a glyph of five rows.  The high nibble of a row holds its four
pixels.
-/

namespace Font

def glyphHeight : Nat := 5

/-- The rows of each digit, from top to bottom. -/
def glyphs : Vector (List UInt8) 16 := #v[
  [0xF0, 0x90, 0x90, 0x90, 0xF0],
  [0x20, 0x60, 0x20, 0x20, 0x70],
  [0xF0, 0x10, 0xF0, 0x80, 0xF0],
  [0xF0, 0x10, 0xF0, 0x10, 0xF0],
  [0x90, 0x90, 0xF0, 0x10, 0x10],
  [0xF0, 0x80, 0xF0, 0x10, 0xF0],
  [0xF0, 0x80, 0xF0, 0x90, 0xF0],
  [0xF0, 0x10, 0x20, 0x40, 0x40],
  [0xF0, 0x90, 0xF0, 0x90, 0xF0],
  [0xF0, 0x90, 0xF0, 0x10, 0xF0],
  [0xF0, 0x90, 0xF0, 0x90, 0x90],
  [0xE0, 0x90, 0xE0, 0x90, 0xE0],
  [0xF0, 0x80, 0x80, 0x80, 0xF0],
  [0xE0, 0x90, 0x90, 0x90, 0xE0],
  [0xF0, 0x80, 0xF0, 0x80, 0xF0],
  [0xF0, 0x80, 0xF0, 0x80, 0x80]]

def glyph (digit : Fin 16) : List UInt8 := glyphs[digit]

/-- All glyphs in order, as they are kept in memory. -/
def bytes : List UInt8 := glyphs.toList.flatten

theorem length_glyph (digit : Fin 16) : (glyph digit).length = glyphHeight := by
  revert digit
  decide

end Font

/-! ## Checked addresses -/

namespace Address

/-- The address with this number, if there is one. -/
def checked (n : Nat) : Except Fault Address :=
  if h : n < memorySize then .ok ⟨n, h⟩ else .error (.outOfRange n)

/-- The address `n` places further on. -/
def offset (a : Address) (n : Nat) : Except Fault Address := checked (a.val + n)

/-- The address itself, if it is even. -/
def aligned (a : Address) : Except Fault Address :=
  if a.val % 2 = 0 then .ok a else .error (.misaligned a)

/-- The end of the span of `length` bytes from `start`.  A span that leaves memory is a fault that
names its last byte. -/
def spanEnd (start : Address) (length : Nat) : Except Fault Nat :=
  if start.val + length ≤ memorySize then .ok (start.val + length)
  else .error (.outOfRange (start.val + length - 1))

end Address

/-! ## The state -/

/-- The number of return addresses that the call stack can hold. -/
def stackRoom : Nat := 16

structure Machine where
  memory : Vector UInt8 memorySize
  registers : Vector UInt8 16
  index : Address
  pc : Address
  stack : List Address
  deriving DecidableEq

namespace Machine

/-- The machine when it is switched on: the font in low memory, all else zero. -/
def initial : Machine where
  memory := Block.write (Vector.replicate memorySize 0) Address.fontStart Font.bytes
  registers := Vector.replicate 16 0
  index := Address.wrapping 0
  pc := Address.programStart
  stack := []

/-! ## Registers -/

def reg (m : Machine) (r : Register) : UInt8 := m.registers[r]

def setReg (m : Machine) (r : Register) (value : UInt8) : Machine :=
  { m with registers := m.registers.set r value }

def setIndex (m : Machine) (value : Address) : Machine := { m with index := value }

theorem reg_setReg (m : Machine) (r q : Register) (value : UInt8) :
    (m.setReg r value).reg q = if q = r then value else m.reg q := by
  simp only [reg, setReg, Fin.getElem_fin, Vector.getElem_set, Fin.ext_iff, eq_comm]

/-! ## Memory -/

/-- Put bytes in memory from a place on; what would lie beyond the end is dropped. -/
def poke (m : Machine) (start : Nat) (bytes : List UInt8) : Machine :=
  { m with memory := Block.write m.memory start bytes }

/-- The `length` bytes from `start`. -/
def slice (m : Machine) (start : Address) (length : Nat) : Except Fault (List UInt8) :=
  (start.spanEnd length).map fun _ ↦ Block.read m.memory start length

/-- Overwrite memory from `start`. -/
def overwrite (m : Machine) (start : Address) (bytes : List UInt8) : Except Fault Machine :=
  (start.spanEnd bytes.length).map fun _ ↦ m.poke start bytes

/-- Copy `V0` up to `last` to memory at the index register. -/
def storeRegisters (m : Machine) (last : Register) : Except Fault Machine :=
  m.overwrite m.index (Block.read m.registers 0 (last.val + 1))

/-- Fill `V0` up to `last` from memory at the index register. -/
def loadRegisters (m : Machine) (last : Register) : Except Fault Machine :=
  (m.slice m.index (last.val + 1)).map fun bytes ↦
    { m with registers := Block.write m.registers 0 bytes }

/-- Copy a program to where programs live. -/
def loadProgram (m : Machine) (program : List UInt8) : Except Fault Machine :=
  if program.length ≤ Address.programRoom then .ok (m.poke Address.programStart program)
  else .error (.programTooLarge program.length)

/-! ## Control -/

/-- The opcode at the program counter. -/
def fetch (m : Machine) : Opcode :=
  Opcode.ofBytes m.memory[m.pc] m.memory[Address.wrapping (m.pc.val + 1)]

/-- The instruction at the program counter. -/
def current (m : Machine) : Except Fault Instruction :=
  match Instruction.decode m.fetch with
  | none => .error (.malformed m.fetch m.pc)
  | some i => .ok i

/-- The last place at which an instruction may start. -/
def lastEntry : Address := Address.wrapping 0xFFE

/-- Continue at `target`, which must be an even place from `programStart` to `lastEntry`. -/
def jump (m : Machine) (target : Address) : Except Fault Machine :=
  if target < Address.programStart ∨ lastEntry < target then .error (.outOfRange target.val)
  else target.aligned.map fun entry ↦ { m with pc := entry }

/-- Continue at the next instruction. -/
def advance (m : Machine) : Except Fault Machine :=
  match m.pc.offset 2 with
  | .error fault => .error fault
  | .ok next => m.jump next

def push (m : Machine) (back : Address) : Except Fault Machine :=
  if m.stack.length < stackRoom then .ok { m with stack := back :: m.stack }
  else .error (.stackOverflow m.stack.length)

def pop (m : Machine) : Except Fault (Address × Machine) :=
  match m.stack with
  | [] => .error .stackUnderflow
  | back :: rest => .ok (back, { m with stack := rest })

/-! ## Arithmetic on registers -/

/-- Write the flag, then the result. -/
def setFlagged (m : Machine) (x : Register) (flag : Bool) (result : UInt8) : Machine :=
  (m.setReg Register.flag flag.toUInt8).setReg x result

/-- The flag is the carry. -/
def add (m : Machine) (x y : Register) : Machine :=
  m.setFlagged x (decide (0xFF < (m.reg x).toNat + (m.reg y).toNat)) (m.reg x + m.reg y)

/-- The flag is set if there is no borrow. -/
def sub (m : Machine) (x y : Register) : Machine :=
  m.setFlagged x (decide (m.reg y ≤ m.reg x)) (m.reg x - m.reg y)

/-- Set `x` to `y` minus `x`; the flag is set if there is no borrow. -/
def subFrom (m : Machine) (x y : Register) : Machine :=
  m.setFlagged x (decide (m.reg x ≤ m.reg y)) (m.reg y - m.reg x)

/-- The flag is the bit shifted out. -/
def shiftRight (m : Machine) (x : Register) : Machine :=
  m.setFlagged x ((m.reg x).toNat % 2 = 1) (m.reg x >>> 1)

/-- The flag is the bit shifted out. -/
def shiftLeft (m : Machine) (x : Register) : Machine :=
  m.setFlagged x (decide (0x80 ≤ m.reg x)) (m.reg x <<< 1)

/-- Add a register to the index register, which wraps around; the flag is the carry.  Here the
result is no general register, so the flag always stays. -/
def addIndex (m : Machine) (x : Register) : Machine :=
  let sum := m.index.val + (m.reg x).toNat
  (m.setIndex (Address.wrapping sum)).setReg Register.flag (decide (0xFFF < sum)).toUInt8

/-- Point the index register at the glyph of the low nibble of `x`. -/
def pointAtGlyph (m : Machine) (x : Register) : Machine :=
  m.setIndex (Address.wrapping
    (Address.fontStart.val + Font.glyphHeight * ((m.reg x).toNat % 16)))

/-- The three decimal digits of a byte, the highest first. -/
def decimalDigits (b : UInt8) : List UInt8 := [b / 100, b / 10 % 10, b % 10]

/-- Write the decimal digits of `x` to memory at the index register. -/
def storeDecimal (m : Machine) (x : Register) : Except Fault Machine :=
  m.overwrite m.index (decimalDigits (m.reg x))

end Machine

end ChipEight
