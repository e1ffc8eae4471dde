/-!
# Opcodes and what they name

An opcode is a sixteen-bit word, kept in memory with its high byte first.  Its fields sit at fixed
places, whatever the word means, and name what an instruction works on: places in memory, registers
and keys.  All of these are shown in base sixteen.
-/

namespace ChipEight

/-- The base-sixteen digits of `n`, filled up with zeros on the left to at least `width` digits. -/
def hexText (width n : Nat) : String :=
  String.ofList (((Nat.toDigits 16 n).map Char.toUpper).leftpad width '0')

/-! ## Addresses -/

/-- The number of bytes of memory. -/
abbrev memorySize : Nat := 0x1000

/-- A place in memory. -/
abbrev Address := Fin memorySize

namespace Address

/-- The remainder of `n` modulo the size of memory. -/
def wrapping (n : Nat) : Address := ⟨n % memorySize, Nat.mod_lt n (by decide)⟩

@[simp] theorem val_wrapping (n : Nat) : (wrapping n).val = n % memorySize := rfl

/-- Where programs are loaded and where execution begins. -/
def programStart : Address := wrapping 0x200

/-- Where the first glyph of the font is kept. -/
def fontStart : Address := wrapping 0

/-- The longest program that fits between `programStart` and the end of memory. -/
def programRoom : Nat := memorySize - programStart.val

/-- The text of a place that need not exist: `0x` and at least three digits. -/
def textOf (n : Nat) : String := "0x" ++ hexText 3 n

def text (a : Address) : String := textOf a.val

end Address

/-! ## Registers and keys -/

abbrev Register := Fin 16

abbrev Key := Fin 16

namespace Register

/-- The register named by the low nibble of a number. -/
def ofNat (n : Nat) : Register := ⟨n % 16, Nat.mod_lt n (by decide)⟩

@[simp] theorem val_ofNat (n : Nat) : (ofNat n).val = n % 16 := rfl

def ofByte (b : UInt8) : Register := ofNat b.toNat

/-- `V0`, which offsets jumps. -/
def zero : Register := ofNat 0

/-- `VF`, which receives carries, borrows, shifted-out bits and collisions. -/
def flag : Register := ofNat 15

def text (r : Register) : String := "V" ++ hexText 1 r.val

end Register

namespace Key

/-- The key with this number, if there is one. -/
def ofIndex? (index : UInt8) : Option Key :=
  if h : index.toNat < 16 then some ⟨index.toNat, h⟩ else none

/-- The key named by the low nibble of a byte. -/
def ofByte (b : UInt8) : Key := Register.ofByte b

/-- The number of a key as a register holds it. -/
def toByte (k : Key) : UInt8 := UInt8.ofNat k.val

def text (k : Key) : String := "K" ++ hexText 1 k.val

end Key

/-! ## Opcodes -/

structure Opcode where
  word : UInt16
  deriving DecidableEq, Inhabited

namespace Opcode

def ofNat (n : Nat) : Opcode := ⟨UInt16.ofNat n⟩

def toNat (op : Opcode) : Nat := op.word.toNat

def ofBytes (high low : UInt8) : Opcode := ofNat (high.toNat * 0x100 + low.toNat)

def family (op : Opcode) : Nat := op.toNat / 0x1000

def x (op : Opcode) : Register := Register.ofNat (op.toNat / 0x100)

def y (op : Opcode) : Register := Register.ofNat (op.toNat / 0x10)

def n (op : Opcode) : Nat := op.toNat % 0x10

def kk (op : Opcode) : UInt8 := UInt8.ofNat op.toNat

def nnn (op : Opcode) : Address := Address.wrapping op.toNat

/-- A hash sign and four digits. -/
def text (op : Opcode) : String := "#" ++ hexText 4 op.toNat

end Opcode

end ChipEight
