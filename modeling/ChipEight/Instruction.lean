import ChipEight.Opcode

/-!
# Instructions

The thirty-five instructions of the machine with their operands.  Every value is meaningful to the
interpreter.  Two kinds have no opcode of their own: a `sys` at the addresses that spell `cls` and
`ret`, and a `draw` of more than fifteen rows.

`Instruction.decode` reads the instruction table: the family first, and within the families `0`,
`8`, `E` and `F` a second selector.  The low nibble of the families `5` and `9` and the second
register of the two shifts are ignored.  `Instruction.encode?` writes an instruction with its
ignored bits clear.

The assembly text of an instruction is its head, and if it has operands a blank and the operands,
separated by a comma and a blank.  Bytes are shown in base sixteen after a hash sign; the row count
of a sprite is shown in base ten.
-/

namespace ChipEight

inductive Instruction where
  /-- Call a routine in the machine code of the host, which does not exist here. -/
  | sys (routine : Address)
  /-- Blank the display. -/
  | cls
  /-- Return to the address on top of the call stack. -/
  | ret
  | jump (target : Address)
  /-- Jump, leaving the address of the next instruction on the call stack. -/
  | call (target : Address)
  | skipEqImm (x : Register) (value : UInt8)
  | skipNeImm (x : Register) (value : UInt8)
  | skipEq (x y : Register)
  | setImm (x : Register) (value : UInt8)
  | addImm (x : Register) (value : UInt8)
  | copy (x y : Register)
  | or (x y : Register)
  | and (x y : Register)
  | xor (x y : Register)
  | add (x y : Register)
  | sub (x y : Register)
  | shiftRight (x : Register)
  /-- Set `x` to `y` minus `x`. -/
  | subFrom (x y : Register)
  | shiftLeft (x : Register)
  | skipNe (x y : Register)
  | setIndex (value : Address)
  /-- Jump to an address plus `V0`. -/
  | jumpOffset (base : Address)
  /-- Set `x` to a random byte under a mask. -/
  | random (x : Register) (mask : UInt8)
  /-- Flip the pixels of the sprite at `I` with its top left corner at (`Vx`, `Vy`). -/
  | draw (x y : Register) (rows : UInt8)
  | skipHeld (x : Register)
  | skipFree (x : Register)
  | readDelay (x : Register)
  /-- Wait until a key is held and put its number into `x`. -/
  | awaitKey (x : Register)
  | setDelay (x : Register)
  /-- Set the sound timer and start a tone that lasts as long as it runs. -/
  | setSound (x : Register)
  | addIndex (x : Register)
  /-- Point `I` at the font's glyph of the low nibble of `x`. -/
  | glyph (x : Register)
  /-- Write the three decimal digits of `x` to memory at `I`. -/
  | decimal (x : Register)
  /-- Write `V0` to `Vx` to memory at `I`. -/
  | store (last : Register)
  /-- Read `V0` to `Vx` from memory at `I`. -/
  | load (last : Register)
  deriving DecidableEq, Inhabited

namespace Instruction

/-- Whether the instruction sets the program counter itself.  Every other one moves on to the
instruction after it. -/
def transfersControl : Instruction → Bool
  | ret | jump _ | call _ | jumpOffset _ => true
  | _ => false

/-! ## Opcodes of instructions -/

/-- The arithmetic of family `8`, selected by the low nibble. -/
def decodeArithmetic (x y : Register) : Nat → Option Instruction
  | 0x0 => some (.copy x y)
  | 0x1 => some (.or x y)
  | 0x2 => some (.and x y)
  | 0x3 => some (.xor x y)
  | 0x4 => some (.add x y)
  | 0x5 => some (.sub x y)
  | 0x6 => some (.shiftRight x)
  | 0x7 => some (.subFrom x y)
  | 0xE => some (.shiftLeft x)
  | _ => none

/-- The key tests of family `E`, selected by the low byte. -/
def decodeKeyTest (x : Register) : Nat → Option Instruction
  | 0x9E => some (.skipHeld x)
  | 0xA1 => some (.skipFree x)
  | _ => none

/-- The timers, the index register and block transfers of family `F`, selected by the low byte. -/
def decodeTransfer (x : Register) : Nat → Option Instruction
  | 0x07 => some (.readDelay x)
  | 0x0A => some (.awaitKey x)
  | 0x15 => some (.setDelay x)
  | 0x18 => some (.setSound x)
  | 0x1E => some (.addIndex x)
  | 0x29 => some (.glyph x)
  | 0x33 => some (.decimal x)
  | 0x55 => some (.store x)
  | 0x65 => some (.load x)
  | _ => none

/-- The instruction of an opcode, if the table has one. -/
def decode (op : Opcode) : Option Instruction :=
  match op.family with
  | 0x0 =>
    if op.toNat = 0x00E0 then some .cls
    else if op.toNat = 0x00EE then some .ret
    else some (.sys op.nnn)
  | 0x1 => some (.jump op.nnn)
  | 0x2 => some (.call op.nnn)
  | 0x3 => some (.skipEqImm op.x op.kk)
  | 0x4 => some (.skipNeImm op.x op.kk)
  | 0x5 => some (.skipEq op.x op.y)
  | 0x6 => some (.setImm op.x op.kk)
  | 0x7 => some (.addImm op.x op.kk)
  | 0x8 => decodeArithmetic op.x op.y op.n
  | 0x9 => some (.skipNe op.x op.y)
  | 0xA => some (.setIndex op.nnn)
  | 0xB => some (.jumpOffset op.nnn)
  | 0xC => some (.random op.x op.kk)
  | 0xD => some (.draw op.x op.y (UInt8.ofNat op.n))
  | 0xE => decodeKeyTest op.x op.kk.toNat
  | _ => decodeTransfer op.x op.kk.toNat

/-- A word from its family and twelve bits of operand. -/
def wordOfAddress (family : Nat) (a : Address) : Opcode :=
  Opcode.ofNat (family * 0x1000 + a.val)

/-- A word from its family, a register and a byte. -/
def wordOfByte (family : Nat) (x : Register) (b : UInt8) : Opcode :=
  Opcode.ofNat (family * 0x1000 + x.val * 0x100 + b.toNat)

/-- A word from its family, two registers and a nibble. -/
def wordOfNibbles (family : Nat) (x y : Register) (n : Nat) : Opcode :=
  Opcode.ofNat (family * 0x1000 + x.val * 0x100 + y.val * 0x10 + n)

/-- The opcode of an instruction, if it has one. -/
def encode? : Instruction → Option Opcode
  | .sys a => if a.val = 0x0E0 ∨ a.val = 0x0EE then none else some (wordOfAddress 0x0 a)
  | .cls => some (Opcode.ofNat 0x00E0)
  | .ret => some (Opcode.ofNat 0x00EE)
  | .jump a => some (wordOfAddress 0x1 a)
  | .call a => some (wordOfAddress 0x2 a)
  | .skipEqImm x b => some (wordOfByte 0x3 x b)
  | .skipNeImm x b => some (wordOfByte 0x4 x b)
  | .skipEq x y => some (wordOfNibbles 0x5 x y 0x0)
  | .setImm x b => some (wordOfByte 0x6 x b)
  | .addImm x b => some (wordOfByte 0x7 x b)
  | .copy x y => some (wordOfNibbles 0x8 x y 0x0)
  | .or x y => some (wordOfNibbles 0x8 x y 0x1)
  | .and x y => some (wordOfNibbles 0x8 x y 0x2)
  | .xor x y => some (wordOfNibbles 0x8 x y 0x3)
  | .add x y => some (wordOfNibbles 0x8 x y 0x4)
  | .sub x y => some (wordOfNibbles 0x8 x y 0x5)
  | .shiftRight x => some (wordOfNibbles 0x8 x .zero 0x6)
  | .subFrom x y => some (wordOfNibbles 0x8 x y 0x7)
  | .shiftLeft x => some (wordOfNibbles 0x8 x .zero 0xE)
  | .skipNe x y => some (wordOfNibbles 0x9 x y 0x0)
  | .setIndex a => some (wordOfAddress 0xA a)
  | .jumpOffset a => some (wordOfAddress 0xB a)
  | .random x b => some (wordOfByte 0xC x b)
  | .draw x y rows => if rows.toNat < 16 then some (wordOfNibbles 0xD x y rows.toNat) else none
  | .skipHeld x => some (wordOfByte 0xE x 0x9E)
  | .skipFree x => some (wordOfByte 0xE x 0xA1)
  | .readDelay x => some (wordOfByte 0xF x 0x07)
  | .awaitKey x => some (wordOfByte 0xF x 0x0A)
  | .setDelay x => some (wordOfByte 0xF x 0x15)
  | .setSound x => some (wordOfByte 0xF x 0x18)
  | .addIndex x => some (wordOfByte 0xF x 0x1E)
  | .glyph x => some (wordOfByte 0xF x 0x29)
  | .decimal x => some (wordOfByte 0xF x 0x33)
  | .store x => some (wordOfByte 0xF x 0x55)
  | .load x => some (wordOfByte 0xF x 0x65)

/-! ## Mnemonics -/

/-- An operand as it is written. -/
inductive Operand where
  | register (r : Register)
  | address (a : Address)
  | byte (b : UInt8)
  | count (n : UInt8)
  | index
  | atIndex
  | delay
  | sound
  | key
  | glyph
  | decimal
  deriving DecidableEq

def Operand.text : Operand → String
  | .register r => r.text
  | .address a => a.text
  | .byte b => "#" ++ hexText 2 b.toNat
  | .count n => Nat.repr n.toNat
  | .index => "I"
  | .atIndex => "[I]"
  | .delay => "DT"
  | .sound => "ST"
  | .key => "K"
  | .glyph => "F"
  | .decimal => "B"

/-- The first word of the mnemonic. -/
def head : Instruction → String
  | sys _ => "SYS"
  | cls => "CLS"
  | ret => "RET"
  | jump _ | jumpOffset _ => "JP"
  | call _ => "CALL"
  | skipEqImm _ _ | skipEq _ _ => "SE"
  | skipNeImm _ _ | skipNe _ _ => "SNE"
  | setImm _ _ | copy _ _ | setIndex _ | readDelay _ | awaitKey _ | setDelay _ | setSound _
  | glyph _ | decimal _ | store _ | load _ => "LD"
  | addImm _ _ | add _ _ | addIndex _ => "ADD"
  | or _ _ => "OR"
  | and _ _ => "AND"
  | xor _ _ => "XOR"
  | sub _ _ => "SUB"
  | shiftRight _ => "SHR"
  | subFrom _ _ => "SUBN"
  | shiftLeft _ => "SHL"
  | random _ _ => "RND"
  | draw _ _ _ => "DRW"
  | skipHeld _ => "SKP"
  | skipFree _ => "SKNP"

/-- The operands in the order in which the mnemonic lists them. -/
def operands : Instruction → List Operand
  | cls | ret => []
  | sys a | jump a | call a => [.address a]
  | skipEqImm x b | skipNeImm x b | setImm x b | addImm x b | random x b => [.register x, .byte b]
  | skipEq x y | skipNe x y | copy x y | or x y | and x y | xor x y | add x y | sub x y
  | subFrom x y => [.register x, .register y]
  | shiftRight x | shiftLeft x | skipHeld x | skipFree x => [.register x]
  | setIndex a => [.index, .address a]
  | jumpOffset a => [.register .zero, .address a]
  | draw x y rows => [.register x, .register y, .count rows]
  | readDelay x => [.register x, .delay]
  | awaitKey x => [.register x, .key]
  | setDelay x => [.delay, .register x]
  | setSound x => [.sound, .register x]
  | addIndex x => [.index, .register x]
  | glyph x => [.glyph, .register x]
  | decimal x => [.decimal, .register x]
  | store x => [.atIndex, .register x]
  | load x => [.register x, .atIndex]

def mnemonic (i : Instruction) : String :=
  match i.operands with
  | [] => i.head
  | o :: rest => i.head ++ " " ++ ", ".intercalate ((o :: rest).map Operand.text)

end Instruction

end ChipEight
