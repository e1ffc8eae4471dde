import ChipEight.Clock
import ChipEight.Machine
import ChipEight.Timing
import Mathlib.Algebra.Order.Group.Nat

/-!
# Checked arithmetic on words

Times and places are counted in natural numbers here, and a processor keeps them in words of 64
bits.  Each operation on them has a version that computes with words step by step, and that has no
result as soon as one of the steps leaves the words.  Where it has a result, that is the result in
natural numbers.  For places this is always so, and for times as long as they are not too late.
-/

namespace ChipEight

namespace Word

def add? (a b : Nat) : Option Nat := if a + b < 2 ^ 64 then some (a + b) else none

def sub? (a b : Nat) : Option Nat := if b ≤ a then some (a - b) else none

def mul? (a b : Nat) : Option Nat := if a * b < 2 ^ 64 then some (a * b) else none

/-- The product, or the last word if the product is larger. -/
def saturatingMul (a b : Nat) : Nat := min (a * b) (2 ^ 64 - 1)

variable {a b : Nat}

theorem add?_eq (h : a + b < 2 ^ 64) : add? a b = some (a + b) := if_pos h

theorem add?_eq_none (h : 2 ^ 64 ≤ a + b) : add? a b = none := if_neg (Nat.not_lt_of_le h)

theorem sub?_eq (h : b ≤ a) : sub? a b = some (a - b) := if_pos h

theorem mul?_eq (h : a * b < 2 ^ 64) : mul? a b = some (a * b) := if_pos h

theorem saturatingMul_eq (h : a * b < 2 ^ 64) : saturatingMul a b = a * b := by
  unfold saturatingMul
  omega

end Word

open Word

/-! ## Times -/

theorem periodOf_le_second (rate : UInt32) : periodOf rate ≤ second := Nat.div_le_self _ _

namespace Countdown

def set? (t : Countdown) (count : UInt8) (now : Nat) : Option Countdown :=
  (add? now t.period).map fun due ↦ { t with count, setAt := now, due }

def poll? (t : Countdown) (now : Nat) : Option Countdown :=
  if 0 < t.count ∧ t.due ≤ now then
    (add? t.due t.period).map fun due ↦ { t with count := t.count - 1, due }
  else some t

/-- How long the timer takes to count down. -/
def duration? (t : Countdown) (count : UInt8) : Option Nat := mul? count.toNat t.period

variable {t : Countdown} {now : Nat}

theorem set?_eq (h : now + t.period < 2 ^ 64) (count : UInt8) :
    t.set? count now = some (t.set count now) := by
  rw [set?, add?_eq h]
  rfl

/-- The next step is counted from one that is due, so it is not too late either. -/
theorem poll?_eq (h : now + t.period < 2 ^ 64) : t.poll? now = some (t.poll now) := by
  unfold poll? poll
  by_cases hstep : 0 < t.count ∧ t.due ≤ now
  · have hdue := hstep.2
    rw [if_pos hstep, if_pos hstep, add?_eq (by omega)]
    rfl
  · rw [if_neg hstep, if_neg hstep]

theorem duration?_eq (h : t.period ≤ second) (count : UInt8) :
    t.duration? count = some (count.toNat * t.period) := by
  apply mul?_eq
  have hcount : count.toNat < 256 := count.toNat_lt
  calc
    _ ≤ 255 * second := Nat.mul_le_mul (by omega) h
    _ < 2 ^ 64 := by decide

end Countdown

namespace Clock

variable {C : Type} [Clock C]

/-- For how long a wait sleeps, with checked arithmetic. -/
def checkedSleepTime? (slack deadline now : Nat) : Option (Option Nat) := do
  let soon ← add? now slack
  if soon < deadline then
    let ahead ← sub? deadline now
    let duration ← sub? ahead slack
    return some duration
  else return none

/-- A wait that sleeps begins before its deadline, by more than the slack. -/
theorem checkedSleepTime?_eq {slack deadline now : Nat} (h : now + slack < 2 ^ 64) :
    checkedSleepTime? slack deadline now = some (sleepTime? slack deadline now) := by
  unfold checkedSleepTime? sleepTime?
  rw [add?_eq h, Option.bind_eq_bind, Option.bind_some]
  by_cases hearly : now + slack < deadline
  · rw [if_pos hearly, if_pos hearly, sub?_eq (by omega), Option.bind_some, sub?_eq (by omega)]
    rfl
  · rw [if_neg hearly, if_neg hearly]
    rfl

/-- The wait has no result at all if its arithmetic leaves the words. -/
def waitUntil? (limit slack deadline : Nat) (c : C) : Option (Option (Nat × C)) := do
  let (now, c) := read c
  match ← checkedSleepTime? slack deadline now with
  | some duration => return spinUntil deadline limit (sleep c duration)
  | none => return spinUntil deadline limit c

theorem waitUntil?_eq {limit slack deadline : Nat} {c : C} (h : (read c).1 + slack < 2 ^ 64) :
    waitUntil? limit slack deadline c = some (waitUntil limit slack deadline c) := by
  unfold waitUntil? waitUntil
  dsimp only
  rw [checkedSleepTime?_eq h, Option.bind_eq_bind, Option.bind_some]
  cases sleepTime? slack deadline (read c).1 <;> rfl

end Clock

/-! ## Places -/

namespace Address

def offset? (a : Address) (n : Nat) : Option (Except Fault Address) := (add? a.val n).map checked

def spanEnd? (start : Address) (length : Nat) : Option (Except Fault Nat) := do
  let stop ← add? start.val length
  if stop ≤ memorySize then return .ok stop
  else
    let last ← sub? stop 1
    return .error (.outOfRange last)

variable {a : Address} {n : Nat}

theorem offset?_eq (h : n < 2 ^ 63) : a.offset? n = some (a.offset n) := by
  have hlt : a.val < 0x1000 := a.isLt
  rw [offset?, add?_eq (by omega)]
  rfl

/-- A span that ends after memory does not end at zero, so its last byte has a number. -/
theorem spanEnd?_eq (h : n < 2 ^ 63) : a.spanEnd? n = some (a.spanEnd n) := by
  have hlt : a.val < 0x1000 := a.isLt
  unfold spanEnd? spanEnd
  rw [add?_eq (by omega), Option.bind_eq_bind, Option.bind_some]
  by_cases hfits : a.val + n ≤ memorySize
  · rw [if_pos hfits, if_pos hfits]
    rfl
  · rw [if_neg hfits, if_neg hfits, sub?_eq (by omega)]
    rfl

end Address

namespace Machine

def current? (m : Machine) : Option (Except Fault Instruction) :=
  (add? m.pc.val 1).map fun next ↦
    let opcode := Opcode.ofBytes (m.memory.get m.pc) (m.memory.get (Address.wrapping next))
    match Instruction.decode opcode with
    | none => .error (.malformed opcode m.pc)
    | some i => .ok i

def advance? (m : Machine) : Option (Except Fault Machine) :=
  (m.pc.offset? 2).map fun
    | .error fault => .error fault
    | .ok next => m.jump next

def slice? (m : Machine) (start : Address) (length : Nat) : Option (Except Fault (List UInt8)) :=
  (start.spanEnd? length).map (·.map fun _ ↦ Block.read m.memory start length)

def overwrite? (m : Machine) (start : Address) (bytes : List UInt8) :
    Option (Except Fault Machine) :=
  (start.spanEnd? bytes.length).map (·.map fun _ ↦ m.poke start bytes)

def storeRegisters? (m : Machine) (last : Register) : Option (Except Fault Machine) := do
  let length ← add? last.val 1
  m.overwrite? m.index (Block.read m.registers 0 length)

def loadRegisters? (m : Machine) (last : Register) : Option (Except Fault Machine) := do
  let length ← add? last.val 1
  let bytes ← m.slice? m.index length
  return bytes.map fun bytes ↦ { m with registers := Block.write m.registers 0 bytes }

def storeDecimal? (m : Machine) (x : Register) : Option (Except Fault Machine) :=
  m.overwrite? m.index (decimalDigits (m.reg x))

def addIndex? (m : Machine) (x : Register) : Option Machine :=
  (add? m.index.val (m.reg x).toNat).map fun sum ↦
    (m.setIndex (Address.wrapping sum)).setReg Register.flag (decide (0xFFF < sum)).toUInt8

def pointAtGlyph? (m : Machine) (x : Register) : Option Machine := do
  let place ← mul? Font.glyphHeight ((m.reg x).toNat % 16)
  let place ← add? Address.fontStart.val place
  return m.setIndex (Address.wrapping place)

variable (m : Machine)

theorem current?_eq : m.current? = some m.current := by
  have hlt : m.pc.val < 0x1000 := m.pc.isLt
  rw [current?, add?_eq (by omega)]
  rfl

theorem advance?_eq : m.advance? = some m.advance := by
  rw [advance?, Address.offset?_eq (by decide)]
  rfl

theorem slice?_eq (start : Address) {length : Nat} (h : length < 2 ^ 63) :
    m.slice? start length = some (m.slice start length) := by
  rw [slice?, Address.spanEnd?_eq h]
  rfl

theorem overwrite?_eq (start : Address) {bytes : List UInt8} (h : bytes.length < 2 ^ 63) :
    m.overwrite? start bytes = some (m.overwrite start bytes) := by
  rw [overwrite?, Address.spanEnd?_eq h]
  rfl

theorem storeRegisters?_eq (last : Register) :
    m.storeRegisters? last = some (m.storeRegisters last) := by
  have hlt := last.isLt
  have hlength : (Block.read m.registers 0 (last.val + 1)).length = last.val + 1 :=
    Block.length_read m.registers (by omega)
  rw [storeRegisters?, add?_eq (by omega)]
  exact m.overwrite?_eq m.index (by omega)

theorem loadRegisters?_eq (last : Register) :
    m.loadRegisters? last = some (m.loadRegisters last) := by
  have hlt := last.isLt
  rw [loadRegisters?, add?_eq (by omega), Option.bind_eq_bind, Option.bind_some,
    m.slice?_eq m.index (by omega)]
  rfl

theorem storeDecimal?_eq (x : Register) : m.storeDecimal? x = some (m.storeDecimal x) :=
  m.overwrite?_eq m.index (by decide : 3 < 2 ^ 63)

theorem addIndex?_eq (x : Register) : m.addIndex? x = some (m.addIndex x) := by
  have hlt : m.index.val < 0x1000 := m.index.isLt
  have hbyte : (m.reg x).toNat < 256 := (m.reg x).toNat_lt
  rw [addIndex?, add?_eq (by omega)]
  rfl

theorem pointAtGlyph?_eq (x : Register) : m.pointAtGlyph? x = some (m.pointAtGlyph x) := by
  have hheight : Font.glyphHeight * ((m.reg x).toNat % 16) ≤ 5 * 15 :=
    Nat.mul_le_mul (Nat.le_refl 5) (by omega)
  have hstart : Address.fontStart.val = 0 := rfl
  rw [pointAtGlyph?, mul?_eq (by omega), Option.bind_eq_bind, Option.bind_some,
    add?_eq (by omega)]
  rfl

end Machine

end ChipEight
