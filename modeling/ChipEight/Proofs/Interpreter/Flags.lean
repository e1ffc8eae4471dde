import ChipEight.Proofs.Interpreter.Effect

/-!
# Arithmetic with flags

Five instructions on registers leave a result and a flag, and the two together tell the exact value
of what was computed from the operands before the instruction.  The result stands in the first
register and the flag in `VF`, whichever registers the operands were; only if the result itself has
to stand in `VF` the flag is lost.  An addition to the index register leaves its carry in `VF` in
any case.
-/

namespace ChipEight

/-- The instructions on general registers that set a flag. -/
inductive FlagOperation where
  | add
  | sub
  | subFrom
  | shiftRight
  | shiftLeft
  deriving DecidableEq

namespace FlagOperation

def instruction (x y : Register) : FlagOperation → Instruction
  | add => .add x y
  | sub => .sub x y
  | subFrom => .subFrom x y
  | shiftRight => .shiftRight x
  | shiftLeft => .shiftLeft x

def result (a b : UInt8) : FlagOperation → UInt8
  | add => a + b
  | sub => a - b
  | subFrom => b - a
  | shiftRight => a >>> 1
  | shiftLeft => a <<< 1

def flag (a b : UInt8) : FlagOperation → Bool
  | add => 0xFF < a.toNat + b.toNat
  | sub => b ≤ a
  | subFrom => a ≤ b
  | shiftRight => a.toNat % 2 = 1
  | shiftLeft => 0x80 ≤ a

/-- What result and flag tell of the operands: a carry is worth `256`, a borrow is the lack of a
flag, and a shift halves or doubles. -/
def Law (a b result flag : Int) : FlagOperation → Prop
  | add => result + 256 * flag = a + b
  | sub => result = a - b + 256 * (1 - flag)
  | subFrom => result = b - a + 256 * (1 - flag)
  | shiftRight => a = 2 * result + flag
  | shiftLeft => 2 * a = result + 256 * flag

theorem toNat_decide (p : Prop) [Decidable p] : (decide p).toNat = if p then 1 else 0 := by
  by_cases h : p
  · rw [decide_eq_true h, if_pos h, Bool.toNat_true]
  · rw [decide_eq_false h, if_neg h, Bool.toNat_false]

theorem sub_law (a b : UInt8) :
    ((a - b).toNat : Int) = a.toNat - b.toNat + 256 * (1 - (decide (b ≤ a)).toNat) := by
  have ha := a.toNat_lt
  have hb := b.toNat_lt
  rw [UInt8.toNat_sub, toNat_decide]
  simp only [UInt8.le_iff_toNat_le]
  split <;> omega

theorem law (op : FlagOperation) (a b : UInt8) :
    op.Law a.toNat b.toNat (op.result a b).toNat (op.flag a b).toNat := by
  have ha := a.toNat_lt
  have hb := b.toNat_lt
  cases op with
  | add =>
    simp only [Law, result, flag, UInt8.toNat_add, toNat_decide]
    split <;> omega
  | sub => exact sub_law a b
  | subFrom => exact sub_law b a
  | shiftRight =>
    have hshift : (a >>> 1).toNat = a.toNat / 2 := UInt8.toNat_shiftRight a 1
    simp only [Law, result, flag, hshift, toNat_decide]
    split <;> omega
  | shiftLeft =>
    have hshift : (a <<< 1).toNat = a.toNat * 2 % 256 := by
      rw [UInt8.toNat_shiftLeft]
      exact congrArg (· % 256) (Nat.shiftLeft_eq a.toNat 1)
    have htop : 0x80 ≤ a ↔ 0x80 ≤ a.toNat := Iff.rfl
    simp only [Law, result, flag, hshift, htop, toNat_decide]
    split <;> omega

end FlagOperation

namespace Machine

/-- The result is written last, and so it stands where both are written. -/
theorem reg_setFlagged (m : Machine) (x q : Register) (flag : Bool) (result : UInt8) :
    (m.setFlagged x flag result).reg q =
      if q = x then result else if q = Register.flag then flag.toUInt8 else m.reg q := by
  rw [setFlagged, reg_setReg, reg_setReg]

end Machine

namespace Interpreter

open Command Machine

variable {D K S G : Type} [Display D] [Keyboard K] [Speaker S] [Entropy G]

/-- Moving on leaves the registers alone. -/
theorem reg_execute (s : Interpreter D K S G) (i : Instruction) (now : Nat) (q : Register) :
    (s.perform (execute i now)).2.machine.reg q =
      (s.perform (effect i now)).2.machine.reg q := by
  obtain ⟨pc, hmoved⟩ := s.exists_execute_eq_moved i now
  rw [hmoved]
  rfl

theorem effect_flagOperation (s : Interpreter D K S G) (op : FlagOperation) (x y : Register)
    (now : Nat) :
    (s.perform (effect (op.instruction x y) now)).2.machine =
      s.machine.setFlagged x (op.flag (s.machine.reg x) (s.machine.reg y))
        (op.result (s.machine.reg x) (s.machine.reg y)) := by
  cases op <;> rfl

theorem index_execute_addIndex (s : Interpreter D K S G) (x : Register) (now : Nat) :
    (s.perform (execute (.addIndex x) now)).2.machine.index =
      Address.wrapping (s.machine.index.val + (s.machine.reg x).toNat) := by
  obtain ⟨pc, hmoved⟩ := s.exists_execute_eq_moved (.addIndex x) now
  rw [hmoved]
  rfl

theorem reg_execute_addIndex (s : Interpreter D K S G) (x : Register) (now : Nat) (q : Register) :
    (s.perform (execute (.addIndex x) now)).2.machine.reg q =
      if q = Register.flag then
        (decide (0xFFF < s.machine.index.val + (s.machine.reg x).toNat)).toUInt8
      else s.machine.reg q := by
  rw [reg_execute]
  exact reg_setReg _ _ _ _

/-- Whichever registers `x` and `y` are, result and flag obey the law of the operation on the values
before it, and no other register changes.  The flag stays unless the result takes its place. -/
theorem flag_arithmetic (s : Interpreter D K S G) (x y : Register) (now : Nat) :
    (∀ op : FlagOperation, ∃ (result : UInt8) (flag : Bool),
      let t := (s.perform (execute (op.instruction x y) now)).2.machine
      op.Law (s.machine.reg x).toNat (s.machine.reg y).toNat result.toNat flag.toNat ∧
      t.reg x = result ∧
      t.reg Register.flag = (if x = Register.flag then result else flag.toUInt8) ∧
      ∀ q, q ≠ x → q ≠ Register.flag → t.reg q = s.machine.reg q) ∧
    (∃ carry : Bool,
      let t := (s.perform (execute (.addIndex x) now)).2.machine
      t.index.val + 0x1000 * carry.toNat = s.machine.index.val + (s.machine.reg x).toNat ∧
      t.index.val < 0x1000 ∧ t.reg Register.flag = carry.toUInt8 ∧
      ∀ q, q ≠ Register.flag → t.reg q = s.machine.reg q) ∧
    ∀ value, x ≠ Register.flag →
      (s.perform (execute (.addImm x value) now)).2.machine.reg Register.flag =
        s.machine.reg Register.flag := by
  refine ⟨?_, ?_, ?_⟩
  · intro op
    let a := s.machine.reg x
    let b := s.machine.reg y
    have hafter (q : Register) :
        (s.perform (execute (op.instruction x y) now)).2.machine.reg q =
          if q = x then op.result a b
          else if q = Register.flag then (op.flag a b).toUInt8 else s.machine.reg q := by
      rw [reg_execute, effect_flagOperation, reg_setFlagged]
    refine ⟨op.result a b, op.flag a b, op.law a b, ?_, ?_, ?_⟩
    · rw [hafter, if_pos rfl]
    · rw [hafter, if_pos rfl]
      simp only [eq_comm]
    · intro q hx hflag
      rw [hafter, if_neg hx, if_neg hflag]
  · let sum := s.machine.index.val + (s.machine.reg x).toNat
    refine ⟨decide (0xFFF < sum), ?_, Fin.isLt _, ?_, ?_⟩
    · have hindex : s.machine.index.val < 0x1000 := s.machine.index.isLt
      have hreg := (s.machine.reg x).toNat_lt
      rw [index_execute_addIndex, Address.val_wrapping, FlagOperation.toNat_decide]
      change sum % 0x1000 + 0x1000 * (if 0xFFF < sum then 1 else 0) = sum
      split <;> omega
    · rw [reg_execute_addIndex, if_pos rfl]
    · intro q hq
      rw [reg_execute_addIndex, if_neg hq]
  · intro value hx
    rw [reg_execute]
    calc
      _ = (s.machine.setReg x (s.machine.reg x + value)).reg Register.flag := rfl
      _ = s.machine.reg Register.flag := by rw [reg_setReg, if_neg hx.symm]

end Interpreter

end ChipEight
