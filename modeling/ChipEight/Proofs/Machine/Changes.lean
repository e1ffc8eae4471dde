import ChipEight.Proofs.Machine.Spans

/-!
# What an instruction may change

An instruction names the bytes and the registers that it writes.  `ChangesOnly` says that of memory,
the general registers and the index register a machine differs from another in what an instruction
names and in nothing else; it is built up one write at a time.  The program counter and the call
stack are not its concern.
-/

namespace ChipEight

namespace Instruction

/-- The register that receives the result. -/
def destination? : Instruction → Option Register
  | setImm x _ | addImm x _ | copy x _ | or x _ | and x _ | xor x _ | add x _ | sub x _
  | shiftRight x | subFrom x _ | shiftLeft x | random x _ | readDelay x | awaitKey x => some x
  | _ => none

/-- Whether the register receives one of the bytes that are read from memory. -/
def fills : Instruction → Register → Bool
  | load last, r => r ≤ last
  | _, _ => false

def names (i : Instruction) (r : Register) : Bool := i.destination? == some r || i.fills r

/-- Whether `VF` receives a carry, the lack of a borrow, or a bit that is shifted out. -/
def leavesCarry : Instruction → Bool
  | add _ _ | sub _ _ | shiftRight _ | subFrom _ _ | shiftLeft _ | addIndex _ => true
  | _ => false

/-- Whether `VF` tells of a collision of pixels. -/
def leavesCollision : Instruction → Bool
  | draw _ _ _ => true
  | _ => false

def mayChange (i : Instruction) (r : Register) : Bool :=
  i.names r || r == Register.flag && (i.leavesCarry || i.leavesCollision)

/-- How many bytes are written to memory from the index register on. -/
def storedLength : Instruction → Nat
  | decimal _ => 3
  | store last => last.val + 1
  | _ => 0

def setsIndex : Instruction → Bool
  | setIndex _ | addIndex _ | glyph _ => true
  | _ => false

theorem mayChange_of_destination {i : Instruction} {x : Register} (h : i.destination? = some x) :
    i.mayChange x = true := by
  rw [mayChange, names, h, beq_self_eq_true, Bool.true_or, Bool.true_or]

theorem mayChange_flag {i : Instruction} (h : (i.leavesCarry || i.leavesCollision) = true) :
    i.mayChange Register.flag = true := by
  rw [mayChange, h, beq_self_eq_true, Bool.true_and, Bool.or_true]

end Instruction

/-- A place outside of the block keeps its element. -/
theorem Block.getElem?_write_of_outside {α : Type} {n : Nat} (v : Vector α n) (start : Nat)
    (list : List α) {i : Nat} (h : i < start ∨ start + list.length ≤ i) :
    (Block.write v start list)[i]? = v[i]? := by
  rw [getElem?_write]
  split
  · have hnone : list[i - start]? = none := List.getElem?_eq_none_iff.mpr (by omega)
    rw [hnone, Option.none_or]
  · rfl

theorem Block.getElem_write_of_outside {α : Type} {n : Nat} (v : Vector α n) (start : Nat)
    (list : List α) {i : Nat} (hi : i < n) (h : i < start ∨ start + list.length ≤ i) :
    (Block.write v start list)[i] = v[i] := by
  apply Option.some.inj
  rw [← Vector.getElem?_eq_getElem hi, ← Vector.getElem?_eq_getElem hi]
  exact getElem?_write_of_outside v start list h

namespace Machine

/-- Memory, the general registers and the index register are the same. -/
structure SameData (m t : Machine) : Prop where
  memory : t.memory = m.memory
  registers : t.registers = m.registers
  index : t.index = m.index

/-- Memory, the general registers and the index register are the same but for what the instruction
names. -/
structure ChangesOnly (i : Instruction) (m t : Machine) : Prop where
  memory (a : Address) : a.val < m.index.val ∨ m.index.val + i.storedLength ≤ a.val →
    t.memory[a] = m.memory[a]
  registers (r : Register) : i.mayChange r = false → t.reg r = m.reg r
  index : i.setsIndex = false → t.index = m.index

namespace ChangesOnly

variable {i : Instruction} {m t u : Machine}

theorem of_sameData (h : m.SameData t) : ChangesOnly i m t where
  memory a _ := by rw [h.memory]
  registers r _ := by rw [reg, reg, h.registers]
  index _ := h.index

theorem trans_sameData (h : ChangesOnly i m t) (hsame : t.SameData u) : ChangesOnly i m u where
  memory a ha := by rw [hsame.memory, h.memory a ha]
  registers r hr := by rw [reg, hsame.registers, ← reg, h.registers r hr]
  index hi := by rw [hsame.index, h.index hi]

theorem setReg (h : ChangesOnly i m t) {x : Register} (hx : i.mayChange x = true)
    (value : UInt8) : ChangesOnly i m (t.setReg x value) where
  memory a ha := h.memory a ha
  registers r hr := by
    have hne : r ≠ x := by
      rintro rfl
      rw [hx] at hr
      cases hr
    rw [reg_setReg, if_neg hne, h.registers r hr]
  index hi := h.index hi

theorem setIndex (h : ChangesOnly i m t) (hsets : i.setsIndex = true) (value : Address) :
    ChangesOnly i m (t.setIndex value) where
  memory a ha := h.memory a ha
  registers r hr := h.registers r hr
  index hi := by
    rw [hsets] at hi
    cases hi

theorem setFlagged {x : Register} (hdestination : i.destination? = some x)
    (hflag : (i.leavesCarry || i.leavesCollision) = true) (flag : Bool) (result : UInt8) :
    ChangesOnly i m (m.setFlagged x flag result) := by
  apply setReg _ (Instruction.mayChange_of_destination hdestination)
  apply setReg _ (Instruction.mayChange_flag hflag)
  exact of_sameData ⟨rfl, rfl, rfl⟩

theorem poke {bytes : List UInt8} (hlength : bytes.length = i.storedLength) :
    ChangesOnly i m (m.poke m.index bytes) where
  memory a ha := by
    apply Block.getElem_write_of_outside
    rwa [hlength]
  registers r _ := rfl
  index _ := rfl

theorem fill {last : Register} {bytes : List UInt8} (hlength : bytes.length ≤ last.val + 1) :
    ChangesOnly (.load last) m { m with registers := Block.write m.registers 0 bytes } where
  memory a _ := rfl
  registers r hr := by
    have hlast : ¬ r ≤ last := by
      intro hle
      simp [Instruction.mayChange, Instruction.names, Instruction.fills, hle] at hr
    apply Block.getElem_write_of_outside
    have hlt : last.val < r.val := Nat.lt_of_not_le hlast
    omega
  index _ := rfl

end ChangesOnly

end Machine

end ChipEight
