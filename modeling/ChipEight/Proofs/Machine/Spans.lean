import ChipEight.Proofs.Machine.Control

/-!
# Spans of memory

Every access of more than a fetch is to a span that begins at a given place, as a rule the index
register.  It is made exactly if the span ends within memory, and otherwise the fault names the last
byte of the span.  None of these operations transfers control.
-/

namespace ChipEight

theorem Address.spanEnd_eq_ok_iff {start : Address} {length stop : Nat} :
    start.spanEnd length = .ok stop ↔ start.val + length ≤ 0x1000 ∧ stop = start.val + length := by
  unfold spanEnd
  split
  · simp [*, eq_comm]
  · simp [*]

namespace Machine

theorem slice_eq (m : Machine) (start : Address) (length : Nat) :
    m.slice start length =
      if start.val + length ≤ 0x1000 then .ok (Block.read m.memory start length)
      else .error (.outOfRange (start.val + length - 1)) := by
  unfold slice Address.spanEnd
  split <;> rfl

theorem overwrite_eq (m : Machine) (start : Address) (bytes : List UInt8) :
    m.overwrite start bytes =
      if start.val + bytes.length ≤ 0x1000 then .ok (m.poke start bytes)
      else .error (.outOfRange (start.val + bytes.length - 1)) := by
  unfold overwrite Address.spanEnd
  split <;> rfl

theorem storeDecimal_eq (m : Machine) (x : Register) :
    m.storeDecimal x =
      if m.index.val + 3 ≤ 0x1000 then .ok (m.poke m.index (decimalDigits (m.reg x)))
      else .error (.outOfRange (m.index.val + 3 - 1)) :=
  overwrite_eq m m.index (decimalDigits (m.reg x))

theorem storeRegisters_eq (m : Machine) (last : Register) :
    m.storeRegisters last =
      if m.index.val + (last.val + 1) ≤ 0x1000 then
        .ok (m.poke m.index (Block.read m.registers 0 (last.val + 1)))
      else .error (.outOfRange (m.index.val + (last.val + 1) - 1)) := by
  have hlength : (Block.read m.registers 0 (last.val + 1)).length = last.val + 1 :=
    Block.length_read m.registers (by omega)
  unfold storeRegisters
  rw [overwrite_eq, hlength]

theorem loadRegisters_eq (m : Machine) (last : Register) :
    m.loadRegisters last =
      if m.index.val + (last.val + 1) ≤ 0x1000 then
        .ok { m with
          registers := Block.write m.registers 0 (Block.read m.memory m.index (last.val + 1)) }
      else .error (.outOfRange (m.index.val + (last.val + 1) - 1)) := by
  unfold loadRegisters
  rw [slice_eq]
  split <;> rfl

theorem loadProgram_eq (m : Machine) (program : List UInt8) :
    m.loadProgram program =
      if program.length ≤ 0xE00 then .ok (m.poke 0x200 program)
      else .error (.programTooLarge program.length) := rfl

/-! ## Control -/

theorem overwrite_sameControl {m t : Machine} {start : Address} {bytes : List UInt8}
    (h : m.overwrite start bytes = .ok t) : m.SameControl t := by
  rw [overwrite_eq] at h
  split at h <;> cases h
  exact ⟨rfl, rfl⟩

theorem storeRegisters_sameControl {m t : Machine} {last : Register}
    (h : m.storeRegisters last = .ok t) : m.SameControl t := overwrite_sameControl h

theorem loadRegisters_sameControl {m t : Machine} {last : Register}
    (h : m.loadRegisters last = .ok t) : m.SameControl t := by
  rw [loadRegisters_eq] at h
  split at h <;> cases h
  exact ⟨rfl, rfl⟩

theorem loadProgram_sameControl {m t : Machine} {program : List UInt8}
    (h : m.loadProgram program = .ok t) : m.SameControl t := by
  rw [loadProgram_eq] at h
  split at h <;> cases h
  exact ⟨rfl, rfl⟩

end Machine

end ChipEight
