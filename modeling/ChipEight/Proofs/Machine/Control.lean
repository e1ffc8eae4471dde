import ChipEight.Machine

/-!
# Transfer of control

An instruction may start at an even place of the program area.  A jump is accepted exactly for
those places, and moving on is a jump to the next instruction, which exists everywhere but at the
last entry.  The operations on registers and memory leave the program counter and the call stack
alone, so a property of these two alone is kept by a machine if jumps, calls and returns keep it.
-/

namespace ChipEight

namespace Address

/-- An instruction may start here. -/
structure IsEntry (a : Address) : Prop where
  even : a.val % 2 = 0
  ge : 0x200 ≤ a.val
  le : a.val ≤ 0xFFE

theorem programStart_isEntry : programStart.IsEntry := ⟨rfl, Nat.le_refl _, by decide⟩

/-- The place after the instruction at `a`, if that is not the last one. -/
def following (a : Address) : Address := wrapping (a.val + 2)

theorem val_following {a : Address} (h : a.IsEntry) (hlast : a.val ≠ 0xFFE) :
    a.following.val = a.val + 2 := by
  have heven := h.even
  have hle := h.le
  have hlt : a.val + 2 < memorySize := by
    change a.val + 2 < 0x1000
    omega
  exact Nat.mod_eq_of_lt hlt

theorem following_isEntry {a : Address} (h : a.IsEntry) (hlast : a.val ≠ 0xFFE) :
    a.following.IsEntry := by
  have hval := val_following h hlast
  have heven := h.even
  have hge := h.ge
  have hle := h.le
  exact ⟨by omega, by omega, by omega⟩

/-- Two places further on there is a place unless the start is the last entry. -/
theorem offset_two {a : Address} (h : a.IsEntry) :
    a.offset 2 = if a.val = 0xFFE then .error (.outOfRange 0x1000) else .ok a.following := by
  unfold offset checked
  by_cases hlast : a.val = 0xFFE
  · rw [if_pos hlast, dif_neg (by rw [hlast]; decide), hlast]
  · have hval := val_following h hlast
    rw [if_neg hlast, dif_pos (by rw [← hval]; exact a.following.isLt)]
    congr 1
    exact Fin.ext hval.symm

end Address

namespace Machine

/-! ## Jumps -/

theorem jump_eq (m : Machine) (target : Address) :
    m.jump target =
      if target.val < 0x200 ∨ 0xFFE < target.val then .error (.outOfRange target.val)
      else if target.val % 2 = 1 then .error (.misaligned target)
      else .ok { m with pc := target } := by
  have hrange : (target < Address.programStart ∨ lastEntry < target) ↔
      (target.val < 0x200 ∨ 0xFFE < target.val) := Iff.rfl
  simp only [jump, hrange, Address.aligned]
  split
  · rfl
  · rcases Nat.mod_two_eq_zero_or_one target.val with h | h <;> simp [h, Except.map]

theorem jump_of_isEntry (m : Machine) {target : Address} (h : target.IsEntry) :
    m.jump target = .ok { m with pc := target } := by
  have heven := h.even
  have hge := h.ge
  have hle := h.le
  rw [jump_eq, if_neg (by omega), if_neg (by omega)]

theorem jump_eq_ok_iff (m : Machine) (target : Address) (t : Machine) :
    m.jump target = .ok t ↔ target.IsEntry ∧ t = { m with pc := target } := by
  constructor
  · intro h
    rw [jump_eq] at h
    split at h
    · contradiction
    · split at h
      · contradiction
      · cases h
        exact ⟨⟨by omega, by omega, by omega⟩, rfl⟩
  · rintro ⟨hentry, rfl⟩
    exact jump_of_isEntry m hentry

/-! ## Moving on -/

theorem advance_eq {m : Machine} (h : m.pc.IsEntry) :
    m.advance =
      if m.pc.val = 0xFFE then .error (.outOfRange 0x1000)
      else .ok { m with pc := m.pc.following } := by
  unfold advance
  rw [Address.offset_two h]
  by_cases hlast : m.pc.val = 0xFFE
  · simp only [if_pos hlast]
  · simp only [if_neg hlast]
    exact jump_of_isEntry m (Address.following_isEntry h hlast)

theorem advance_eq_ok_iff {m : Machine} (h : m.pc.IsEntry) (t : Machine) :
    m.advance = .ok t ↔ m.pc.val ≠ 0xFFE ∧ t = { m with pc := m.pc.following } := by
  rw [advance_eq h]
  split
  · simp [*]
  · simp [*, eq_comm]

/-! ## Stable properties -/

/-- Program counter and call stack are the same. -/
def SameControl (m t : Machine) : Prop := t.pc = m.pc ∧ t.stack = m.stack

/-- A property of the program counter and the call stack that jumps, calls and returns keep. -/
structure ControlStable (P : Machine → Prop) : Prop where
  entry {m : Machine} : P m → m.pc.IsEntry
  same {m t : Machine} : P m → m.SameControl t → P t
  jump {m : Machine} {target : Address} : P m → target.IsEntry → P { m with pc := target }
  /-- A call leaves the place after it on the stack. -/
  call {m : Machine} : P m → m.pc.val ≠ 0xFFE → m.stack.length < 16 →
    P { m with stack := m.pc.following :: m.stack }
  pop {m : Machine} {back : Address} {rest : List Address} : P m → m.stack = back :: rest →
    P { m with stack := rest }

end Machine

end ChipEight
