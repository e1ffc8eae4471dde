import ChipEight.Proofs.Machine.Slots
import ChipEight.Proofs.Machine.Spans

/-!
# Accesses within bounds

A machine is placed if its program counter is an entry and its stack is not too deep.  Being placed
is stable, and whatever a placed machine accesses by number is there: both bytes of a fetch, the
slot of a push or a pop, and every byte of a span.
-/

namespace ChipEight.Machine

structure Placed (m : Machine) : Prop where
  entry : m.pc.IsEntry
  depth_le : m.stack.length ≤ 16

theorem initial_placed : initial.Placed := ⟨Address.programStart_isEntry, by decide⟩

theorem placed_controlStable : ControlStable Placed where
  entry h := h.entry
  same := by
    rintro m t ⟨hentry, hdepth⟩ ⟨hpc, hstack⟩
    exact ⟨hpc ▸ hentry, hstack ▸ hdepth⟩
  jump h htarget := ⟨htarget, h.depth_le⟩
  call h _ hroom := ⟨h.entry, hroom⟩
  pop := by
    rintro m back rest ⟨hentry, hdepth⟩ hstack
    rw [hstack] at hdepth
    exact ⟨hentry, Nat.le_of_succ_le hdepth⟩

/-- A placed machine each of whose return addresses is accepted by a jump. -/
structure Returnable (m : Machine) : Prop extends Placed m where
  returns : ∀ back ∈ m.stack, back.IsEntry

theorem initial_returnable : initial.Returnable := ⟨initial_placed, fun _ h ↦ nomatch h⟩

theorem returnable_controlStable : ControlStable Returnable where
  entry h := h.entry
  same := by
    rintro m t ⟨hplaced, hreturns⟩ hsame
    exact ⟨placed_controlStable.same hplaced hsame, hsame.2 ▸ hreturns⟩
  jump h htarget := ⟨placed_controlStable.jump h.toPlaced htarget, h.returns⟩
  call := by
    intro m h hlast hroom
    refine ⟨placed_controlStable.call h.toPlaced hlast hroom, ?_⟩
    intro back hback
    rcases List.mem_cons.mp hback with rfl | hrest
    · exact Address.following_isEntry h.entry hlast
    · exact h.returns back hrest
  pop := by
    intro m latest rest h hstack
    refine ⟨placed_controlStable.pop h.toPlaced hstack, ?_⟩
    intro back hback
    apply h.returns
    rw [hstack]
    exact List.mem_cons_of_mem _ hback

/-- The opcode at the program counter, with no result if one of its two bytes is not there. -/
def fetch? (m : Machine) : Option Opcode :=
  match m.memory[m.pc.val]?, m.memory[m.pc.val + 1]? with
  | some high, some low => some (Opcode.ofBytes high low)
  | _, _ => none

/-- The second byte of a fetch from an entry is the next one, without wrapping around. -/
theorem fetch?_eq {m : Machine} (h : m.pc.IsEntry) : m.fetch? = some m.fetch := by
  have hle := h.le
  have hlow : m.pc.val + 1 < 0x1000 := by omega
  have hnext : (Address.wrapping (m.pc.val + 1)).val = m.pc.val + 1 := Nat.mod_eq_of_lt hlow
  unfold fetch? fetch
  rw [Vector.getElem?_eq_getElem m.pc.isLt, Vector.getElem?_eq_getElem hlow]
  simp only [Fin.getElem_fin, hnext]

/-- What is accessed by number from this machine is there. -/
structure InBounds (m : Machine) : Prop where
  fetch : m.fetch? = some m.fetch
  /-- In slots, a push and a pop have a result, and it is the machine's. -/
  slots : ∃ slots : Slots, slots.Holds m.stack ∧
    (∀ back, ∃ result, slots.push? back = some result ∧ Slots.Follows result (m.push back)) ∧
    ∃ result, slots.pop? = some result ∧ Slots.FollowsWith result m.pop
  span {start : Address} {length stop : Nat} :
    start.spanEnd length = .ok stop → start.val ≤ stop ∧ stop ≤ memorySize
  program {bytes : List UInt8} {t : Machine} :
    m.loadProgram bytes = .ok t → Address.programStart.val + bytes.length ≤ memorySize

theorem Placed.inBounds {m : Machine} (h : m.Placed) : m.InBounds where
  fetch := fetch?_eq h.entry
  slots := by
    obtain ⟨slots, hslots⟩ := Slots.exists_holds h.depth_le
    exact ⟨slots, hslots, Slots.push?_follows hslots, Slots.pop?_follows hslots⟩
  span hspan := by
    obtain ⟨hle, rfl⟩ := Address.spanEnd_eq_ok_iff.mp hspan
    exact ⟨Nat.le_add_right _ _, hle⟩
  program hload := by
    rw [loadProgram_eq] at hload
    split at hload
    · change 0x200 + _ ≤ 0x1000
      omega
    · contradiction

end ChipEight.Machine
