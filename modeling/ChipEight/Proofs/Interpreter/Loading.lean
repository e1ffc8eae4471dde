import ChipEight.Display
import ChipEight.Keyboard
import ChipEight.Proofs.Interpreter.Effect
import ChipEight.Proofs.Machine.Changes
import ChipEight.Proofs.Program.Delivered

/-!
# Loading a program

How a source cuts its data into reads does not matter to the program that is loaded, and neither do
interruptions.  Only three things can happen: a failure of the source that comes in time stops the
loading, a program that does not fit is refused, and any other is copied to memory.  Nothing but a
whole program ever gets there.
-/

namespace ChipEight

namespace Machine

variable {m t : Machine} {program : List UInt8}

/-- A program that is loaded replaces memory from `0x200` on and nothing else. -/
theorem loadProgram_eq_ok (h : m.loadProgram program = .ok t) :
    program.length ≤ 0xE00 ∧ t = m.poke 0x200 program := by
  rw [loadProgram_eq] at h
  split at h <;> cases h
  exact ⟨‹_›, rfl⟩

theorem getElem?_loadProgram (h : m.loadProgram program = .ok t) {k : Nat}
    (hk : k < program.length) : t.memory[0x200 + k]? = some program[k] := by
  obtain ⟨hroom, rfl⟩ := loadProgram_eq_ok h
  have hinside : 0x200 ≤ 0x200 + k ∧ 0x200 + k < 0x1000 := by omega
  calc
    _ = if 0x200 ≤ 0x200 + k ∧ 0x200 + k < 0x1000 then
        program[0x200 + k - 0x200]?.or m.memory[0x200 + k]? else m.memory[0x200 + k]? :=
      Block.getElem?_write m.memory 0x200 program (0x200 + k)
    _ = some program[k] := by
      rw [if_pos hinside, Nat.add_sub_cancel_left, List.getElem?_eq_getElem hk, Option.some_or]

theorem getElem?_loadProgram_of_outside (h : m.loadProgram program = .ok t) {place : Nat}
    (hplace : place < 0x200 ∨ 0x200 + program.length ≤ place) :
    t.memory[place]? = m.memory[place]? := by
  obtain ⟨-, rfl⟩ := loadProgram_eq_ok h
  exact Block.getElem?_write_of_outside m.memory 0x200 program hplace

end Machine

namespace Interpreter

open Command Read

variable {D K S G : Type} {data : List UInt8} {failure? : Option (Nat × String)}
variable {source : List Read}

/-- Whatever the reads by which a source delivers its data, a failure that comes in time stops the
loading, more data than fit are refused, and otherwise they are the program that is loaded.  Of a
program that is not loaded nothing is left, and no more is taken from the source than tells that it
does not fit. -/
theorem loadProgram_of_delivers (h : Delivers data failure? source) (s : Interpreter D K S G) :
    (∀ place text, failure? = some (place, text) → place ≤ min data.length 3584 →
      s.perform (loadProgram source) = (.error ⟨.device text, some .readingProgram⟩, s)) ∧
    ((∀ failure ∈ failure?, min data.length 3584 < failure.1) →
      (3584 < data.length →
        s.perform (loadProgram source) = (.error ⟨.programTooLarge 3585, none⟩, s)) ∧
      (data.length ≤ 3584 → ∃ m : Machine,
        s.perform (loadProgram source) = (.ok (), { s with
          machine := m, journal := s.journal.note (.programLoaded data.length) }) ∧
        s.machine.loadProgram data = .ok m ∧
        (∀ (k : Nat) (hk : k < data.length), m.memory[0x200 + k]? = some data[k]) ∧
        (∀ place, place < 0x200 ∨ 0x200 + data.length ≤ place →
          m.memory[place]? = s.machine.memory[place]?) ∧
        m = { s.machine with memory := m.memory })) ∧
    ∃ taken ≤ 3585, (Read.intake (Address.programRoom + 1) source).bytes = data.take taken := by
  have hlimit : Address.programRoom + 1 = 3585 := rfl
  rw [perform_loadProgram, hlimit]
  refine ⟨?_, ?_, ?_⟩
  · intro place text hfailure hplace
    rw [h.intake_of_failure hfailure (by omega) (by omega)]
  · intro hlater
    have hintake : intake 3585 source = { bytes := data.take 3585 } := by
      apply h.intake_of_no_failure
      intro failure hfailure
      have hplace := hlater failure hfailure
      omega
    rw [hintake]
    refine ⟨?_, ?_⟩
    · intro hlarge
      have hlength : (data.take 3585).length = 3585 := List.length_take_of_le hlarge
      dsimp only
      rw [Machine.loadProgram_eq, if_neg (by omega), hlength]
    · intro hfits
      have hwhole : data.take 3585 = data := List.take_of_length_le (by omega)
      have hload : s.machine.loadProgram data = .ok (s.machine.poke 0x200 data) := by
        rw [Machine.loadProgram_eq, if_pos hfits]
      dsimp only
      rw [hwhole, hload]
      refine ⟨_, rfl, rfl, ?_, ?_, rfl⟩
      · intro k hk
        exact Machine.getElem?_loadProgram hload hk
      · intro place hplace
        exact Machine.getElem?_loadProgram_of_outside hload hplace
  · exact h.exists_bytes_intake_eq 3585

/-- An interpreter for examples. -/
def unloaded : Interpreter Frame KeyScript Mute StdGen := ofOptions {} {} {} {} ⟨1, 1⟩

/-- Four bytes in interrupted reads of two at most: loaded, and not loaded because of a failure. -/
theorem loadProgram_of_delivers_in_twos :
    let data : List UInt8 := [0x6A, 0x05, 0x12, 0x00]
    let whole : Delivery := { chunkSize := 2, interrupts := true }
    let broken : Delivery := { whole with failure? := some (4, "unplugged") }
    (Delivers data none (whole.reads data) ∧
      ∃ m, unloaded.perform (loadProgram (whole.reads data)) = (.ok (), { unloaded with
          machine := m, journal := unloaded.journal.note (.programLoaded 4) }) ∧
        unloaded.machine.loadProgram data = .ok m) ∧
    (Delivers data (some (4, "unplugged")) (broken.reads data) ∧
      unloaded.perform (loadProgram (broken.reads data)) =
        (.error ⟨.device "unplugged", some .readingProgram⟩, unloaded)) := by
  intro data whole broken
  have hwhole : Delivers data none (whole.reads data) := whole.reads_deliver (by decide) data
  have hbroken : Delivers data (some (4, "unplugged")) (broken.reads data) :=
    broken.reads_deliver (by decide) data
  obtain ⟨-, hloads, -⟩ := loadProgram_of_delivers hwhole unloaded
  obtain ⟨hfails, -, -⟩ := loadProgram_of_delivers hbroken unloaded
  obtain ⟨m, hloaded, hsame, -⟩ := (hloads (fun _ h ↦ nomatch h)).2 (by decide)
  exact ⟨⟨hwhole, m, hloaded, hsame⟩, hbroken, hfails 4 "unplugged" rfl (by decide)⟩

end Interpreter

end ChipEight
