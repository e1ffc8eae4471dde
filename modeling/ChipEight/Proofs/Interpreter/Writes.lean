import ChipEight.Proofs.Interpreter.Loading
import ChipEight.Proofs.Interpreter.Tone
import ChipEight.Proofs.Interpreter.Transfer

/-!
# Where operations write

An operation names the places in memory that it may write to, and leaves the others as they are.
So does a run of operations with what none of them writes to.
-/

namespace ChipEight

namespace Operation

variable {D K S G : Type} [Display D]

/-- Whether the operation may write to a place in memory. -/
def Writes (s : Interpreter D K S G) : Operation D K → Nat → Prop
  | load _, place => 0x200 ≤ place
  | setMemory _, _ => True
  | storeRegisters last, place =>
    s.machine.index.val ≤ place ∧ place < s.machine.index.val + (last.val + 1)
  | operation, place => ∃ i now, operation.executes? s = some (i, now) ∧
      s.machine.index.val ≤ place ∧ place < s.machine.index.val + i.storedLength

end Operation

namespace Interpreter

open Command Machine

variable {D K S G : Type}

theorem getElem?_memory_loadProgram (s : Interpreter D K S G) (source : List Read) {place : Nat}
    (h : place < 0x200) :
    (s.perform (loadProgram source)).2.machine.memory[place]? = s.machine.memory[place]? := by
  simp only [perform_loadProgram]
  cases (Read.intake (Address.programRoom + 1) source).fault? with
  | some text => rfl
  | none =>
    cases hload : s.machine.loadProgram (Read.intake (Address.programRoom + 1) source).bytes with
    | error fault => rfl
    | ok m =>
      dsimp only
      exact getElem?_loadProgram_of_outside hload (.inl h)

theorem memory_attempt (s : Interpreter D K S G) (context : Option Context)
    {f : Machine → Except Fault Machine}
    (h : ∀ m, f s.machine = .ok m → m.memory = s.machine.memory) :
    (s.perform (attempt context f)).2.machine.memory = s.machine.memory := by
  rw [perform_attempt]
  cases hresult : f s.machine with
  | error fault => rfl
  | ok m => exact h m hresult

variable [Display D] [Keyboard K] [Speaker S] [Entropy G]

theorem getElem?_memory_execute (s : Interpreter D K S G) (i : Instruction) (now : Nat)
    {place : Nat} (h : ¬ (s.machine.index.val ≤ place ∧
      place < s.machine.index.val + i.storedLength)) :
    (s.perform (execute i now)).2.machine.memory[place]? = s.machine.memory[place]? := by
  by_cases hplace : place < memorySize
  · have houtside : place < s.machine.index.val ∨
        s.machine.index.val + i.storedLength ≤ place := by omega
    rw [Vector.getElem?_eq_getElem hplace, Vector.getElem?_eq_getElem hplace]
    exact congrArg some ((execute_touchesOnly s i now).machine.memory ⟨place, hplace⟩ houtside)
  · rw [Vector.getElem?_eq_none (by omega), Vector.getElem?_eq_none (by omega)]

theorem getElem?_memory_step (s : Interpreter D K S G) (now : Nat) {place : Nat}
    (h : ¬ (Operation.step now : Operation D K).Writes s place) :
    (s.perform (step now)).2.machine.memory[place]? = s.machine.memory[place]? := by
  rw [perform_step]
  cases hcurrent : s.machine.current with
  | error fault => rfl
  | ok i =>
    apply getElem?_memory_execute
    intro hinside
    apply h
    refine ⟨i, now, ?_, hinside⟩
    rw [Operation.executes?, hcurrent]
    rfl

theorem getElem?_memory_cycle (s : Interpreter D K S G) (now : Nat) {place : Nat}
    (h : ¬ (Operation.cycle now : Operation D K).Writes s place) :
    (s.perform (cycle now)).2.machine.memory[place]? = s.machine.memory[place]? := by
  rw [perform_cycle]
  cases hpoll : (Display.poll s.display).1 with
  | error fault => rfl
  | ok =>
    apply getElem?_memory_step (s.polled now)
    rintro ⟨i, later, hexecutes, hinside⟩
    apply h
    refine ⟨i, later, ?_, hinside⟩
    rw [Operation.executes?, executed?, hpoll]
    exact hexecutes

/-- An operation leaves the places that it does not write to. -/
theorem getElem?_memory_command (s : Interpreter D K S G) (operation : Operation D K) {place : Nat}
    (h : ¬ operation.Writes s place) :
    (s.perform operation.command).2.machine.memory[place]? = s.machine.memory[place]? := by
  cases operation with
  | load source => exact s.getElem?_memory_loadProgram source (Nat.lt_of_not_le h)
  | execute i now => exact s.getElem?_memory_execute i now fun hinside ↦ h ⟨i, now, rfl, hinside⟩
  | step now => exact s.getElem?_memory_step now h
  | cycle now => exact s.getElem?_memory_cycle now h
  | storeRegisters last =>
    rw [Operation.command, perform_attempt_ite s none (storeRegisters_eq s.machine last)]
    split
    · apply Block.getElem?_write_of_outside
      rw [Block.length_read _ (by omega)]
      have houtside : ¬ (s.machine.index.val ≤ place ∧
        place < s.machine.index.val + (last.val + 1)) := h
      omega
    · rfl
  | loadRegisters last =>
    rw [Operation.command, perform_attempt_ite s none (loadRegisters_eq s.machine last)]
    split <;> rfl
  | setMemory bytes => exact absurd trivial h
  | jump target =>
    rw [Operation.command, memory_attempt s none]
    intro m hm
    obtain ⟨-, rfl⟩ := (jump_eq_ok_iff _ _ _).mp hm
    rfl
  | advance =>
    rw [Operation.command, memory_attempt s none]
    intro m hm
    exact (advance_sameData hm).memory
  | push back =>
    rw [Operation.command, memory_attempt s none]
    intro m hm
    unfold push at hm
    split at hm <;> cases hm
    rfl
  | pop =>
    rw [Operation.command, memory_attempt s none]
    intro m hm
    cases hstack : s.machine.stack <;> simp only [pop, hstack, Except.map] at hm <;> cases hm
    rfl
  | setRegister | setIndex | setDisplay | setKeyboard => rfl

/-- No operation writes to one of the places below `limit`. -/
def SparesBelow (s : Interpreter D K S G) (limit : Nat) : List (Operation D K) → Prop
  | [] => True
  | operation :: rest => (∀ place < limit, ¬ operation.Writes s place) ∧
      (s.perform operation.command).2.SparesBelow limit rest

/-- Places that no operation writes to stay as they are through a run. -/
theorem getElem?_memory_after {limit : Nat} {s : Interpreter D K S G}
    {operations : List (Operation D K)} (h : s.SparesBelow limit operations) {place : Nat}
    (hplace : place < limit) :
    (s.after operations).machine.memory[place]? = s.machine.memory[place]? := by
  induction operations generalizing s with
  | nil => rfl
  | cons operation rest ih =>
    exact (ih h.2).trans (s.getElem?_memory_command operation (h.1 place hplace))

end Interpreter

end ChipEight
