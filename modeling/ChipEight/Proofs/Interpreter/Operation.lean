import ChipEight.Proofs.Interpreter.Stability
import ChipEight.Proofs.Machine.Bounds

/-!
# Operations from outside

What the owner of an interpreter can do with it: load programs, execute instructions, run steps and
cycles, and reach into the machine and the devices.  An operation that fails leaves the interpreter
as far as it got, and the next one goes on from there.  Whatever the operations and their order,
the machine stays placed, and so what it accesses by number is there.
-/

namespace ChipEight

inductive Operation (D K : Type) where
  | load (source : List Read)
  | execute (i : Instruction) (now : Nat)
  | step (now : Nat)
  | cycle (now : Nat)
  | setRegister (r : Register) (value : UInt8)
  | setIndex (value : Address)
  | jump (target : Address)
  | advance
  | push (back : Address)
  | pop
  | storeRegisters (last : Register)
  | loadRegisters (last : Register)
  /-- Give memory any contents. -/
  | setMemory (bytes : Vector UInt8 memorySize)
  | setDisplay (display : D)
  | setKeyboard (keyboard : K)

namespace Operation

/-- Whether a return address is pushed that no call has left. -/
def pushes {D K : Type} : Operation D K → Bool
  | push _ => true
  | _ => false

variable {D K S G : Type} [Display D] [Keyboard K] [Speaker S] [Entropy G]

def command : Operation D K → Command D K S G Unit
  | load source => Interpreter.loadProgram source
  | execute i now => Interpreter.execute i now
  | step now => Interpreter.step now
  | cycle now => Interpreter.cycle now
  | setRegister r value => Command.alter (·.setReg r value)
  | setIndex value => Command.alter (·.setIndex value)
  | jump target => Command.attempt none (·.jump target)
  | advance => Command.attempt none Machine.advance
  | push back => Command.attempt none (·.push back)
  | pop => Command.attempt none fun m ↦ m.pop.map (·.2)
  | storeRegisters last => Command.attempt none (·.storeRegisters last)
  | loadRegisters last => Command.attempt none (·.loadRegisters last)
  | setMemory bytes => Command.alter ({ · with memory := bytes })
  | setDisplay display => modify ({ · with display })
  | setKeyboard keyboard => modify ({ · with keyboard })

end Operation

namespace Interpreter

open Command Machine

variable {D K S G : Type} [Display D] [Keyboard K] [Speaker S] [Entropy G]

/-- The interpreter after operations, some of which may have failed. -/
def after (s : Interpreter D K S G) (operations : List (Operation D K)) : Interpreter D K S G :=
  operations.foldl (fun s operation ↦ (s.perform operation.command).2) s

variable {P : Machine → Prop}

/-- A stable property is kept by an operation, if need be also by a push of any address. -/
theorem command_stable (hP : ControlStable P) {s : Interpreter D K S G} (h : P s.machine)
    (operation : Operation D K)
    (hpush : ∀ back, operation = .push back → s.machine.stack.length < 16 →
      P { s.machine with stack := back :: s.machine.stack }) :
    P (s.perform operation.command).2.machine := by
  cases operation with
  | load source => exact loadProgram_stable hP h source
  | execute i now => exact execute_stable hP h i now
  | step now => exact step_stable hP h now
  | cycle now => exact cycle_stable hP h now
  | jump target => exact attempt_jump_stable hP h none target
  | advance => exact attempt_advance_stable hP h none
  | push back =>
    rw [Operation.command]
    apply attempt_keeps none h
    intro m hm
    unfold Machine.push at hm
    split at hm <;> cases hm
    exact hpush back rfl ‹_›
  | pop =>
    rw [Operation.command]
    apply attempt_keeps none h
    intro m hm
    cases hstack : s.machine.stack with
    | nil => simp [Machine.pop, hstack, Except.map] at hm
    | cons back rest =>
      simp only [Machine.pop, hstack, Except.map, Except.ok.injEq] at hm
      rw [← hm]
      exact hP.pop h hstack
  | storeRegisters last =>
    rw [Operation.command]
    apply attempt_keeps none h
    intro m hm
    exact hP.same h (storeRegisters_sameControl hm)
  | loadRegisters last =>
    rw [Operation.command]
    apply attempt_keeps none h
    intro m hm
    exact hP.same h (loadRegisters_sameControl hm)
  | setRegister | setIndex | setMemory | setDisplay | setKeyboard => exact hP.same h ⟨rfl, rfl⟩

/-- A stable property is kept by operations that do not push. -/
theorem after_stable (hP : ControlStable P) {operations : List (Operation D K)}
    (hcalls : ∀ operation ∈ operations, operation.pushes = false) {s : Interpreter D K S G}
    (h : P s.machine) : P (s.after operations).machine := by
  induction operations generalizing s with
  | nil => exact h
  | cons operation rest ih =>
    have hkeep : P (s.perform operation.command).2.machine := by
      apply command_stable hP h operation
      rintro back rfl
      cases hcalls _ List.mem_cons_self
    apply ih _ hkeep
    intro next hnext
    exact hcalls next (List.mem_cons_of_mem _ hnext)

theorem after_placed {s : Interpreter D K S G} (h : s.machine.Placed)
    (operations : List (Operation D K)) : (s.after operations).machine.Placed := by
  induction operations generalizing s with
  | nil => exact h
  | cons operation rest ih =>
    have hkeep : (s.perform operation.command).2.machine.Placed :=
      command_stable placed_controlStable h operation fun _ _ hroom ↦ ⟨h.entry, hroom⟩
    exact ih hkeep

/-- Whatever is done with a new interpreter, in whatever order and with whatever failures, the
program counter is an entry, the stack fits its slots, and no access is out of bounds. -/
theorem after_inBounds (o : Options) (display : D) (keyboard : K) (speaker : S) (entropy : G)
    (operations : List (Operation D K)) :
    let m := ((ofOptions o display keyboard speaker entropy).after operations).machine
    m.pc.val % 2 = 0 ∧ 0x200 ≤ m.pc.val ∧ m.pc.val ≤ 0xFFE ∧ m.stack.length ≤ 16 ∧
      m.index.val < 0x1000 ∧ (∀ back ∈ m.stack, back.val < 0x1000) ∧ m.InBounds := by
  intro m
  have hfresh : (ofOptions o display keyboard speaker entropy).machine.Placed := initial_placed
  have hplaced : m.Placed := after_placed hfresh operations
  refine ⟨hplaced.entry.even, hplaced.entry.ge, hplaced.entry.le, hplaced.depth_le, ?_, ?_, ?_⟩
  · exact m.index.isLt
  · intro back _
    exact back.isLt
  · exact hplaced.inBounds

end Interpreter

end ChipEight
