import ChipEight.Proofs.Interpreter.Footprint

/-!
# The timers of an interpreter

Each timer is set by one instruction, from a register and at the time of the cycle.  Apart from that
a cycle does no more to the timers than to poll them, and it polls them first.
-/

namespace ChipEight

inductive Timer where
  | delay
  | sound
  deriving DecidableEq

/-- The register from which an instruction sets a timer. -/
def Instruction.sets? : Timer → Instruction → Option Register
  | .delay, .setDelay x => some x
  | .sound, .setSound x => some x
  | _, _ => none

theorem Instruction.startsDelay_eq (i : Instruction) : i.startsDelay = (i.sets? .delay).isSome := by
  cases i <;> rfl

theorem Instruction.startsSound_eq (i : Instruction) : i.startsSound = (i.sets? .sound).isSome := by
  cases i <;> rfl

namespace Interpreter

variable {D K S G : Type}

def timer (s : Interpreter D K S G) : Timer → Countdown
  | .delay => s.delay
  | .sound => s.sound

/-- A timer after an instruction. -/
def timerAfter (s : Interpreter D K S G) (which : Timer) (i : Instruction) (now : Nat) :
    Countdown :=
  match i.sets? which with
  | some x => (s.timer which).set (s.machine.reg x) now
  | none => s.timer which

variable [Display D] [Keyboard K] [Speaker S] [Entropy G]

/-- The register from which the next cycle sets a timer, if it gets as far. -/
def nextSets? (s : Interpreter D K S G) (which : Timer) : Option Register :=
  s.executed?.bind (·.sets? which)

theorem timer_effect (s : Interpreter D K S G) (which : Timer) (i : Instruction) (now : Nat) :
    (s.perform (effect i now)).2.timer which = s.timerAfter which i now := by
  have htouches := effect_touchesOnly s i now
  cases hsets : i.sets? which with
  | some x =>
    cases which with
    | delay =>
      cases i <;> cases hsets
      rfl
    | sound =>
      cases i <;> cases hsets
      rfl
  | none =>
    rw [timerAfter, hsets]
    cases which with
    | delay =>
      apply htouches.delay
      rw [i.startsDelay_eq, hsets, Option.isSome_none]
    | sound =>
      apply htouches.sound
      rw [i.startsSound_eq, hsets, Option.isSome_none]

theorem timer_execute (s : Interpreter D K S G) (which : Timer) (i : Instruction) (now : Nat) :
    (s.perform (execute i now)).2.timer which = s.timerAfter which i now := by
  obtain ⟨pc, hmoved⟩ := s.exists_execute_eq_moved i now
  rw [hmoved, ← timer_effect]
  cases which <;> rfl

/-- A cycle that succeeds polls a timer, and then sets it if its instruction does. -/
theorem timer_cycle {s t : Interpreter D K S G} {now : Nat}
    (h : s.perform (cycle now) = (.ok (), t)) (which : Timer) :
    t.timer which =
      match s.nextSets? which with
      | some x => ((s.timer which).poll now).set (s.machine.reg x) now
      | none => (s.timer which).poll now := by
  obtain ⟨i, journal, -, hexecuted, hexecute⟩ := exists_execute_of_cycle h
  have hafter := timer_execute { s.polled now with journal } which i now
  have hpolled : timer { s.polled now with journal } which = (s.timer which).poll now := by
    cases which <;> rfl
  rw [hexecute, timerAfter, hpolled] at hafter
  rw [nextSets?, hexecuted]
  exact hafter

end Interpreter

end ChipEight
