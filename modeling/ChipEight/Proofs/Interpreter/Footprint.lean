import ChipEight.Proofs.Interpreter.CallStack
import ChipEight.Proofs.Machine.Changes
import ChipEight.Proofs.Machine.Slots

/-!
# Footprints of instructions

Whether it fails or not, an instruction changes what it names and nothing else: bytes of memory and
registers, the index register, the call stack, the display, the timers.  A tone is started by
setting the sound timer alone, and the keyboard is waited for by one instruction alone; both are
done once.
-/

namespace ChipEight

namespace Instruction

def paints : Instruction → Bool
  | cls | draw _ _ _ => true
  | _ => false

def startsDelay : Instruction → Bool
  | setDelay _ => true
  | _ => false

def startsSound : Instruction → Bool
  | setSound _ => true
  | _ => false

def isCall : Instruction → Bool
  | call _ => true
  | _ => false

end Instruction

namespace Interpreter

open Command Machine Instruction

variable {D K S G : Type}

/-- The speaker after an instruction: setting the sound timer starts one tone. -/
def speakerAfter [Speaker S] (s : Interpreter D K S G) (now : Nat) : Instruction → S
  | .setSound x => Speaker.tone s.speaker now ((s.machine.reg x).toNat * s.sound.period)
  | _ => s.speaker

/-- The keyboard after an instruction: waiting for a key is one wait. -/
def keyboardAfter [Keyboard K] (s : Interpreter D K S G) : Instruction → K
  | .awaitKey _ => (Keyboard.await s.keyboard).2
  | _ => s.keyboard

/-- Control apart, nothing has changed but what the instruction names. -/
structure TouchesOnly [Keyboard K] [Speaker S] (i : Instruction) (now : Nat)
    (s t : Interpreter D K S G) : Prop where
  machine : s.machine.ChangesOnly i t.machine
  display : i.paints = false → t.display = s.display
  delay : i.startsDelay = false → t.delay = s.delay
  sound : i.startsSound = false → t.sound = s.sound
  speaker : t.speaker = s.speakerAfter now i
  keyboard : t.keyboard = s.keyboardAfter i

variable {s t : Interpreter D K S G} {i : Instruction} {now : Nat}

/-- A change of the machine alone, by an instruction that asks nothing of speaker and keyboard. -/
theorem TouchesOnly.of_machine [Keyboard K] [Speaker S] {m : Machine}
    (hm : s.machine.ChangesOnly i m) (hspeaker : s.speakerAfter now i = s.speaker)
    (hkeyboard : s.keyboardAfter i = s.keyboard) : TouchesOnly i now s { s with machine := m } where
  machine := hm
  display _ := rfl
  delay _ := rfl
  sound _ := rfl
  speaker := hspeaker.symm
  keyboard := hkeyboard.symm

theorem TouchesOnly.redirected [Keyboard K] [Speaker S] (h : TouchesOnly i now s t) (pc : Address)
    (stack : List Address) : TouchesOnly i now s (t.redirected pc stack) where
  machine := h.machine.trans_sameData ⟨rfl, rfl, rfl⟩
  display := h.display
  delay := h.delay
  sound := h.sound
  speaker := h.speaker
  keyboard := h.keyboard

/-! ## Effects -/

variable [Display D] [Keyboard K] [Speaker S] [Entropy G]

theorem effect_touchesOnly_of_control (s : Interpreter D K S G)
    (h : i.transfersControl = true ∨ i.isSkip = true) (now : Nat) :
    TouchesOnly i now s (s.perform (effect i now)).2 := by
  obtain ⟨pc, hredirected⟩ := s.exists_effect_eq_redirected h now
  have hspeaker : s.speakerAfter now i = s.speaker := by
    cases i <;> first | rfl | (rcases h with h | h <;> cases h)
  have hkeyboard : s.keyboardAfter i = s.keyboard := by
    cases i <;> first | rfl | (rcases h with h | h <;> cases h)
  rw [hredirected]
  exact (TouchesOnly.of_machine (.of_sameData ⟨rfl, rfl, rfl⟩) hspeaker hkeyboard).redirected pc _

theorem effect_touchesOnly_of_isPlain (s : Interpreter D K S G) (h : i.isPlain = true)
    (now : Nat) : TouchesOnly i now s (s.perform (effect i now)).2 := by
  have hsame : s.machine.ChangesOnly i s.machine := .of_sameData ⟨rfl, rfl, rfl⟩
  cases i with
  | sys routine => exact ⟨hsame, fun _ ↦ rfl, fun _ ↦ rfl, fun _ ↦ rfl, rfl, rfl⟩
  | cls => exact ⟨hsame, nofun, fun _ ↦ rfl, fun _ ↦ rfl, rfl, rfl⟩
  | setDelay x => exact ⟨hsame, fun _ ↦ rfl, nofun, fun _ ↦ rfl, rfl, rfl⟩
  | setSound x => exact ⟨hsame, fun _ ↦ rfl, fun _ ↦ rfl, nofun, rfl, rfl⟩
  | setImm x | addImm x | copy x | or x | and x | xor x | readDelay x =>
    exact .of_machine (hsame.setReg (mayChange_of_destination rfl) _) rfl rfl
  | random x mask =>
    have hset := hsame.setReg (x := x) (mayChange_of_destination rfl)
    exact ⟨hset _, fun _ ↦ rfl, fun _ ↦ rfl, fun _ ↦ rfl, rfl, rfl⟩
  | add | sub | shiftRight | subFrom | shiftLeft =>
    exact .of_machine (.setFlagged rfl rfl _ _) rfl rfl
  | setIndex value => exact .of_machine (hsame.setIndex rfl value) rfl rfl
  | addIndex x =>
    exact .of_machine ((hsame.setIndex rfl _).setReg (mayChange_flag rfl) _) rfl rfl
  | glyph x => exact .of_machine (hsame.setIndex rfl _) rfl rfl
  | _ => cases h

theorem effect_touchesOnly_of_span (s : Interpreter D K S G) {length : Nat}
    (h : i.spanLength? = some length) (now : Nat) :
    TouchesOnly i now s (s.perform (effect i now)).2 := by
  have hsame : s.machine.ChangesOnly i s.machine := .of_sameData ⟨rfl, rfl, rfl⟩
  cases i with
  | draw x y rows =>
    rw [perform_effect_draw, perform_drawSprite]
    split
    · exact ⟨hsame.setReg (mayChange_flag rfl) _, nofun, fun _ ↦ rfl, fun _ ↦ rfl, rfl, rfl⟩
    · exact .of_machine hsame rfl rfl
  | decimal x =>
    rw [perform_effect_decimal, perform_attempt_ite s _ (storeDecimal_eq s.machine x)]
    split
    · exact .of_machine (.poke rfl) rfl rfl
    · exact .of_machine hsame rfl rfl
  | store last =>
    rw [perform_effect_store, perform_attempt_ite s _ (storeRegisters_eq s.machine last)]
    split
    · exact .of_machine (.poke (Block.length_read _ (by omega))) rfl rfl
    · exact .of_machine hsame rfl rfl
  | load last =>
    rw [perform_effect_load, perform_attempt_ite s _ (loadRegisters_eq s.machine last)]
    split
    · apply TouchesOnly.of_machine _ rfl rfl
      apply ChangesOnly.fill
      exact Nat.le_of_eq (Block.length_read _ ‹_›)
    · exact .of_machine hsame rfl rfl
  | _ => cases h

theorem effect_touchesOnly_awaitKey (s : Interpreter D K S G) (x : Register) (now : Nat) :
    TouchesOnly (.awaitKey x) now s (s.perform (effect (.awaitKey x) now)).2 := by
  have hsame : s.machine.ChangesOnly (.awaitKey x) s.machine := .of_sameData ⟨rfl, rfl, rfl⟩
  rw [perform_effect_awaitKey, perform_awaitKeyInto]
  dsimp only
  cases Key.ofIndex? (Keyboard.await s.keyboard).1 with
  | none => exact ⟨hsame, fun _ ↦ rfl, fun _ ↦ rfl, fun _ ↦ rfl, rfl, rfl⟩
  | some key =>
    have hset := hsame.setReg (x := x) (mayChange_of_destination rfl)
    exact ⟨hset _, fun _ ↦ rfl, fun _ ↦ rfl, fun _ ↦ rfl, rfl, rfl⟩

theorem effect_touchesOnly (s : Interpreter D K S G) (i : Instruction) (now : Nat) :
    TouchesOnly i now s (s.perform (effect i now)).2 := by
  by_cases hplain : i.isPlain
  · exact effect_touchesOnly_of_isPlain s hplain now
  · cases i with
    | ret | jump | call | jumpOffset =>
      exact effect_touchesOnly_of_control s (.inl rfl) now
    | skipEqImm | skipNeImm | skipEq | skipNe | skipHeld | skipFree =>
      exact effect_touchesOnly_of_control s (.inr rfl) now
    | draw | decimal | store | load => exact effect_touchesOnly_of_span s rfl now
    | awaitKey x => exact effect_touchesOnly_awaitKey s x now
    | _ => exact absurd rfl hplain

/-! ## Whole instructions -/

theorem execute_touchesOnly (s : Interpreter D K S G) (i : Instruction) (now : Nat) :
    TouchesOnly i now s (s.perform (execute i now)).2 := by
  obtain ⟨pc, hmoved⟩ := s.exists_execute_eq_moved i now
  rw [hmoved]
  exact (effect_touchesOnly s i now).redirected pc _

/-- In slots, a call writes at most the first free one, and nothing else writes any. -/
theorem exists_holds_stackAfter {m : Machine} {slots : Slots} (h : slots.Holds m.stack)
    (i : Instruction) :
    ∃ after : Slots, after.Holds (m.stackAfter i) ∧ ∀ (k : Nat) (hk : k < 16),
      i.isCall = false ∨ k ≠ m.stack.length → after.slots[k] = slots.slots[k] := by
  cases i with
  | ret => exact ⟨_, h.tail, fun _ _ _ ↦ rfl⟩
  | call target =>
    rw [stackAfter]
    cases m.pc.offset 2 with
    | error fault => exact ⟨slots, h, fun _ _ _ ↦ rfl⟩
    | ok back =>
      dsimp only
      split
      · obtain ⟨after, hafter, hsame⟩ := h.exists_cons ‹_› back
        refine ⟨after, hafter, ?_⟩
        rintro k hk (hcall | hne)
        · cases hcall
        · exact hsame k hk hne
      · exact ⟨slots, h, fun _ _ _ ↦ rfl⟩
  | _ => exact ⟨slots, h, fun _ _ _ ↦ rfl⟩

/-- What an instruction changes, control included. -/
structure Footprint (i : Instruction) (now : Nat) (s t : Interpreter D K S G) : Prop
    extends TouchesOnly i now s t where
  stack : t.machine.stack = s.machine.stackAfter i
  slots (before : Slots) : before.Holds s.machine.stack → ∃ after : Slots,
    after.Holds t.machine.stack ∧ ∀ (k : Nat) (hk : k < 16),
      i.isCall = false ∨ k ≠ s.machine.stack.length → after.slots[k] = before.slots[k]

theorem execute_footprint (s : Interpreter D K S G) (i : Instruction) (now : Nat) :
    Footprint i now s (s.perform (execute i now)).2 where
  toTouchesOnly := execute_touchesOnly s i now
  stack := stack_execute s i now
  slots before hbefore := by
    rw [stack_execute]
    exact exists_holds_stackAfter hbefore i

/-- An interpreter for examples: it is new but for `VF`, which is set. -/
def flagged : Interpreter Frame KeyScript Mute StdGen :=
  { ofOptions {} {} {} {} ⟨1, 1⟩ with machine := Machine.initial.setReg Register.flag 1 }

set_option maxRecDepth 20000 in
/-- Carries and results are not all that changes `VF`: a drawing clears it if no pixels collide. -/
theorem leavesCarry_incomplete :
    let i : Instruction := .draw Register.zero Register.zero 1
    (i.names Register.flag || i.leavesCarry) = false ∧
      (flagged.perform (execute i 0)).2.machine.reg Register.flag ≠
        flagged.machine.reg Register.flag := by
  intro i
  refine ⟨rfl, ?_⟩
  have hbefore : flagged.machine.reg Register.flag = 1 := by rfl
  have hafter : (flagged.perform (execute (.draw Register.zero Register.zero 1) 0)).2.machine.reg
      Register.flag = 0 := by rfl
  rw [hbefore, hafter]
  decide

end Interpreter

end ChipEight
