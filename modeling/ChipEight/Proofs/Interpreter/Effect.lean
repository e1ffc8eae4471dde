import ChipEight.Interpreter.Execute
import ChipEight.Proofs.Machine.Spans

/-!
# Effects in closed form

What each part of the executor does to an interpreter, as an equation without the command monad.
A failure leaves the interpreter as the steps before it have made it.
-/

namespace ChipEight

/-- Whether the effect of an instruction never fails and leaves control alone. -/
def Instruction.isPlain : Instruction → Bool
  | ret | jump _ | call _ | jumpOffset _ => false
  | skipEqImm _ _ | skipNeImm _ _ | skipEq _ _ | skipNe _ _ | skipHeld _ | skipFree _ => false
  | draw _ _ _ | awaitKey _ | decimal _ | store _ | load _ => false
  | _ => true

def Instruction.isSkip : Instruction → Bool
  | skipEqImm _ _ | skipNeImm _ _ | skipEq _ _ | skipNe _ _ | skipHeld _ | skipFree _ => true
  | _ => false

theorem Instruction.transfersControl_of_isSkip {i : Instruction} (h : i.isSkip = true) :
    i.transfersControl = false := by
  cases i <;> first | rfl | cases h

/-- The length of the span at the index register that the instruction reads or writes. -/
def Instruction.spanLength? : Instruction → Option Nat
  | draw _ _ rows => some rows.toNat
  | decimal _ => some 3
  | store last | load last => some (last.val + 1)
  | _ => none

namespace Interpreter

open Command Machine

variable {D K S G : Type}
variable (s : Interpreter D K S G)

/-! ## Control -/

theorem perform_attempt_ite (context : Option Context) {f : Machine → Except Fault Machine}
    {c : Prop} [Decidable c] {m : Machine} {fault : Fault}
    (h : f s.machine = if c then .ok m else .error fault) :
    s.perform (attempt context f) =
      if c then (.ok (), { s with machine := m }) else (.error { fault, context }, s) := by
  rw [perform_attempt, h]
  by_cases hc : c
  · simp only [if_pos hc]
  · simp only [if_neg hc]

theorem perform_moveOn :
    s.perform moveOn =
      match s.machine.advance with
      | .ok m => (.ok (), { s with machine := m })
      | .error fault => (.error { fault, context := some .movingOn }, s) :=
  perform_attempt s _ _

theorem perform_moveOn_of_isEntry {s : Interpreter D K S G} (h : s.machine.pc.IsEntry) :
    s.perform moveOn =
      if s.machine.pc.val = 0xFFE then
        (.error { fault := .outOfRange 0x1000, context := some .movingOn }, s)
      else (.ok (), { s with machine := { s.machine with pc := s.machine.pc.following } }) := by
  rw [perform_moveOn, advance_eq h]
  by_cases hlast : s.machine.pc.val = 0xFFE
  · simp only [if_pos hlast]
  · simp only [if_neg hlast]

/-- The same interpreter with another program counter. -/
def moved (pc : Address) : Interpreter D K S G := { s with machine := { s.machine with pc } }

theorem exists_attempt_jump_eq_moved (context : Option Context) (target : Address) :
    ∃ pc, (s.perform (attempt context (·.jump target))).2 = s.moved pc := by
  rw [perform_attempt]
  cases hjump : s.machine.jump target with
  | error fault => exact ⟨s.machine.pc, rfl⟩
  | ok m =>
    obtain ⟨-, rfl⟩ := (jump_eq_ok_iff _ _ _).mp hjump
    exact ⟨target, rfl⟩

theorem exists_moveOn_eq_moved : ∃ pc, (s.perform moveOn).2 = s.moved pc := by
  rw [perform_moveOn]
  cases hadvance : s.machine.advance with
  | error fault => exact ⟨s.machine.pc, rfl⟩
  | ok m =>
    unfold advance at hadvance
    cases hnext : s.machine.pc.offset 2 with
    | error fault => simp only [hnext, reduceCtorEq] at hadvance
    | ok next =>
      simp only [hnext] at hadvance
      obtain ⟨-, rfl⟩ := (jump_eq_ok_iff _ _ _).mp hadvance
      exact ⟨next, rfl⟩

theorem perform_skipIf (condition : Bool) :
    s.perform (skipIf condition) = if condition then s.perform moveOn else (.ok (), s) := by
  cases condition <;> rfl

theorem perform_comeBack (context : Option Context) :
    s.perform (comeBack context) =
      match s.machine.stack with
      | [] => (.error { fault := .stackUnderflow, context }, s)
      | back :: rest =>
        { s with machine := { s.machine with stack := rest } }.perform
          (attempt context (·.jump back)) := by
  unfold comeBack
  rw [perform_bind, perform_get]
  cases hstack : s.machine.stack <;>
    simp only [Machine.pop, hstack, perform_stop, perform_bind, perform_alter]

theorem perform_callTo (context : Option Context) (target : Address) :
    s.perform (callTo context target) =
      match s.machine.pc.offset 2 with
      | .error fault => (.error { fault, context }, s)
      | .ok back =>
        if s.machine.stack.length < stackRoom then
          { s with machine := { s.machine with stack := back :: s.machine.stack } }.perform
            (attempt context (·.jump target))
        else (.error { fault := .stackOverflow s.machine.stack.length, context }, s) := by
  unfold callTo
  rw [perform_bind, perform_get]
  cases hback : s.machine.pc.offset 2 with
  | error fault => simp only [hback, perform_stop]
  | ok back =>
    simp only [hback, perform_bind, perform_attempt s, push]
    by_cases hroom : s.machine.stack.length < stackRoom
    · simp only [if_pos hroom]
    · simp only [if_neg hroom]

theorem perform_jumpFrom (context : Option Context) (base : Address) :
    s.perform (jumpFrom context base) =
      match base.offset (s.machine.reg Register.zero).toNat with
      | .error fault => (.error { fault, context := some .offsettingJump }, s)
      | .ok target => s.perform (attempt context (·.jump target)) := by
  unfold jumpFrom
  rw [perform_bind, perform_get]
  cases htarget : base.offset (s.machine.reg Register.zero).toNat <;>
    simp only [htarget, perform_stop]

/-! ## Devices -/

/-- The interpreter after drawing the sprite of `rows` bytes at the index register. -/
def drawn [Display D] (x y : Register) (rows : Nat) : Interpreter D K S G :=
  let sprite := Block.read s.machine.memory s.machine.index rows
  let result := Display.draw s.display sprite (s.machine.reg x).toNat (s.machine.reg y).toNat
  { s with display := result.2, machine := s.machine.setReg Register.flag result.1.toUInt8 }

theorem perform_drawSprite [Display D] (context : Option Context) (x y : Register) (rows : Nat) :
    s.perform (drawSprite context x y rows) =
      if s.machine.index.val + rows ≤ 0x1000 then (.ok (), s.drawn x y rows)
      else (.error { fault := .outOfRange (s.machine.index.val + rows - 1), context }, s) := by
  unfold drawSprite
  rw [perform_bind, perform_get]
  dsimp only
  rw [slice_eq]
  by_cases hfit : s.machine.index.val + rows ≤ 0x1000
  · rw [if_pos hfit, if_pos hfit]
    rfl
  · rw [if_neg hfit, if_neg hfit]
    rfl

theorem perform_awaitKeyInto [Keyboard K] (x : Register) :
    s.perform (awaitKeyInto x) =
      let awaited := Keyboard.await s.keyboard
      let t := { s with
        keyboard := awaited.2, waited := s.waited + Keyboard.awaitTime s.keyboard }
      match Key.ofIndex? awaited.1 with
      | none => (.error { fault := .invalidKey awaited.1, context := none }, t)
      | some key => (.ok (), { t with machine := s.machine.setReg x key.toByte }) := by
  unfold awaitKeyInto
  rw [perform_bind, perform_get]
  simp only [perform_bind, perform_set]
  cases Key.ofIndex? (Keyboard.await s.keyboard).1 <;> rfl

/-- Whether the instruction is a skip whose condition holds. -/
def skips [Keyboard K] (i : Instruction) : Bool :=
  match i with
  | .skipEqImm x value => s.machine.reg x == value
  | .skipNeImm x value => s.machine.reg x != value
  | .skipEq x y => s.machine.reg x == s.machine.reg y
  | .skipNe x y => s.machine.reg x != s.machine.reg y
  | .skipHeld x => Keyboard.isHeld s.keyboard (Key.ofByte (s.machine.reg x))
  | .skipFree x => !Keyboard.isHeld s.keyboard (Key.ofByte (s.machine.reg x))
  | _ => false

/-! ## Whole instructions and cycles -/

theorem perform_loadProgram (source : List Read) :
    s.perform (loadProgram source) =
      let intake := Read.intake (Address.programRoom + 1) source
      match intake.fault? with
      | some text =>
        (.error { fault := .device text, context := some .readingProgram }, s)
      | none =>
        match s.machine.loadProgram intake.bytes with
        | .error fault => (.error { fault, context := none }, s)
        | .ok m =>
          (.ok (), { s with
            machine := m
            journal := s.journal.note (.programLoaded intake.bytes.length) }) := by
  unfold loadProgram
  cases hfault : (Read.intake (Address.programRoom + 1) source).fault? with
  | some text => simp only [hfault, perform_stop]
  | none =>
    simp only [hfault, perform_bind, perform_attempt]
    cases s.machine.loadProgram (Read.intake (Address.programRoom + 1) source).bytes <;> rfl

variable [Display D] [Keyboard K] [Speaker S] [Entropy G]

theorem perform_effect_of_isPlain {i : Instruction} (h : i.isPlain) (now : Nat) :
    ∃ t, s.perform (effect i now) = (.ok (), t) ∧ s.machine.SameControl t.machine := by
  cases i with
  | ret | jump | call | jumpOffset => cases h
  | skipEqImm | skipNeImm | skipEq | skipNe | skipHeld | skipFree => cases h
  | draw | awaitKey | decimal | store | load => cases h
  | _ => exact ⟨_, rfl, rfl, rfl⟩

theorem perform_effect_of_isSkip {i : Instruction} (h : i.isSkip) (now : Nat) :
    s.perform (effect i now) = s.perform (skipIf (s.skips i)) := by
  cases i <;> first | rfl | cases h

theorem perform_effect_ret (now : Nat) :
    s.perform (effect .ret now) = s.perform (comeBack (some (.executing .ret))) := rfl

theorem perform_effect_call (target : Address) (now : Nat) :
    s.perform (effect (.call target) now) =
      s.perform (callTo (some (.executing (.call target))) target) := rfl

theorem perform_effect_draw (x y : Register) (rows : UInt8) (now : Nat) :
    s.perform (effect (.draw x y rows) now) =
      s.perform (drawSprite (some (.executing (.draw x y rows))) x y rows.toNat) := rfl

theorem perform_effect_awaitKey (x : Register) (now : Nat) :
    s.perform (effect (.awaitKey x) now) = s.perform (awaitKeyInto x) := rfl

theorem perform_effect_decimal (x : Register) (now : Nat) :
    s.perform (effect (.decimal x) now) =
      s.perform (attempt (some (.executing (.decimal x))) (·.storeDecimal x)) := by
  simp only [effect, perform_bind, perform_get]

theorem perform_effect_store (last : Register) (now : Nat) :
    s.perform (effect (.store last) now) =
      s.perform (attempt (some (.executing (.store last))) (·.storeRegisters last)) := by
  simp only [effect, perform_bind, perform_get]

theorem perform_effect_load (last : Register) (now : Nat) :
    s.perform (effect (.load last) now) =
      s.perform (attempt (some (.executing (.load last))) (·.loadRegisters last)) := by
  simp only [effect, perform_bind, perform_get]

/-- An instruction on a span leaves everything as it was if the span does not fit. -/
theorem perform_effect_of_span {i : Instruction} {length : Nat} (h : i.spanLength? = some length)
    (now : Nat) :
    ∃ t, s.perform (effect i now) =
        (if s.machine.index.val + length ≤ 0x1000 then (.ok (), t)
        else (.error {
          fault := .outOfRange (s.machine.index.val + length - 1)
          context := some (.executing i) }, s)) ∧
      s.machine.SameControl t.machine := by
  cases i <;> cases h
  case draw x y rows =>
    exact ⟨_, perform_drawSprite s (some (.executing (.draw x y rows))) x y rows.toNat, rfl, rfl⟩
  case decimal x =>
    rw [perform_effect_decimal]
    exact ⟨_, perform_attempt_ite s _ (storeDecimal_eq s.machine x), rfl, rfl⟩
  case store last =>
    rw [perform_effect_store]
    exact ⟨_, perform_attempt_ite s _ (storeRegisters_eq s.machine last), rfl, rfl⟩
  case load last =>
    rw [perform_effect_load]
    exact ⟨_, perform_attempt_ite s _ (loadRegisters_eq s.machine last), rfl, rfl⟩

/-- The effect comes first, and then the program counter moves on. -/
theorem perform_execute (i : Instruction) (now : Nat) :
    s.perform (execute i now) =
      match s.perform (effect i now) with
      | (.error f, t) => (.error f, t)
      | (.ok (), t) => if i.transfersControl then (.ok (), t) else t.perform moveOn := by
  unfold execute
  rw [perform_bind]
  rcases s.perform (effect i now) with ⟨_ | _, _⟩ <;> cases i.transfersControl <;> rfl

/-- After its effect, an instruction changes the program counter at most. -/
theorem exists_execute_eq_moved (i : Instruction) (now : Nat) :
    ∃ pc, (s.perform (execute i now)).2 = (s.perform (effect i now)).2.moved pc := by
  rw [perform_execute]
  rcases s.perform (effect i now) with ⟨_ | _, t⟩
  · exact ⟨t.machine.pc, rfl⟩
  · cases i.transfersControl with
    | true => exact ⟨t.machine.pc, rfl⟩
    | false => exact t.exists_moveOn_eq_moved

theorem perform_step (now : Nat) :
    s.perform (step now) =
      match s.machine.current with
      | .error fault => (.error { fault, context := none }, s)
      | .ok i =>
        { s with journal := s.journal.note (.stepping s.machine.pc i) }.perform
          (execute i now) := by
  unfold step
  rw [perform_bind, perform_get]
  cases hcurrent : s.machine.current <;>
    simp only [hcurrent, perform_stop, perform_bind, perform_note]

/-- The instruction that a cycle executes, unless it fails before. -/
def executed? : Option Instruction :=
  match (Display.poll s.display).1 with
  | .error _ => none
  | .ok () => s.machine.current.toOption

/-- The interpreter after the polls with which a cycle begins. -/
def polled (now : Nat) : Interpreter D K S G :=
  { s with
    delay := s.delay.poll now
    sound := s.sound.poll now
    display := (Display.poll s.display).2
    waited := s.waited + Display.pollTime s.display }

theorem perform_cycle (now : Nat) :
    s.perform (cycle now) =
      match (Display.poll s.display).1 with
      | .error fault => (.error { fault, context := some .refreshing }, s.polled now)
      | .ok () => (s.polled now).perform (step now) := by
  unfold cycle pollTimers pollDisplay
  simp only [perform_bind, perform_modify, perform_get, perform_set]
  cases (Display.poll s.display).1 <;> rfl

end Interpreter

end ChipEight
