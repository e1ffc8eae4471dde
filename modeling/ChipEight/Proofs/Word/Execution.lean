import ChipEight.Proofs.Interpreter.Tone
import ChipEight.Proofs.Word.Checked

/-!
# Execution on words

The executor with checked arithmetic on words.  The parts of it that compute with times or places
are written out with checked operations, and the others are as they were.  As long as the time is
not too late, it does what the executor does, with the same outcome.
-/

namespace ChipEight

namespace Interpreter

open Command Word

/-- How a command ends, and the interpreter after it. -/
abbrev Outcome (D K S G : Type) := Except Failure Unit × Interpreter D K S G

variable {D K S G : Type}

/-! ## Parts of an instruction -/

/-- Change the machine by a checked operation that may fault. -/
def attempt? (s : Interpreter D K S G) (context : Option Context)
    (f? : Machine → Option (Except Fault Machine)) : Option (Outcome D K S G) :=
  (f? s.machine).map fun
    | .error fault => (.error { fault, context }, s)
    | .ok m => (.ok (), { s with machine := m })

/-- Change the machine by a checked operation that does not fault. -/
def alter? (s : Interpreter D K S G) (f? : Machine → Option Machine) :
    Option (Outcome D K S G) :=
  (f? s.machine).map fun m ↦ (.ok (), { s with machine := m })

def moveOn? (s : Interpreter D K S G) : Option (Outcome D K S G) :=
  s.attempt? (some .movingOn) Machine.advance?

def skipIf? (s : Interpreter D K S G) (condition : Bool) :
    Option (Outcome D K S G) :=
  if condition then s.moveOn? else some (.ok (), s)

def callTo? (s : Interpreter D K S G) (context : Option Context) (target : Address) :
    Option (Outcome D K S G) :=
  (s.machine.pc.offset? 2).map fun
    | .error fault => (.error { fault, context }, s)
    | .ok back => s.perform do
      attempt context (·.push back)
      attempt context (·.jump target)

def jumpFrom? (s : Interpreter D K S G) (context : Option Context) (base : Address) :
    Option (Outcome D K S G) :=
  (base.offset? (s.machine.reg Register.zero).toNat).map fun
    | .error fault => (.error { fault, context := some .offsettingJump }, s)
    | .ok target => s.perform (attempt context (·.jump target))

def drawSprite? [Display D] (s : Interpreter D K S G) (context : Option Context) (x y : Register)
    (rows : Nat) : Option (Outcome D K S G) :=
  (s.machine.slice? s.machine.index rows).map fun
    | .error fault => (.error { fault, context }, s)
    | .ok sprite =>
      let (hit, display) :=
        Display.draw s.display sprite (s.machine.reg x).toNat (s.machine.reg y).toNat
      (.ok (), { s with display, machine := s.machine.setReg Register.flag hit.toUInt8 })

def startDelay? (s : Interpreter D K S G) (x : Register) (now : Nat) :
    Option (Outcome D K S G) :=
  (s.delay.set? (s.machine.reg x) now).map fun delay ↦ (.ok (), { s with delay })

def startSound? [Speaker S] (s : Interpreter D K S G) (x : Register) (now : Nat) :
    Option (Outcome D K S G) := do
  let count := s.machine.reg x
  let sound ← s.sound.set? count now
  let duration ← s.sound.duration? count
  return (.ok (), { s with
    sound
    speaker := Speaker.tone s.speaker now duration
    journal := s.journal.note (.soundSet count duration) })

/-- The periods of both timers are a second at most, as they are for any rate. -/
def PeriodsBounded (s : Interpreter D K S G) : Prop :=
  ∀ which, (s.timer which).period ≤ second

variable (s : Interpreter D K S G)

theorem attempt?_eq (context : Option Context) (f? : Machine → Option (Except Fault Machine))
    (f : Machine → Except Fault Machine) (h : f? s.machine = some (f s.machine)) :
    s.attempt? context f? = some (s.perform (attempt context f)) := by
  rw [attempt?, h, perform_attempt]
  cases f s.machine <;> rfl

theorem alter?_eq (f? : Machine → Option Machine) (f : Machine → Machine)
    (h : f? s.machine = some (f s.machine)) : s.alter? f? = some (s.perform (alter f)) := by
  rw [alter?, h]
  rfl

theorem moveOn?_eq : s.moveOn? = some (s.perform moveOn) :=
  s.attempt?_eq _ _ _ s.machine.advance?_eq

theorem skipIf?_eq (condition : Bool) :
    s.skipIf? condition = some (s.perform (skipIf condition)) := by
  rw [skipIf?, perform_skipIf, moveOn?_eq]
  cases condition <;> rfl

theorem callTo?_eq (context : Option Context) (target : Address) :
    s.callTo? context target = some (s.perform (callTo context target)) := by
  rw [callTo?, Address.offset?_eq (by decide), callTo, perform_bind, perform_get]
  cases hback : s.machine.pc.offset 2 <;> simp only [hback] <;> rfl

theorem jumpFrom?_eq (context : Option Context) (base : Address) :
    s.jumpFrom? context base = some (s.perform (jumpFrom context base)) := by
  have hbyte : (s.machine.reg Register.zero).toNat < 256 := (s.machine.reg Register.zero).toNat_lt
  rw [jumpFrom?, Address.offset?_eq (by omega), perform_jumpFrom]
  cases base.offset (s.machine.reg Register.zero).toNat <;> rfl

theorem drawSprite?_eq [Display D] (context : Option Context) (x y : Register) {rows : Nat}
    (h : rows < 2 ^ 63) :
    s.drawSprite? context x y rows = some (s.perform (drawSprite context x y rows)) := by
  rw [drawSprite?, s.machine.slice?_eq _ h, Machine.slice_eq, perform_drawSprite]
  by_cases hfits : s.machine.index.val + rows ≤ 0x1000
  · rw [if_pos hfits, if_pos hfits]
    rfl
  · rw [if_neg hfits, if_neg hfits]
    rfl

theorem startDelay?_eq [Display D] [Keyboard K] [Speaker S] [Entropy G] {now : Nat} (x : Register)
    (h : now + s.delay.period < 2 ^ 64) :
    s.startDelay? x now = some (s.perform (effect (.setDelay x) now)) := by
  rw [startDelay?, Countdown.set?_eq h]
  rfl

theorem startSound?_eq [Speaker S] {now : Nat} (x : Register)
    (hperiod : s.sound.period ≤ second) (h : now + s.sound.period < 2 ^ 64) :
    s.startSound? x now = some (s.perform (startSound x now)) := by
  rw [startSound?, Countdown.set?_eq h, Countdown.duration?_eq hperiod]
  rfl

/-! ## Whole instructions and cycles -/

variable [Display D] [Keyboard K] [Speaker S] [Entropy G]

def effect? (i : Instruction) (now : Nat) : Option (Outcome D K S G) :=
  let here := some (Context.executing i)
  match i with
  | .call target => s.callTo? here target
  | .jumpOffset base => s.jumpFrom? here base
  | .skipEqImm _ _ | .skipNeImm _ _ | .skipEq _ _ | .skipNe _ _ | .skipHeld _ | .skipFree _ =>
    s.skipIf? (s.skips i)
  | .draw x y rows => s.drawSprite? here x y rows.toNat
  | .setDelay x => s.startDelay? x now
  | .setSound x => s.startSound? x now
  | .addIndex x => s.alter? (·.addIndex? x)
  | .glyph x => s.alter? (·.pointAtGlyph? x)
  | .decimal x => s.attempt? here (·.storeDecimal? x)
  | .store last => s.attempt? here (·.storeRegisters? last)
  | .load last => s.attempt? here (·.loadRegisters? last)
  | _ => some (s.perform (effect i now))

def execute? (i : Instruction) (now : Nat) : Option (Outcome D K S G) := do
  match ← s.effect? i now with
  | (.error f, t) => return (.error f, t)
  | (.ok (), t) => if i.transfersControl then return (.ok (), t) else t.moveOn?

def step? (now : Nat) : Option (Outcome D K S G) := do
  match ← s.machine.current? with
  | .error fault => return (.error { fault, context := none }, s)
  | .ok i => execute? { s with journal := s.journal.note (.stepping s.machine.pc i) } i now

def cycle? (now : Nat) : Option (Outcome D K S G) := do
  let delay ← s.delay.poll? now
  let sound ← s.sound.poll? now
  let t := { s with
    delay, sound
    display := (Display.poll s.display).2
    waited := s.waited + Display.pollTime s.display }
  match (Display.poll s.display).1 with
  | .error fault => return (.error { fault, context := some .refreshing }, t)
  | .ok () => t.step? now

variable {s} {now : Nat}

theorem effect?_eq (h : s.PeriodsBounded) (hnow : now + second < 2 ^ 64) (i : Instruction) :
    s.effect? i now = some (s.perform (effect i now)) := by
  have hdelay : s.delay.period ≤ second := h .delay
  have hsound : s.sound.period ≤ second := h .sound
  cases i with
  | call target => exact s.callTo?_eq _ target
  | jumpOffset base => exact s.jumpFrom?_eq _ base
  | skipEqImm | skipNeImm | skipEq | skipNe | skipHeld | skipFree =>
    rw [effect?, skipIf?_eq, perform_effect_of_isSkip s rfl]
  | draw x y rows => exact s.drawSprite?_eq _ x y (Nat.lt_trans rows.toNat_lt (by decide))
  | setDelay x => exact s.startDelay?_eq x (by omega)
  | setSound x => exact s.startSound?_eq x hsound (by omega)
  | addIndex x =>
    exact s.alter?_eq (·.addIndex? x) (·.addIndex x) (s.machine.addIndex?_eq x)
  | glyph x =>
    exact s.alter?_eq (·.pointAtGlyph? x) (·.pointAtGlyph x) (s.machine.pointAtGlyph?_eq x)
  | decimal x =>
    rw [perform_effect_decimal]
    exact s.attempt?_eq _ (·.storeDecimal? x) (·.storeDecimal x) (s.machine.storeDecimal?_eq x)
  | store last =>
    rw [perform_effect_store]
    exact s.attempt?_eq _ (·.storeRegisters? last) (·.storeRegisters last)
      (s.machine.storeRegisters?_eq last)
  | load last =>
    rw [perform_effect_load]
    exact s.attempt?_eq _ (·.loadRegisters? last) (·.loadRegisters last)
      (s.machine.loadRegisters?_eq last)
  | _ => rfl

theorem execute?_eq (h : s.PeriodsBounded) (hnow : now + second < 2 ^ 64) (i : Instruction) :
    s.execute? i now = some (s.perform (execute i now)) := by
  rw [execute?, effect?_eq h hnow, perform_execute]
  rcases s.perform (effect i now) with ⟨_ | _, t⟩
  · rfl
  · cases i.transfersControl with
    | true => rfl
    | false => exact t.moveOn?_eq

theorem step?_eq (h : s.PeriodsBounded) (hnow : now + second < 2 ^ 64) :
    s.step? now = some (s.perform (step now)) := by
  rw [step?, s.machine.current?_eq, perform_step]
  cases s.machine.current with
  | error fault => rfl
  | ok i =>
    apply execute?_eq _ hnow i
    intro which
    cases which with
    | delay => exact h .delay
    | sound => exact h .sound

theorem cycle?_eq (h : s.PeriodsBounded) (hnow : now + second < 2 ^ 64) :
    s.cycle? now = some (s.perform (cycle now)) := by
  have hdelay : s.delay.period ≤ second := h .delay
  have hsound : s.sound.period ≤ second := h .sound
  have hpolled : (s.polled now).PeriodsBounded := by
    intro which
    cases which with
    | delay => exact Nat.le_trans (Nat.le_of_eq (s.delay.period_poll now)) hdelay
    | sound => exact Nat.le_trans (Nat.le_of_eq (s.sound.period_poll now)) hsound
  rw [cycle?, Countdown.poll?_eq (by omega), Countdown.poll?_eq (by omega), perform_cycle]
  cases (Display.poll s.display).1 with
  | error fault => rfl
  | ok => exact step?_eq hpolled hnow

end Interpreter

/-! ## Operations -/

namespace Operation

open Interpreter

variable {D K S G : Type} [Display D] [Keyboard K] [Speaker S] [Entropy G]

/-- The time that is passed with an operation. -/
def time? : Operation D K → Option Nat
  | execute _ now | step now | cycle now => some now
  | _ => none

/-- The operation with checked arithmetic. -/
def perform? (s : Interpreter D K S G) : Operation D K → Option (Outcome D K S G)
  | execute i now => s.execute? i now
  | step now => s.step? now
  | cycle now => s.cycle? now
  | advance => s.attempt? none Machine.advance?
  | storeRegisters last => s.attempt? none (·.storeRegisters? last)
  | loadRegisters last => s.attempt? none (·.loadRegisters? last)
  | operation => some (s.perform operation.command)

theorem perform?_eq {s : Interpreter D K S G} (h : s.PeriodsBounded) {operation : Operation D K}
    (htime : ∀ now, operation.time? = some now → now + second < 2 ^ 64) :
    operation.perform? s = some (s.perform operation.command) := by
  cases operation with
  | execute i now => exact execute?_eq h (htime now rfl) i
  | step now => exact step?_eq h (htime now rfl)
  | cycle now => exact cycle?_eq h (htime now rfl)
  | advance => exact s.attempt?_eq none _ _ s.machine.advance?_eq
  | storeRegisters last =>
    exact s.attempt?_eq none (·.storeRegisters? last) (·.storeRegisters last)
      (s.machine.storeRegisters?_eq last)
  | loadRegisters last =>
    exact s.attempt?_eq none (·.loadRegisters? last) (·.loadRegisters last)
      (s.machine.loadRegisters?_eq last)
  | _ => rfl

end Operation

end ChipEight
