import ChipEight.Proofs.Interpreter.Effect

/-!
# Interpreters in lockstep

Two interpreters, possibly with different devices, run in lockstep under a relation if related ones
have the same machine and get the same answers from their devices, and if nothing that a cycle does
to both of them parts them.  A command then has the same outcome on both and leaves them related,
also where it fails.  One instruction asks for more: reading the delay timer, whose count is the
only thing that is looked at outside the machine and the devices.
-/

namespace ChipEight.Interpreter

open Command Machine

section Alike

variable {α β D₁ D₂ K₁ K₂ S₁ S₂ G₁ G₂ : Type}
variable {R : Interpreter D₁ K₁ S₁ G₁ → Interpreter D₂ K₂ S₂ G₂ → Prop}
variable {s₁ : Interpreter D₁ K₁ S₁ G₁} {s₂ : Interpreter D₂ K₂ S₂ G₂}

/-- Two results have the same outcome and leave related interpreters. -/
structure Alike (R : Interpreter D₁ K₁ S₁ G₁ → Interpreter D₂ K₂ S₂ G₂ → Prop)
    (r₁ : Except Failure α × Interpreter D₁ K₁ S₁ G₁)
    (r₂ : Except Failure α × Interpreter D₂ K₂ S₂ G₂) : Prop where
  outcome : r₂.1 = r₁.1
  related : R r₁.2 r₂.2

theorem Alike.bind {command₁ : Command D₁ K₁ S₁ G₁ α} {command₂ : Command D₂ K₂ S₂ G₂ α}
    {next₁ : α → Command D₁ K₁ S₁ G₁ β} {next₂ : α → Command D₂ K₂ S₂ G₂ β}
    (h : Alike R (s₁.perform command₁) (s₂.perform command₂))
    (hnext : ∀ a t₁ t₂, R t₁ t₂ → Alike R (t₁.perform (next₁ a)) (t₂.perform (next₂ a))) :
    Alike R (s₁.perform (command₁ >>= next₁)) (s₂.perform (command₂ >>= next₂)) := by
  rw [perform_bind, perform_bind]
  obtain ⟨houtcome, hrelated⟩ := h
  generalize s₁.perform command₁ = r₁ at houtcome hrelated ⊢
  generalize s₂.perform command₂ = r₂ at houtcome hrelated ⊢
  obtain ⟨outcome, t₁⟩ := r₁
  obtain ⟨_, t₂⟩ := r₂
  cases houtcome
  cases outcome with
  | error f => exact ⟨rfl, hrelated⟩
  | ok a => exact hnext a t₁ t₂ hrelated

end Alike

variable {D₁ D₂ K₁ K₂ S₁ S₂ G₁ G₂ : Type}
variable [Display D₁] [Display D₂] [Keyboard K₁] [Keyboard K₂]
variable [Speaker S₁] [Speaker S₂] [Entropy G₁] [Entropy G₂]

/-- The interpreter after its sound timer has been set. -/
def sounded {D K S G : Type} [Speaker S] (s : Interpreter D K S G) (count : UInt8) (now : Nat) :
    Interpreter D K S G :=
  let duration := count.toNat * s.sound.period
  { s with
    sound := s.sound.set count now
    speaker := Speaker.tone s.speaker now duration
    journal := s.journal.note (.soundSet count duration) }

theorem perform_startSound {D K S G : Type} [Speaker S] (s : Interpreter D K S G) (x : Register)
    (now : Nat) :
    s.perform (startSound x now) = (.ok (), s.sounded (s.machine.reg x) now) := rfl

/-- Cycles at the times `now₁` and `now₂` keep interpreters in lockstep, unless they read the delay
timer. -/
structure Lockstep (R : Interpreter D₁ K₁ S₁ G₁ → Interpreter D₂ K₂ S₂ G₂ → Prop)
    (now₁ now₂ : Nat) : Prop where
  machine {s₁ s₂} : R s₁ s₂ → s₂.machine = s₁.machine
  alter {s₁ s₂} (m : Machine) : R s₁ s₂ → R { s₁ with machine := m } { s₂ with machine := m }
  note {s₁ s₂} (e : Event) : R s₁ s₂ →
    R { s₁ with journal := s₁.journal.note e } { s₂ with journal := s₂.journal.note e }
  clear {s₁ s₂} : R s₁ s₂ →
    R { s₁ with display := Display.clear s₁.display }
      { s₂ with display := Display.clear s₂.display }
  draw {s₁ s₂} (sprite : List UInt8) (x y : Nat) : R s₁ s₂ →
    (Display.draw s₂.display sprite x y).1 = (Display.draw s₁.display sprite x y).1 ∧
      R { s₁ with display := (Display.draw s₁.display sprite x y).2 }
        { s₂ with display := (Display.draw s₂.display sprite x y).2 }
  isHeld {s₁ s₂} (k : Key) : R s₁ s₂ →
    Keyboard.isHeld s₂.keyboard k = Keyboard.isHeld s₁.keyboard k
  await {s₁ s₂} : R s₁ s₂ →
    (Keyboard.await s₂.keyboard).1 = (Keyboard.await s₁.keyboard).1 ∧
      R { s₁ with
          keyboard := (Keyboard.await s₁.keyboard).2
          waited := s₁.waited + Keyboard.awaitTime s₁.keyboard }
        { s₂ with
          keyboard := (Keyboard.await s₂.keyboard).2
          waited := s₂.waited + Keyboard.awaitTime s₂.keyboard }
  random {s₁ s₂} : R s₁ s₂ →
    (Entropy.next s₂.entropy).1 = (Entropy.next s₁.entropy).1 ∧
      R { s₁ with entropy := (Entropy.next s₁.entropy).2 }
        { s₂ with entropy := (Entropy.next s₂.entropy).2 }
  setDelay {s₁ s₂} (count : UInt8) : R s₁ s₂ →
    R { s₁ with delay := s₁.delay.set count now₁ } { s₂ with delay := s₂.delay.set count now₂ }
  setSound {s₁ s₂} (count : UInt8) : R s₁ s₂ → R (s₁.sounded count now₁) (s₂.sounded count now₂)
  poll {s₁ s₂} : R s₁ s₂ →
    (Display.poll s₂.display).1 = (Display.poll s₁.display).1 ∧
      R (s₁.polled now₁) (s₂.polled now₂)

namespace Lockstep

variable {R : Interpreter D₁ K₁ S₁ G₁ → Interpreter D₂ K₂ S₂ G₂ → Prop} {now₁ now₂ : Nat}
variable {s₁ : Interpreter D₁ K₁ S₁ G₁} {s₂ : Interpreter D₂ K₂ S₂ G₂}
variable (hR : Lockstep R now₁ now₂) (h : R s₁ s₂)

include hR h

/-! ## The parts of instructions -/

theorem alter_of_eq {m₁ m₂ : Machine} (hm : s₂.machine = s₁.machine → m₂ = m₁) :
    R { s₁ with machine := m₁ } { s₂ with machine := m₂ } := by
  rw [hm (hR.machine h)]
  exact hR.alter m₁ h

theorem attempt (context : Option Context) (f : Machine → Except Fault Machine) :
    Alike R (s₁.perform (Command.attempt context f)) (s₂.perform (Command.attempt context f)) := by
  rw [perform_attempt, perform_attempt, hR.machine h]
  cases f s₁.machine with
  | error fault => exact ⟨rfl, h⟩
  | ok m => exact ⟨rfl, hR.alter m h⟩

theorem moveOn : Alike R (s₁.perform moveOn) (s₂.perform moveOn) := hR.attempt h _ _

theorem skipIf (condition : Bool) :
    Alike R (s₁.perform (skipIf condition)) (s₂.perform (skipIf condition)) := by
  cases condition
  · exact ⟨rfl, h⟩
  · exact hR.moveOn h

theorem comeBack (context : Option Context) :
    Alike R (s₁.perform (comeBack context)) (s₂.perform (comeBack context)) := by
  rw [perform_comeBack, perform_comeBack, hR.machine h]
  cases s₁.machine.stack with
  | nil => exact ⟨rfl, h⟩
  | cons back rest => exact hR.attempt (hR.alter _ h) _ _

theorem callTo (context : Option Context) (target : Address) :
    Alike R (s₁.perform (callTo context target)) (s₂.perform (callTo context target)) := by
  rw [perform_callTo, perform_callTo, hR.machine h]
  cases s₁.machine.pc.offset 2 with
  | error fault => exact ⟨rfl, h⟩
  | ok back =>
    dsimp only
    split
    · exact hR.attempt (hR.alter _ h) _ _
    · exact ⟨rfl, h⟩

theorem jumpFrom (context : Option Context) (base : Address) :
    Alike R (s₁.perform (jumpFrom context base)) (s₂.perform (jumpFrom context base)) := by
  rw [perform_jumpFrom, perform_jumpFrom, hR.machine h]
  cases base.offset (s₁.machine.reg Register.zero).toNat with
  | error fault => exact ⟨rfl, h⟩
  | ok target => exact hR.attempt h _ _

theorem drawSprite (context : Option Context) (x y : Register) (rows : Nat) :
    Alike R (s₁.perform (drawSprite context x y rows))
      (s₂.perform (drawSprite context x y rows)) := by
  rw [perform_drawSprite, perform_drawSprite]
  unfold drawn
  rw [hR.machine h]
  split
  · obtain ⟨hhit, hdrawn⟩ := hR.draw _ _ _ h
    dsimp only
    rw [hhit]
    exact ⟨rfl, hR.alter _ hdrawn⟩
  · exact ⟨rfl, h⟩

theorem awaitKeyInto (x : Register) :
    Alike R (s₁.perform (awaitKeyInto x)) (s₂.perform (awaitKeyInto x)) := by
  obtain ⟨hanswer, hwaited⟩ := hR.await h
  rw [perform_awaitKeyInto, perform_awaitKeyInto, hR.machine h]
  dsimp only
  rw [hanswer]
  cases Key.ofIndex? (Keyboard.await s₁.keyboard).1 with
  | none => exact ⟨rfl, hR.alter _ hwaited⟩
  | some key => exact ⟨rfl, hR.alter _ hwaited⟩

theorem randomize (x : Register) (mask : UInt8) :
    Alike R (s₁.perform (randomize x mask)) (s₂.perform (randomize x mask)) := by
  obtain ⟨hbyte, hnext⟩ := hR.random h
  unfold Interpreter.randomize
  rw [perform_modify, perform_modify]
  dsimp only
  rw [hR.machine h, hbyte]
  exact ⟨rfl, hR.alter _ hnext⟩

theorem startSound (x : Register) :
    Alike R (s₁.perform (startSound x now₁)) (s₂.perform (startSound x now₂)) := by
  rw [perform_startSound, perform_startSound, hR.machine h]
  exact ⟨rfl, hR.setSound _ h⟩

theorem skips_eq (i : Instruction) : s₂.skips i = s₁.skips i := by
  cases i <;> simp only [skips, hR.machine h, hR.isHeld _ h]

/-! ## Instructions and cycles -/

theorem effect (i : Instruction)
    (hdelay : ∀ x, i = .readDelay x → s₂.delay.count = s₁.delay.count) :
    Alike R (s₁.perform (effect i now₁)) (s₂.perform (effect i now₂)) := by
  cases i with
  | sys routine => exact ⟨rfl, hR.note _ h⟩
  | cls => exact ⟨rfl, hR.clear h⟩
  | ret => exact hR.comeBack h _
  | jump target => exact hR.attempt h (some (.executing (.jump target))) (·.jump target)
  | call target => exact hR.callTo h _ target
  | jumpOffset base => exact hR.jumpFrom h _ base
  | skipEqImm | skipNeImm | skipEq | skipNe | skipHeld | skipFree =>
    rw [perform_effect_of_isSkip s₁ rfl, perform_effect_of_isSkip s₂ rfl, hR.skips_eq h]
    exact hR.skipIf h _
  | random x mask => exact hR.randomize h x mask
  | draw x y rows => exact hR.drawSprite h _ x y rows.toNat
  | readDelay x =>
    refine ⟨rfl, hR.alter_of_eq h ?_⟩
    intro hm
    rw [hdelay x rfl, hm]
  | awaitKey x => exact hR.awaitKeyInto h x
  | setDelay x =>
    have hset : R { s₁ with delay := s₁.delay.set (s₁.machine.reg x) now₁ }
        { s₂ with delay := s₂.delay.set (s₂.machine.reg x) now₂ } := by
      have hreg : s₂.machine.reg x = s₁.machine.reg x := by rw [hR.machine h]
      rw [hreg]
      exact hR.setDelay _ h
    exact ⟨rfl, hset⟩
  | setSound x => exact hR.startSound h x
  | decimal x => exact hR.attempt h (some (.executing (.decimal x))) (·.storeDecimal x)
  | store last => exact hR.attempt h (some (.executing (.store last))) (·.storeRegisters last)
  | load last => exact hR.attempt h (some (.executing (.load last))) (·.loadRegisters last)
  | _ =>
    refine ⟨rfl, hR.alter_of_eq h ?_⟩
    intro hm
    rw [hm]

theorem execute (i : Instruction)
    (hdelay : ∀ x, i = .readDelay x → s₂.delay.count = s₁.delay.count) :
    Alike R (s₁.perform (execute i now₁)) (s₂.perform (execute i now₂)) := by
  apply Alike.bind (hR.effect h i hdelay)
  intro _ t₁ t₂ ht
  cases i.transfersControl
  · exact hR.moveOn ht
  · exact ⟨rfl, ht⟩

theorem step (hdelay : ∀ x, s₁.machine.current = .ok (.readDelay x) →
      s₂.delay.count = s₁.delay.count) :
    Alike R (s₁.perform (step now₁)) (s₂.perform (step now₂)) := by
  rw [perform_step, perform_step, hR.machine h]
  cases hcurrent : s₁.machine.current with
  | error fault => exact ⟨rfl, h⟩
  | ok i =>
    dsimp only
    apply hR.execute (hR.alter _ (hR.note _ h))
    rintro x rfl
    exact hdelay x hcurrent

theorem executed?_eq : s₂.executed? = s₁.executed? := by
  unfold executed?
  rw [(hR.poll h).1, hR.machine h]

theorem cycle (hdelay : ∀ x, s₁.executed? = some (.readDelay x) →
      (s₂.delay.poll now₂).count = (s₁.delay.poll now₁).count) :
    Alike R (s₁.perform (cycle now₁)) (s₂.perform (cycle now₂)) := by
  obtain ⟨hfault, hpolled⟩ := hR.poll h
  rw [perform_cycle, perform_cycle, hfault]
  cases hpoll : (Display.poll s₁.display).1 with
  | error fault => exact ⟨rfl, hpolled⟩
  | ok =>
    apply hR.step hpolled
    intro x hcurrent
    apply hdelay x
    have hthere : s₁.machine.current = .ok (.readDelay x) := hcurrent
    rw [executed?, hpoll, hthere]
    rfl

end Lockstep

end ChipEight.Interpreter
