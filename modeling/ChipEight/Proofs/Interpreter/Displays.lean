import ChipEight.Keyboard
import ChipEight.Proofs.Display.Faithful
import ChipEight.Proofs.Interpreter.Lockstep

/-!
# Interpreters with different displays

What an interpreter does depends on its display in nothing but the picture.  Two interpreters that
differ only in their displays, both faithful and showing the same bitmap, go on to differ in nothing
else: each call has the same outcome on both, and leaves everything but the displays the same.
-/

namespace ChipEight

/-- What the owner of an interpreter has it do, without reaching for the display. -/
inductive Call (K : Type) where
  | execute (i : Instruction) (now : Nat)
  | step (now : Nat)
  | cycle (now : Nat)
  /-- Something is done to the machine and to the keyboard from outside. -/
  | handle (onMachine : Machine → Machine) (onKeyboard : K → K)

def Call.command {D K S G : Type} [Display D] [Keyboard K] [Speaker S] [Entropy G] :
    Call K → Command D K S G Unit
  | execute i now => Interpreter.execute i now
  | step now => Interpreter.step now
  | cycle now => Interpreter.cycle now
  | handle onMachine onKeyboard =>
    modify fun s ↦ { s with machine := onMachine s.machine, keyboard := onKeyboard s.keyboard }

namespace Interpreter

variable {D D₁ D₂ K S G W : Type}

/-- The same interpreter with another display. -/
def withDisplay (s : Interpreter D₁ K S G) (display : D₂) : Interpreter D₂ K S G where
  machine := s.machine
  delay := s.delay
  sound := s.sound
  display := display
  keyboard := s.keyboard
  speaker := s.speaker
  entropy := s.entropy
  waited := s.waited
  journal := s.journal

/-- The interpreters differ only in their displays, and these show the same bitmap. -/
def EqualButDisplay (shows₁ : D₁ → Bitmap → Prop) (shows₂ : D₂ → Bitmap → Prop)
    (s₁ : Interpreter D₁ K S G) (s₂ : Interpreter D₂ K S G) : Prop :=
  ∃ b d, shows₁ s₁.display b ∧ shows₂ d b ∧ s₂ = s₁.withDisplay d

/-- The outcomes of calls, and the interpreter after them. -/
def respond [Display D] [Keyboard K] [Speaker S] [Entropy G] (s : Interpreter D K S G) :
    List (Call K) → List (Except Failure Unit) × Interpreter D K S G
  | [] => ([], s)
  | call :: rest =>
    let (outcome, t) := s.perform call.command
    let (outcomes, u) := t.respond rest
    (outcome :: outcomes, u)

variable {shows₁ : D₁ → Bitmap → Prop} {shows₂ : D₂ → Bitmap → Prop}
variable {s₁ : Interpreter D₁ K S G} {s₂ : Interpreter D₂ K S G}

theorem EqualButDisplay.delay (h : EqualButDisplay shows₁ shows₂ s₁ s₂) : s₂.delay = s₁.delay := by
  obtain ⟨b, d, -, -, rfl⟩ := h
  rfl

variable [Display D₁] [Display D₂] [Keyboard K] [Speaker S] [Entropy G]

theorem equalButDisplay_lockstep (h₁ : Display.Faithful shows₁) (h₂ : Display.Faithful shows₂)
    (now : Nat) :
    Lockstep (EqualButDisplay shows₁ shows₂ : Interpreter D₁ K S G → _ → Prop) now now where
  machine := by
    rintro _ _ ⟨b, d, -, -, rfl⟩
    rfl
  alter := by
    rintro _ _ m ⟨b, d, hshows₁, hshows₂, rfl⟩
    exact ⟨b, d, hshows₁, hshows₂, rfl⟩
  note := by
    rintro _ _ e ⟨b, d, hshows₁, hshows₂, rfl⟩
    exact ⟨b, d, hshows₁, hshows₂, rfl⟩
  clear := by
    rintro _ _ ⟨b, d, hshows₁, hshows₂, rfl⟩
    exact ⟨.blank, _, h₁.clear hshows₁, h₂.clear hshows₂, rfl⟩
  draw := by
    rintro _ _ sprite x y ⟨b, d, hshows₁, hshows₂, rfl⟩
    obtain ⟨hhit₁, hdrawn₁⟩ := h₁.draw sprite x y hshows₁
    obtain ⟨hhit₂, hdrawn₂⟩ := h₂.draw sprite x y hshows₂
    exact ⟨hhit₂.trans hhit₁.symm, _, _, hdrawn₁, hdrawn₂, rfl⟩
  isHeld := by
    rintro _ _ key ⟨b, d, -, -, rfl⟩
    rfl
  await := by
    rintro _ _ ⟨b, d, hshows₁, hshows₂, rfl⟩
    exact ⟨rfl, b, d, hshows₁, hshows₂, rfl⟩
  random := by
    rintro _ _ ⟨b, d, hshows₁, hshows₂, rfl⟩
    exact ⟨rfl, b, d, hshows₁, hshows₂, rfl⟩
  setDelay := by
    rintro _ _ count ⟨b, d, hshows₁, hshows₂, rfl⟩
    exact ⟨b, d, hshows₁, hshows₂, rfl⟩
  setSound := by
    rintro _ _ count ⟨b, d, hshows₁, hshows₂, rfl⟩
    exact ⟨b, d, hshows₁, hshows₂, rfl⟩
  poll := by
    rintro s _ ⟨b, d, hshows₁, hshows₂, rfl⟩
    obtain ⟨hok₁, hpolled₁⟩ := h₁.poll hshows₁
    obtain ⟨hok₂, hpolled₂⟩ := h₂.poll hshows₂
    refine ⟨hok₂.trans hok₁.symm, b, _, hpolled₁, hpolled₂, ?_⟩
    -- The time that a poll takes is added up, and is the same for both as it is zero.
    unfold polled withDisplay
    dsimp only
    rw [h₁.pollTime hshows₁, h₂.pollTime hshows₂]

theorem EqualButDisplay.perform (h₁ : Display.Faithful shows₁) (h₂ : Display.Faithful shows₂)
    (h : EqualButDisplay shows₁ shows₂ s₁ s₂) (call : Call K) :
    Alike (EqualButDisplay shows₁ shows₂) (s₁.perform call.command) (s₂.perform call.command) := by
  cases call with
  | execute i now =>
    exact (equalButDisplay_lockstep h₁ h₂ now).execute h i fun _ _ ↦ congrArg _ h.delay
  | step now => exact (equalButDisplay_lockstep h₁ h₂ now).step h fun _ _ ↦ congrArg _ h.delay
  | cycle now =>
    exact (equalButDisplay_lockstep h₁ h₂ now).cycle h fun _ _ ↦ by rw [h.delay]
  | handle onMachine onKeyboard =>
    obtain ⟨b, d, hshows₁, hshows₂, rfl⟩ := h
    exact ⟨rfl, b, d, hshows₁, hshows₂, rfl⟩

theorem EqualButDisplay.respond (h₁ : Display.Faithful shows₁) (h₂ : Display.Faithful shows₂)
    (h : EqualButDisplay shows₁ shows₂ s₁ s₂) (calls : List (Call K)) :
    (s₂.respond calls).1 = (s₁.respond calls).1 ∧
      EqualButDisplay shows₁ shows₂ (s₁.respond calls).2 (s₂.respond calls).2 := by
  induction calls generalizing s₁ s₂ with
  | nil => exact ⟨rfl, h⟩
  | cons call rest ih =>
    have hcall := h.perform h₁ h₂ call
    obtain ⟨houtcomes, hequal⟩ := ih hcall.related
    constructor
    · simp only [Interpreter.respond, hcall.outcome, houtcomes]
    · exact hequal

/-- Whether an interpreter draws on a frame, on a shared frame or on a console with a writer that
never fails, all showing the same bitmap at first: the same calls have the same outcomes, and lead
to interpreters that are the same but for their displays, which still show the same bitmap. -/
theorem displays_interchangeable [Writer W] (s : Interpreter Frame K S G) (shared : SharedFrame)
    (console : Console W) (hshared : shared.frame.bitmap = s.display.bitmap)
    (hconsole : console.frame.bitmap = s.display.bitmap) (hout : Writer.NeverFails console.out)
    (calls : List (Call K)) :
    ∃ (shared' : SharedFrame) (console' : Console W),
      (s.withDisplay shared).respond calls =
        ((s.respond calls).1, (s.respond calls).2.withDisplay shared') ∧
      (s.withDisplay console).respond calls =
        ((s.respond calls).1, (s.respond calls).2.withDisplay console') ∧
      shared'.frame.bitmap = (s.respond calls).2.display.bitmap ∧
      console'.frame.bitmap = (s.respond calls).2.display.bitmap := by
  have hstart : EqualButDisplay Frame.Shows SharedFrame.Shows s (s.withDisplay shared) :=
    ⟨s.display.bitmap, shared, rfl, hshared, rfl⟩
  have hstart' : EqualButDisplay Frame.Shows Console.Shows s (s.withDisplay console) :=
    ⟨s.display.bitmap, console, rfl, ⟨hconsole, hout⟩, rfl⟩
  obtain ⟨houtcomes, b, shared', hframe, hsame, hrest⟩ :=
    hstart.respond Frame.faithful SharedFrame.faithful calls
  obtain ⟨houtcomes', b', console', hframe', hsame', hrest'⟩ :=
    hstart'.respond Frame.faithful Console.faithful calls
  exact ⟨shared', console', Prod.ext houtcomes hrest, Prod.ext houtcomes' hrest',
    hsame.trans hframe.symm, hsame'.1.trans hframe'.symm⟩

/-- An interpreter for examples: its program draws a row of four pixels, and then sets a
register. -/
def sketching : Interpreter Frame KeyScript Mute StdGen :=
  { ofOptions {} {} {} {} ⟨1, 1⟩ with
    machine := Machine.initial.poke 0x200 [0xD0, 0x01, 0x60, 0x07] }

set_option maxRecDepth 20000 in
/-- The console prints between the two cycles, and shows the same pixels as the frame after them. -/
theorem displays_interchangeable_sketch :
    ({} : SharedFrame).frame.bitmap = sketching.display.bitmap ∧
      ({ out := {} } : Console Sink).frame.bitmap = sketching.display.bitmap ∧
      Writer.NeverFails ({} : Sink) ∧
      ∃ (shared : SharedFrame) (console : Console Sink) (t : Interpreter Frame KeyScript Mute StdGen),
        sketching.respond [.cycle 0, .cycle 1] = ([.ok (), .ok ()], t) ∧
        (sketching.withDisplay ({} : SharedFrame)).respond [.cycle 0, .cycle 1] =
          ([.ok (), .ok ()], t.withDisplay shared) ∧
        (sketching.withDisplay ({ out := {} } : Console Sink)).respond [.cycle 0, .cycle 1] =
          ([.ok (), .ok ()], t.withDisplay console) ∧
        t.machine.reg Register.zero = 7 ∧ t.display.bitmap.pixel 3 0 = true ∧
        shared.frame.bitmap = t.display.bitmap ∧ console.frame.bitmap = t.display.bitmap := by
  have hout : Writer.NeverFails ({} : Sink) := Sink.neverFails rfl rfl
  obtain ⟨shared, console, hshared, hconsole, hpixels, hpixels'⟩ :=
    displays_interchangeable sketching {} ({ out := {} } : Console Sink) rfl rfl hout
      [.cycle 0, .cycle 1]
  have houtcomes : (sketching.respond [.cycle 0, .cycle 1]).1 = [.ok (), .ok ()] := by rfl
  rw [houtcomes] at hshared hconsole
  exact ⟨rfl, rfl, hout, shared, console, _, Prod.ext houtcomes rfl, hshared, hconsole, rfl, rfl,
    hpixels, hpixels'⟩

end Interpreter

end ChipEight
