import ChipEight.Keyboard
import ChipEight.Proofs.Interpreter.Lockstep

/-!
# Interpreters that differ in time

The timers, the speaker, the time that the devices have taken and the journal are where the time
goes.  Interpreters that differ in nothing else stay so at whatever times their cycles run, as long
as the delay timer is not read.  The sound timer alone goes nowhere at all.

Keyboards and sources of random bytes count as the same if their answers are, in the order in which
they are asked for; how long a keyboard takes to answer may differ.
-/

namespace ChipEight

namespace Keyboard

/-- The keyboard after some waits. -/
def awaited {K : Type} [Keyboard K] : Nat → K → K
  | 0, k => k
  | waits + 1, k => awaited waits (await k).2

variable {K₁ K₂ : Type} [Keyboard K₁] [Keyboard K₂] {k₁ : K₁} {k₂ : K₂}

structure SameAnswers (k₁ : K₁) (k₂ : K₂) : Prop where
  isHeld (waits : Nat) (key : Key) :
    isHeld (awaited waits k₂) key = isHeld (awaited waits k₁) key
  await (waits : Nat) : (await (awaited waits k₂)).1 = (await (awaited waits k₁)).1

theorem SameAnswers.next (h : SameAnswers k₁ k₂) :
    SameAnswers (Keyboard.await k₁).2 (Keyboard.await k₂).2 where
  isHeld waits := h.isHeld (waits + 1)
  await waits := h.await (waits + 1)

end Keyboard

theorem KeyScript.keys_awaited (s : KeyScript) (waits : Nat) :
    (Keyboard.awaited waits s).keys = s.keys := by
  induction waits generalizing s with
  | zero => rfl
  | succ waits ih => exact ih _

theorem KeyScript.answers_awaited (s : KeyScript) (waits : Nat) :
    (Keyboard.awaited waits s).answers = s.answers.drop waits := by
  induction waits generalizing s with
  | zero => rfl
  | succ waits ih =>
    calc
      _ = s.answers.tail.drop waits := ih _
      _ = s.answers.drop (waits + 1) := by rw [List.drop_tail]

/-- It makes no difference how long the answers of a script take. -/
theorem KeyScript.sameAnswers {s t : KeyScript} (hkeys : t.keys = s.keys)
    (hanswers : t.answers.map (·.1) = s.answers.map (·.1)) : Keyboard.SameAnswers s t where
  isHeld waits key := by
    change (Keyboard.awaited waits t).keys.isHeld key = (Keyboard.awaited waits s).keys.isHeld key
    rw [keys_awaited, keys_awaited, hkeys]
  await waits := by
    have hnext (script : KeyScript) :
        (Keyboard.await (Keyboard.awaited waits script)).1 =
          ((script.answers.map (·.1)).drop waits).headD 0 := by
      change ((Keyboard.awaited waits script).answers.headD (0, 0)).1 = _
      rw [answers_awaited, ← List.map_drop]
      cases script.answers.drop waits <;> rfl
    rw [hnext, hnext, hanswers]

/-- The random byte that comes after some others. -/
def Entropy.byte {G : Type} [Entropy G] : Nat → G → UInt8
  | 0, g => (next g).1
  | n + 1, g => byte n (next g).2

namespace Interpreter

/-- What is done to the keyboard from outside. -/
def handled {D K S G : Type} (s : Interpreter D K S G) (hand : K → K) : Interpreter D K S G :=
  { s with keyboard := hand s.keyboard }

/-! ## Different times -/

section Time

variable {D K₁ K₂ S₁ S₂ G₁ G₂ : Type} [Keyboard K₁] [Keyboard K₂] [Entropy G₁] [Entropy G₂]

/-- Apart from what depends on the time, the interpreters are the same. -/
structure EqualButTime (s₁ : Interpreter D K₁ S₁ G₁) (s₂ : Interpreter D K₂ S₂ G₂) : Prop where
  machine : s₂.machine = s₁.machine
  display : s₂.display = s₁.display
  keyboard : Keyboard.SameAnswers s₁.keyboard s₂.keyboard
  entropy (n : Nat) : Entropy.byte n s₂.entropy = Entropy.byte n s₁.entropy

theorem EqualButTime.handled {s₁ : Interpreter D K₁ S₁ G₁} {s₂ : Interpreter D K₂ S₂ G₂}
    (h : EqualButTime s₁ s₂) {hand₁ : K₁ → K₁} {hand₂ : K₂ → K₂}
    (hhands : ∀ k₁ k₂, Keyboard.SameAnswers k₁ k₂ → Keyboard.SameAnswers (hand₁ k₁) (hand₂ k₂)) :
    EqualButTime (s₁.handled hand₁) (s₂.handled hand₂) :=
  { h with keyboard := hhands _ _ h.keyboard }

variable [Display D] [Speaker S₁] [Speaker S₂]

theorem equalButTime_lockstep (now₁ now₂ : Nat) :
    Lockstep (EqualButTime : Interpreter D K₁ S₁ G₁ → Interpreter D K₂ S₂ G₂ → Prop)
      now₁ now₂ where
  machine h := h.machine
  alter _ h := { h with machine := rfl }
  note _ h := { h with }
  clear h := { h with display := congrArg Display.clear h.display }
  draw sprite x y h := by
    have hdraw := congrArg (Display.draw · sprite x y) h.display
    exact ⟨congrArg (·.1) hdraw, { h with display := congrArg (·.2) hdraw }⟩
  isHeld key h := h.keyboard.isHeld 0 key
  await h := ⟨h.keyboard.await 0, { h with keyboard := h.keyboard.next }⟩
  random h := ⟨h.entropy 0, { h with entropy := fun n ↦ h.entropy (n + 1) }⟩
  setDelay _ h := { h with }
  setSound _ h := { h with }
  poll h := by
    have hpoll := congrArg Display.poll h.display
    exact ⟨congrArg (·.1) hpoll, { h with display := congrArg (·.2) hpoll }⟩

end Time

/-! ## Different sound timers -/

section Sound

variable {D K S G : Type} {s t : Interpreter D K S G}

/-- Apart from where their sound timers stand, the interpreters are the same. -/
def EqualButSound (s t : Interpreter D K S G) : Prop :=
  ∃ sound : Countdown, sound.period = s.sound.period ∧ t = { s with sound }

theorem EqualButSound.handled (h : EqualButSound s t) (hand : K → K) :
    EqualButSound (s.handled hand) (t.handled hand) := by
  obtain ⟨sound, hperiod, rfl⟩ := h
  exact ⟨sound, hperiod, rfl⟩

theorem EqualButSound.delay (h : EqualButSound s t) : t.delay = s.delay := by
  obtain ⟨sound, -, rfl⟩ := h
  rfl

variable [Display D] [Keyboard K] [Speaker S] [Entropy G]

theorem equalButSound_lockstep (now : Nat) :
    Lockstep (EqualButSound : Interpreter D K S G → Interpreter D K S G → Prop) now now where
  machine := by
    rintro _ _ ⟨sound, -, rfl⟩
    rfl
  alter := by
    rintro _ _ m ⟨sound, hperiod, rfl⟩
    exact ⟨sound, hperiod, rfl⟩
  note := by
    rintro _ _ e ⟨sound, hperiod, rfl⟩
    exact ⟨sound, hperiod, rfl⟩
  clear := by
    rintro _ _ ⟨sound, hperiod, rfl⟩
    exact ⟨sound, hperiod, rfl⟩
  draw := by
    rintro _ _ sprite x y ⟨sound, hperiod, rfl⟩
    exact ⟨rfl, sound, hperiod, rfl⟩
  isHeld := by
    rintro _ _ key ⟨sound, -, rfl⟩
    rfl
  await := by
    rintro _ _ ⟨sound, hperiod, rfl⟩
    exact ⟨rfl, sound, hperiod, rfl⟩
  random := by
    rintro _ _ ⟨sound, hperiod, rfl⟩
    exact ⟨rfl, sound, hperiod, rfl⟩
  setDelay := by
    rintro _ _ count ⟨sound, hperiod, rfl⟩
    exact ⟨sound, hperiod, rfl⟩
  setSound := by
    -- The tone and the journal are told how long the sound lasts, which the period decides.
    rintro s _ count ⟨sound, hperiod, rfl⟩
    refine ⟨sound.set count now, hperiod, ?_⟩
    simp only [sounded, hperiod]
  poll := by
    rintro s _ ⟨sound, hperiod, rfl⟩
    refine ⟨rfl, sound.poll now, ?_, rfl⟩
    calc
      _ = sound.period := sound.period_poll now
      _ = s.sound.period := hperiod
      _ = _ := (s.sound.period_poll now).symm

/-- The outcomes of cycles at the given times, with what is done to the keyboard before each of
them, and the interpreter after them. -/
def cycles (hands : Nat → K → K) (times : Nat → Nat) (s : Interpreter D K S G) :
    Nat → List (Except Failure Unit) × Interpreter D K S G
  | 0 => ([], s)
  | n + 1 =>
    let (outcomes, t) := cycles hands times s n
    let (outcome, u) := (t.handled (hands n)).perform (cycle (times n))
    (outcomes ++ [outcome], u)

theorem EqualButSound.cycles (h : EqualButSound s t) (hands : Nat → K → K) (times : Nat → Nat)
    (n : Nat) :
    (t.cycles hands times n).1 = (s.cycles hands times n).1 ∧
      EqualButSound (s.cycles hands times n).2 (t.cycles hands times n).2 := by
  induction n with
  | zero => exact ⟨rfl, h⟩
  | succ n ih =>
    obtain ⟨houtcomes, hequal⟩ := ih
    have hhandled := hequal.handled (hands n)
    have hcycle := (equalButSound_lockstep (times n)).cycle hhandled
      fun _ _ ↦ by rw [hhandled.delay]
    constructor
    · simp only [Interpreter.cycles, houtcomes, hcycle.outcome]
    · exact hcycle.related

end Sound

end Interpreter

end ChipEight
