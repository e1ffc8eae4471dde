import ChipEight.Fault

/-!
# Devices

What the interpreter needs of the devices it drives: a display, a keyboard, a speaker and a source
of random bytes.  A device may take time and says how much; of all that is asked of them, only the
repainting of a display may fail.
-/

namespace ChipEight

/-! ## Displays -/

class Display (D : Type) where
  /-- Unset every pixel. -/
  clear : D → D
  /-- Flip the pixels under a sprite; the first result says whether a pixel was unset. -/
  draw : D → List UInt8 → Nat → Nat → Bool × D
  /-- A chance to repaint. -/
  poll : D → Except Fault Unit × D := fun d ↦ (.ok (), d)
  /-- How long the next poll will take, in nanoseconds. -/
  pollTime : D → Nat := fun _ ↦ 0

/-- A display whose polls take time: the first as long as the first of its delays, the second as
long as the second, and no time once the delays are used up. -/
structure Delayed (D : Type) where
  inner : D
  /-- The durations of the polls to come, in nanoseconds. -/
  delays : List Nat := []

instance {D : Type} [Display D] : Display (Delayed D) where
  clear d := { d with inner := Display.clear d.inner }
  draw d sprite x y :=
    let (hit, inner) := Display.draw d.inner sprite x y
    (hit, { d with inner })
  poll d :=
    let (result, inner) := Display.poll d.inner
    (result, { inner, delays := d.delays.tail })
  pollTime d := d.delays.headD 0 + Display.pollTime d.inner

/-! ## Keyboards -/

class Keyboard (K : Type) where
  isHeld : K → Key → Bool
  /-- Wait until some key is held and report its number, which need not be that of a key. -/
  await : K → UInt8 × K
  /-- How long the next wait will take, in nanoseconds. -/
  awaitTime : K → Nat := fun _ ↦ 0

/-! ## Speakers -/

class Speaker (S : Type) where
  /-- Start a tone at the time `now` that lasts for `duration`, both in nanoseconds, without waiting
  for its end.  It takes the place of a tone that is still sounding. -/
  tone : S → (now duration : Nat) → S

/-- A speaker that is not heard. -/
structure Mute where
  deriving DecidableEq

instance : Speaker Mute where
  tone s _ _ := s

/-- A speaker that keeps the durations of its tones, the first one first. -/
structure ToneRecorder where
  durations : Array Nat := #[]
  deriving DecidableEq

instance : Speaker ToneRecorder where
  tone s _ duration := { durations := s.durations.push duration }

/-- A speaker that keeps when its tone ends, for whoever makes the sound. -/
structure ToneTimer where
  /-- The tone sounds before this time. -/
  soundsUntil : Nat := 0
  deriving DecidableEq

namespace ToneTimer

def start (_ : ToneTimer) (now duration : Nat) : ToneTimer := { soundsUntil := now + duration }

def soundsAt (t : ToneTimer) (now : Nat) : Bool := now < t.soundsUntil

instance : Speaker ToneTimer where
  tone := start

end ToneTimer

/-! ## Random bytes -/

/-- A source of random bytes. -/
class Entropy (G : Type) where
  next : G → UInt8 × G

instance : Entropy StdGen where
  next g :=
    let (n, g) := randNat g 0 255
    (UInt8.ofNat n, g)

end ChipEight
