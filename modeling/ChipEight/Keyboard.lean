import ChipEight.Devices

/-!
# Keyboards

Any number of threads press and release keys while one thread waits for a key.  The key states are
behind a lock.  A press takes two steps, between which others may act: the key is set under the
lock, and then every sleeper is notified.  A waiter looks at the keys under the lock; if none is
held it gives up the lock and falls asleep in one step.  It wakes up when it is notified, or for no
reason at all, and looks again.

A keypad is pressed from outside.  A wait reports the lowest key that is held; if none is, it goes
on until the next press.  The presses that end such waits are given with the keypad, so that a wait
always has an end.  A scripted keyboard answers waits with what was laid down for it.
-/

namespace ChipEight

/-! ## Key states -/

/-- Which of the sixteen keys are held. -/
structure Keys where
  held : Vector Bool 16
  deriving DecidableEq

namespace Keys

/-- No key is held. -/
def released : Keys := ⟨Vector.replicate 16 false⟩

def isHeld (s : Keys) (k : Key) : Bool := s.held[k]

def press (s : Keys) (k : Key) : Keys := ⟨s.held.set k true⟩

def release (s : Keys) (k : Key) : Keys := ⟨s.held.set k false⟩

/-- The held key with the smallest number. -/
def lowest? (s : Keys) : Option Key := (List.finRange 16).find? s.isHeld

theorem isHeld_released (k : Key) : released.isHeld k = false := by
  simp [isHeld, released]

theorem isHeld_press (s : Keys) (k q : Key) :
    (s.press k).isHeld q = if q = k then true else s.isHeld q := by
  simp only [isHeld, press, Fin.getElem_fin, Vector.getElem_set, Fin.ext_iff, eq_comm]

theorem isHeld_release (s : Keys) (k q : Key) :
    (s.release k).isHeld q = if q = k then false else s.isHeld q := by
  simp only [isHeld, release, Fin.getElem_fin, Vector.getElem_set, Fin.ext_iff, eq_comm]

/-- The key states are the set of the keys that are held. -/
theorem ext_isHeld {s t : Keys} (h : ∀ k, s.isHeld k = t.isHeld k) : s = t := by
  obtain ⟨s⟩ := s
  obtain ⟨t⟩ := t
  congr 1
  apply Vector.ext
  intro i hi
  exact h ⟨i, hi⟩

end Keys

/-! ## Waiting for a key -/

/-- Where the waiting thread is. -/
inductive Waiter where
  | away
  /-- About to look at the keys. -/
  | testing
  | asleep
  | returned (k : Key)
  deriving DecidableEq

structure Handshake where
  keys : Keys := .released
  /-- The threads that have set a key and have not yet notified. -/
  announcing : List Nat := []
  waiter : Waiter := .away
  deriving DecidableEq

namespace Handshake

inductive Move where
  | press (thread : Nat) (k : Key)
  | announce (thread : Nat)
  | release (thread : Nat) (k : Key)
  /-- The waiting thread begins a wait. -/
  | await
  /-- The waiting thread looks at the keys. -/
  | test
  /-- The waiting thread wakes up without having been notified. -/
  | stir
  deriving DecidableEq

/-- What a notification does to the waiting thread. -/
def notify : Waiter → Waiter
  | .asleep => .testing
  | w => w

/-- One step, if it is possible.  A thread that has set a key notifies before it does anything
else. -/
def step? (h : Handshake) : Move → Option Handshake
  | .press thread k =>
    if thread ∈ h.announcing then none
    else some { h with keys := h.keys.press k, announcing := thread :: h.announcing }
  | .announce thread =>
    if thread ∈ h.announcing then
      some { h with announcing := h.announcing.erase thread, waiter := notify h.waiter }
    else none
  | .release thread k =>
    if thread ∈ h.announcing then none else some { h with keys := h.keys.release k }
  | .await =>
    match h.waiter with
    | .away | .returned _ => some { h with waiter := .testing }
    | .testing | .asleep => none
  | .test =>
    match h.waiter with
    | .testing =>
      match h.keys.lowest? with
      | some k => some { h with waiter := .returned k }
      | none => some { h with waiter := .asleep }
    | _ => none
  | .stir =>
    match h.waiter with
    | .asleep => some { h with waiter := .testing }
    | _ => none

/-- Make the moves in order, leaving out those that are not possible when their turn comes. -/
def play (h : Handshake) (moves : List Move) : Handshake :=
  moves.foldl (fun h move ↦ (h.step? move).getD h) h

end Handshake

/-! ## Keypads -/

structure Keypad where
  keys : Keys := .released
  /-- The presses that will end the waits to come. -/
  arrivals : Nat → Key := fun _ ↦ Key.ofByte 0

namespace Keypad

def press (p : Keypad) (k : Key) : Keypad := { p with keys := p.keys.press k }

def release (p : Keypad) (k : Key) : Keypad := { p with keys := p.keys.release k }

/-- Wait for a key.  The key stays held. -/
def await (p : Keypad) : Key × Keypad :=
  match p.keys.lowest? with
  | some k => (k, p)
  | none =>
    let k := p.arrivals 0
    (k, { keys := p.keys.press k, arrivals := fun n ↦ p.arrivals (n + 1) })

/-- Wait for a key while another thread presses `k`, some time after the wait began. -/
def awaitDuringPress (p : Keypad) (k : Key) : Option Key × Keypad :=
  let h := Handshake.play { keys := p.keys } [.await, .test, .press 0 k, .announce 0, .test]
  let reported := match h.waiter with
    | .returned key => some key
    | _ => none
  (reported, { p with keys := h.keys })

instance : Keyboard Keypad where
  isHeld p k := p.keys.isHeld k
  await p :=
    let (k, p) := p.await
    (k.toByte, p)

end Keypad

/-! ## Scripted keyboards -/

/-- A keyboard whose answers to waits are laid down beforehand, each with the time that the wait
takes.  The answers need not be keys, and have nothing to do with the keys that are held.  When they
are used up, every wait reports key zero at once. -/
structure KeyScript where
  keys : Keys := .released
  /-- The answers to come, each with its delay in nanoseconds. -/
  answers : List (UInt8 × Nat) := []

namespace KeyScript

def next (s : KeyScript) : UInt8 × Nat := s.answers.headD (0, 0)

instance : Keyboard KeyScript where
  isHeld s k := s.keys.isHeld k
  await s := (s.next.1, { s with answers := s.answers.tail })
  awaitTime s := s.next.2

end KeyScript

end ChipEight
