import ChipEight.Display
import ChipEight.Keyboard
import ChipEight.Proofs.Interpreter.KeyFaults
import ChipEight.Proofs.Keyboard.Held

/-!
# No wake-up is lost

A thread notifies only after it has given up the lock under which it set a key.  In between, others
may act, and the waiter may be asleep while a key is held.  But it never stays so: as long as it is
asleep and some key is held, some thread is still to notify.  A wait therefore goes on only while no
key is held or the wake-up is on its way, and it ends with the lowest key held at that step.
-/

namespace ChipEight

theorem Keys.lowest?_press {s : Keys} (h : s.lowest? = none) (k : Key) :
    (s.press k).lowest? = some k := by
  rw [lowest?_eq_none_iff] at h
  rw [lowest?_eq_some_iff, isHeld_press, if_pos rfl]
  refine ⟨rfl, fun q hq ↦ ?_⟩
  rw [isHeld_press, if_neg (Fin.ne_of_lt hq), h q]

namespace Handshake

open Keys

variable {h t : Handshake} {move : Move} {moves : List Move} {k : Key}

theorem notify_ne_asleep (w : Waiter) : notify w ≠ .asleep := by
  cases w <;> nofun

theorem eq_returned_of_notify {w : Waiter} (hw : notify w = .returned k) : w = .returned k := by
  cases w with
  | asleep => cases hw
  | away | testing | returned => exact hw

/-! ## Falling asleep and waking up -/

/-- A waiter that is asleep with no notification still to come sleeps rightly: no key is held. -/
def Wakeful (h : Handshake) : Prop :=
  h.waiter = .asleep → h.announcing = [] → ∀ k, h.keys.isHeld k = false

theorem wakeful_of_away (keys : Keys) : Wakeful { keys } := nofun

theorem Wakeful.step (hwakeful : h.Wakeful) (hstep : h.step? move = some t) : t.Wakeful := by
  have hmove := of_step?_eq_some hstep
  intro hasleep hquiet
  cases move with
  | press thread k =>
    -- the thread that has pressed is still to notify
    obtain ⟨-, rfl⟩ := hmove
    cases hquiet
  | announce thread =>
    obtain ⟨-, rfl⟩ := hmove
    exact absurd hasleep (notify_ne_asleep _)
  | release thread k =>
    obtain ⟨-, rfl⟩ := hmove
    intro q
    rw [isHeld_release]
    split
    · rfl
    · exact hwakeful hasleep hquiet q
  | await | stir =>
    obtain ⟨-, rfl⟩ := hmove
    cases hasleep
  | test =>
    obtain ⟨-, rfl⟩ := hmove
    cases hlowest : h.keys.lowest? with
    | none => exact lowest?_eq_none_iff.mp hlowest
    | some k =>
      rw [hlowest] at hasleep
      cases hasleep

theorem Wakeful.run (hwakeful : h.Wakeful) (hrun : h.run? moves = some t) : t.Wakeful := by
  induction moves generalizing h with
  | nil =>
    cases hrun
    exact hwakeful
  | cons move moves ih =>
    rw [run?_cons, Option.bind_eq_some_iff] at hrun
    obtain ⟨next, hstep, hrest⟩ := hrun
    exact ih (hwakeful.step hstep) hrest

/-- Who sleeps while a key is held can be woken up. -/
theorem Wakeful.exists_announce (hwakeful : h.Wakeful) (hasleep : h.waiter = .asleep)
    (hheld : h.keys.isHeld k) :
    ∃ thread t, h.step? (.announce thread) = some t ∧ t.waiter = .testing := by
  cases hannouncing : h.announcing with
  | nil =>
    rw [hwakeful hasleep hannouncing k] at hheld
    cases hheld
  | cons thread rest =>
    have hmem : thread ∈ h.announcing := hannouncing ▸ List.mem_cons_self
    exact ⟨thread, _, if_pos hmem, congrArg notify hasleep⟩

/-- A wait ends when the waiting thread looks at the keys, with the lowest one that is held. -/
theorem lowest?_of_returns (hstep : h.step? move = some t) (hreturned : t.waiter = .returned k)
    (hbefore : h.waiter ≠ .returned k) : move = .test ∧ h.keys.lowest? = some k := by
  have hmove := of_step?_eq_some hstep
  cases move with
  | press | release =>
    obtain ⟨-, rfl⟩ := hmove
    exact absurd hreturned hbefore
  | announce =>
    obtain ⟨-, rfl⟩ := hmove
    exact absurd (eq_returned_of_notify hreturned) hbefore
  | await | stir =>
    obtain ⟨-, rfl⟩ := hmove
    cases hreturned
  | test =>
    obtain ⟨-, rfl⟩ := hmove
    cases hlowest : h.keys.lowest? with
    | none =>
      rw [hlowest] at hreturned
      cases hreturned
    | some q =>
      rw [hlowest] at hreturned
      cases hreturned
      exact ⟨rfl, rfl⟩

end Handshake

theorem Key.toNat_toByte (k : Key) : k.toByte.toNat = k.val :=
  UInt8.toNat_ofNat_of_lt (Nat.lt_trans k.isLt (by decide))

namespace Keypad

open Handshake

/-- The moves of a wait on a keypad.  If no key is held when it begins, the next key to arrive is
pressed by another thread, and nothing else is done with the keys. -/
def awaitMoves (p : Keypad) : List Move :=
  match p.keys.lowest? with
  | some _ => [.await, .test]
  | none => [.await, .test, .press 0 (p.arrivals 0), .announce 0, .test]

/-- A wait on a keypad has the outcome of its moves. -/
theorem run?_awaitMoves (p : Keypad) :
    run? { keys := p.keys } p.awaitMoves =
      some { keys := p.await.2.keys, waiter := .returned p.await.1 } := by
  unfold awaitMoves await
  cases hlowest : p.keys.lowest? with
  | some k => simp [run?, step?, hlowest]
  | none =>
    have hpressed := Keys.lowest?_press hlowest (p.arrivals 0)
    simp [run?, step?, notify, hlowest, hpressed]

end Keypad

namespace Handshake

variable {D K S G : Type} [Display D] [Keyboard K] [Speaker S] [Entropy G]

/-- However any number of threads press and release keys, notify and wake up the waiter: once nobody
is to notify any more, the waiter is asleep only if no key is held.  A wait ends with a key that is
held at that step while no lower one is, and an interpreter that gets the number of that key accepts
it.  So does an interpreter on a keypad, where every wait is the end of such steps: of a look at the
keys, and if none is held, of a press and a second look. -/
theorem no_wakeup_lost {keys : Keys} {moves : List Move} {h : Handshake}
    (hrun : run? { keys } moves = some h) :
    (h.waiter = .asleep → h.announcing = [] → ∀ k, h.keys.isHeld k = false) ∧
    (∀ move t k, h.step? move = some t → t.waiter = .returned k → h.waiter ≠ .returned k →
      move = .test ∧ h.keys.isHeld k ∧ (∀ q < k, h.keys.isHeld q = false) ∧
        k.toByte.toNat < 16 ∧
        ∀ s : Interpreter D K S G, (Keyboard.await s.keyboard).1 = k.toByte → s.AcceptsKeys) ∧
    ∀ s : Interpreter D Keypad S G, s.AcceptsKeys ∧
      run? { keys := s.keyboard.keys } s.keyboard.awaitMoves =
        some { keys := s.keyboard.await.2.keys, waiter := .returned s.keyboard.await.1 } := by
  have hbyte (k : Key) : k.toByte.toNat < 16 := k.toNat_toByte ▸ k.isLt
  refine ⟨(wakeful_of_away keys).run hrun, ?_, ?_⟩
  · intro move t k hstep hreturned hbefore
    obtain ⟨hmove, hlowest⟩ := lowest?_of_returns hstep hreturned hbefore
    obtain ⟨hheld, hlower⟩ := Keys.lowest?_eq_some_iff.mp hlowest
    refine ⟨hmove, hheld, hlower, hbyte k, fun s hanswer ↦ ?_⟩
    exact Interpreter.acceptsKeys_of_lt (hanswer ▸ hbyte k)
  · intro s
    exact ⟨Interpreter.acceptsKeys_of_lt (hbyte s.keyboard.await.1), s.keyboard.run?_awaitMoves⟩

/-- A key that is released before its press is announced leaves the waiter asleep, and a waiter that
wakes up of itself finds a key before its press is announced. -/
theorem no_wakeup_lost_unannounced :
    let k := Key.ofByte 7
    let vain : List Move := [.await, .test, .press 0 k, .release 1 k, .announce 0, .test]
    let early : List Move := [.await, .test, .press 0 k, .stir]
    let s : Interpreter Frame KeyScript Mute StdGen :=
      .ofOptions {} {} { answers := [(7, 0)] } {} ⟨1, 1⟩
    (run? {} vain = some { waiter := .asleep } ∧ Keys.released.isHeld k = false) ∧
      ∃ h t, run? {} early = some h ∧ h.step? .test = some t ∧ h.waiter ≠ .returned k ∧
        t.waiter = .returned k ∧ h.keys.isHeld k ∧ s.AcceptsKeys := by
  intro k vain early s
  have hvain : run? {} vain = some { waiter := .asleep } := by decide
  have hsleep := no_wakeup_lost (D := Frame) (K := KeyScript) (S := Mute) (G := StdGen) hvain
  have hearly : run? {} early =
      some { keys := Keys.released.press k, announcing := [0], waiter := .testing } := by decide
  have hwake := no_wakeup_lost (D := Frame) (K := KeyScript) (S := Mute) (G := StdGen) hearly
  obtain ⟨-, hheld, -, -, haccepts⟩ := hwake.2.1 .test _ k rfl rfl nofun
  exact ⟨⟨hvain, hsleep.1 rfl rfl k⟩, _, _, hearly, rfl, nofun, rfl, hheld, haccepts s rfl⟩

end Handshake

end ChipEight
