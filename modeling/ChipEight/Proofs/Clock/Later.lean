import ChipEight.Clock

/-!
# Time on a clock

A clock is later than another if it has come from it by being read, by waiting and by letting time
pass.  It is steady if its readings never decrease from then on, whatever is done with it.  A wait
that ends has read a time at or after its deadline.
-/

namespace ChipEight.Clock

variable {C : Type} [Clock C]

inductive Later (c : C) : C → Prop where
  | refl : Later c c
  | read {d : C} : Later c d → Later c (Clock.read d).2
  | sleep {d : C} (duration : Nat) : Later c d → Later c (Clock.sleep d duration)
  | spin {d : C} : Later c d → Later c (Clock.spin d)
  | elapse {d : C} (duration : Nat) : Later c d → Later c (Clock.elapse d duration)

theorem Later.trans {c d e : C} (hcd : Later c d) (hde : Later d e) : Later c e := by
  induction hde with
  | refl => exact hcd
  | read _ ih => exact ih.read
  | sleep duration _ ih => exact ih.sleep duration
  | spin _ ih => exact ih.spin
  | elapse duration _ ih => exact ih.elapse duration

/-- The readings of the clock never decrease. -/
def Steady (c : C) : Prop :=
  ∀ d e : C, Later c d → Later (read d).2 e → (read d).1 ≤ (read e).1

theorem Steady.later {c d : C} (h : Steady c) (hcd : Later c d) : Steady d := by
  intro e f he hf
  exact h e f (hcd.trans he) hf

/-! ## Waits -/

/-- Every wait on the clock comes to an end, whatever is done with the clock before. -/
def Ends (c : C) : Prop :=
  ∀ d : C, Later c d → ∀ slack deadline, ∃ limit result,
    waitUntil limit slack deadline d = some result

theorem Ends.later {c d : C} (h : Ends c) (hcd : Later c d) : Ends d := by
  intro e he
  exact h e (hcd.trans he)

/-- The clock on which a wait spins: after one reading, and after a sleep if there is time. -/
def readied (slack deadline : Nat) (c : C) : C :=
  if (read c).1 + slack < deadline then sleep (read c).2 (deadline - (read c).1 - slack)
  else (read c).2

theorem waitUntil_eq (limit slack deadline : Nat) (c : C) :
    waitUntil limit slack deadline c = spinUntil deadline limit (readied slack deadline c) := by
  unfold waitUntil readied sleepTime?
  dsimp only
  by_cases hearly : (read c).1 + slack < deadline
  · rw [if_pos hearly, if_pos hearly]
  · rw [if_neg hearly, if_neg hearly]

theorem readied_later (slack deadline : Nat) (c : C) : Later c (readied slack deadline c) := by
  unfold readied
  split
  · exact Later.refl.read.sleep _
  · exact Later.refl.read

/-- The reading that ended a busy wait has reached the deadline, and the clock is as the reading
has left it. -/
theorem spinUntil_eq_some {deadline limit time : Nat} {c d : C}
    (h : spinUntil deadline limit c = some (time, d)) :
    deadline ≤ time ∧ ∃ e, Later c e ∧ read e = (time, d) := by
  induction limit generalizing c with
  | zero => contradiction
  | succ limit ih =>
    rw [spinUntil] at h
    dsimp only at h
    by_cases hearly : (read c).1 < deadline
    · rw [if_pos hearly] at h
      obtain ⟨hreached, e, hlater, hread⟩ := ih h
      exact ⟨hreached, e, Later.refl.read.spin.trans hlater, hread⟩
    · rw [if_neg hearly] at h
      cases h
      exact ⟨Nat.le_of_not_lt hearly, c, .refl, rfl⟩

theorem waitUntil_eq_some {limit slack deadline time : Nat} {c d : C}
    (h : waitUntil limit slack deadline c = some (time, d)) : deadline ≤ time ∧ Later c d := by
  rw [waitUntil_eq] at h
  obtain ⟨hreached, e, hlater, hread⟩ := spinUntil_eq_some h
  have hd : d = (read e).2 := by rw [hread]
  exact ⟨hreached, hd ▸ ((readied_later slack deadline c).trans hlater).read⟩

end ChipEight.Clock
