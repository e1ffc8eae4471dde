import ChipEight.Clock
import ChipEight.Proofs.Clock.Exact

/-!
# Laws of simulated clocks

The time of a simulated clock never goes back, however its readings, turns and sleeps come out.  If
readings take no time the clock is regular, and if sleeps come out right it is exact.
-/

namespace ChipEight.SimulatedClock

open Clock

variable {c d : SimulatedClock}

theorem time_le_of_later (h : Later c d) : c.time ≤ d.time := by
  induction h with
  | refl => exact Nat.le_refl _
  | read _ ih => exact Nat.le_trans ih (Nat.le_add_right _ _)
  | sleep duration _ ih => exact Nat.le_trans ih (Nat.le_add_right _ _)
  | spin _ ih => exact Nat.le_trans ih (Nat.le_add_right _ _)
  | elapse duration _ ih => exact Nat.le_trans ih (Nat.le_add_right _ _)

theorem isSteady (c : SimulatedClock) : Steady c := by
  intro d e _ hlater
  calc
    d.time ≤ (read d).2.time := Nat.le_add_right _ _
    _ ≤ e.time := time_le_of_later hlater

/-- What is done with a clock does not change how long anything takes on it. -/
theorem costs_eq_of_later (h : Later c d) :
    d.readCost = c.readCost ∧ d.spinStep = c.spinStep ∧ d.oversleep = c.oversleep := by
  induction h with
  | refl => exact ⟨rfl, rfl, rfl⟩
  | read _ ih => exact ih
  | sleep duration _ ih => exact ih
  | spin _ ih => exact ih
  | elapse duration _ ih => exact ih

theorem isRegular (hread : c.readCost = 0) : Regular time c.spinStep c where
  read_fst _ := rfl
  time_read {d} h := by
    change d.time + d.readCost = d.time
    rw [(costs_eq_of_later h).1, hread, Nat.add_zero]
  time_spin {d} h := by
    change d.time + d.spinStep = d.time + c.spinStep
    rw [(costs_eq_of_later h).2.1]
  time_elapse _ _ := rfl

theorem isExact (hread : c.readCost = 0) (hspin : c.spinStep = 1) (hsleep : c.oversleep = 0) :
    Exact time c where
  toRegular := hspin ▸ isRegular hread
  time_sleep {d} duration h := by
    change d.time + (duration + d.oversleep).toNat = d.time + duration
    rw [(costs_eq_of_later h).2.2, hsleep, Int.add_zero, Int.toNat_natCast]

end ChipEight.SimulatedClock
