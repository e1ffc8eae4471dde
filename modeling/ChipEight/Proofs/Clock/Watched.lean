import ChipEight.Proofs.Clock.Exact

/-!
# Watched clocks

A watched clock is a clock together with a record of what is done with it: how often it is read, the
sleeps that are asked of it, and the turns of busy waits.  The record changes nothing about the
time, so a wait takes the same course with it and without it.
-/

namespace ChipEight.Clock

structure Watched (C : Type) where
  clock : C
  reads : Nat := 0
  /-- The durations that were asked of sleeps, the first one first. -/
  sleeps : List Nat := []
  spins : Nat := 0

namespace Watched

variable {C : Type} [Clock C] {time : C → Nat} {step : Nat} {w x : Watched C}

instance : Clock (Watched C) where
  read w := ((read w.clock).1, { w with clock := (read w.clock).2, reads := w.reads + 1 })
  sleep w duration :=
    { w with clock := sleep w.clock duration, sleeps := w.sleeps ++ [duration] }
  spin w := { w with clock := spin w.clock, spins := w.spins + 1 }
  elapse w duration := { w with clock := elapse w.clock duration }

theorem later_clock (h : Later w x) : Later w.clock x.clock := by
  induction h with
  | refl => exact .refl
  | read _ ih => exact ih.read
  | sleep duration _ ih => exact ih.sleep duration
  | spin _ ih => exact ih.spin
  | elapse duration _ ih => exact ih.elapse duration

theorem isRegular (h : Regular time step w.clock) : Regular (fun x ↦ time x.clock) step w where
  read_fst hx := h.read_fst (later_clock hx)
  time_read hx := h.time_read (later_clock hx)
  time_spin hx := h.time_spin (later_clock hx)
  time_elapse duration hx := h.time_elapse duration (later_clock hx)

/-! ## Waits -/

theorem readied_eq (slack deadline : Nat) (w : Watched C) :
    readied slack deadline w =
      { w with
        clock := readied slack deadline w.clock
        reads := w.reads + 1
        sleeps := w.sleeps ++
          if (read w.clock).1 + slack < deadline then [deadline - (read w.clock).1 - slack]
          else [] } := by
  have hread : (read w).1 = (read w.clock).1 := rfl
  unfold readied
  rw [hread]
  by_cases hsleeps : (read w.clock).1 + slack < deadline
  · simp only [if_pos hsleeps]
    rfl
  · simp only [if_neg hsleeps, List.append_nil]
    rfl

theorem spun_eq (turns : Nat) (w : Watched C) :
    spun turns w =
      { w with
        clock := spun turns w.clock
        reads := w.reads + turns + 1
        spins := w.spins + turns } := by
  induction turns generalizing w with
  | zero => rfl
  | succ turns ih =>
    have hreads : w.reads + 1 + turns + 1 = w.reads + (turns + 1) + 1 := by omega
    have hspins : w.spins + 1 + turns = w.spins + (turns + 1) := by omega
    rw [spun, ih, spun, ← hreads, ← hspins]
    rfl

theorem spinUntil_clock (deadline limit : Nat) (w : Watched C) :
    spinUntil deadline limit w.clock =
      (spinUntil deadline limit w).map fun result ↦ (result.1, result.2.clock) := by
  induction limit generalizing w with
  | zero => rfl
  | succ limit ih =>
    have hread : (read w).1 = (read w.clock).1 := rfl
    rw [spinUntil, spinUntil]
    dsimp only
    rw [hread]
    by_cases hearly : (read w.clock).1 < deadline
    · rw [if_pos hearly, if_pos hearly]
      exact ih (spin (read w).2)
    · rw [if_neg hearly, if_neg hearly]
      rfl

theorem waitUntil_clock (limit slack deadline : Nat) (w : Watched C) :
    waitUntil limit slack deadline w.clock =
      (waitUntil limit slack deadline w).map fun result ↦ (result.1, result.2.clock) := by
  have hready : (readied slack deadline w).clock = readied slack deadline w.clock := by
    rw [readied_eq]
  rw [waitUntil_eq, waitUntil_eq, ← hready, spinUntil_clock]

end Watched

end ChipEight.Clock
