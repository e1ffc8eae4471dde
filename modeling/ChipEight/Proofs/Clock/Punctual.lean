import ChipEight.Proofs.Clock.Simulated
import ChipEight.Proofs.Clock.Watched
import Mathlib.Algebra.Order.Floor.Div
import Mathlib.Algebra.Order.Ring.Nat

/-!
# Punctual waits

On a regular clock a busy wait takes as many turns as fit, rounded up, between its beginning and the
deadline; so it comes to an end, and less than a turn after the deadline.  A wait that sleeps first
is as punctual unless the sleep itself misses the deadline, by being too long by more than the slack
that was left for spinning.
-/

namespace ChipEight.Clock

variable {C : Type} [Clock C] {time : C → Nat} {step : Nat} {c : C}

/-! ## Turns of a busy wait -/

/-- How many turns a busy wait takes from a time to the deadline. -/
def turnsUntil (deadline step start : Nat) : Nat := (deadline - start) ⌈/⌉ step

theorem turnsUntil_of_le {deadline start : Nat} (step : Nat) (h : deadline ≤ start) :
    turnsUntil deadline step start = 0 := by
  rw [turnsUntil, Nat.sub_eq_zero_of_le h, zero_ceilDiv]

theorem before_of_lt_turnsUntil {deadline start turn : Nat} (hstep : 0 < step)
    (h : turn < turnsUntil deadline step start) : start + turn * step < deadline := by
  have hmore : step * turn < deadline - start :=
    Nat.lt_of_not_le fun hle ↦ Nat.not_le_of_lt h ((ceilDiv_le_iff_le_mul hstep).mpr hle)
  rw [Nat.mul_comm turn]
  omega

theorem le_add_turnsUntil_mul (hstep : 0 < step) (deadline start : Nat) :
    deadline ≤ start + turnsUntil deadline step start * step := by
  have hreached : deadline - start ≤ step * turnsUntil deadline step start :=
    (ceilDiv_le_iff_le_mul hstep).mp (Nat.le_refl _)
  rw [Nat.mul_comm]
  omega

/-- The turn that reaches the deadline has begun before it. -/
theorem add_turnsUntil_mul_lt {deadline start : Nat} (hstep : 0 < step) (h : start ≤ deadline) :
    start + turnsUntil deadline step start * step < deadline + step := by
  cases hturns : turnsUntil deadline step start with
  | zero =>
    rw [Nat.zero_mul]
    omega
  | succ turns =>
    have hbefore : start + turns * step < deadline := by
      apply before_of_lt_turnsUntil hstep
      rw [hturns]
      exact Nat.lt_succ_self turns
    rw [Nat.succ_mul]
    omega

/-! ## Waits on regular clocks -/

theorem Regular.waitUntil_eq {limit slack deadline start : Nat} (h : Regular time step c)
    (hstep : 0 < step) (hstart : time (readied slack deadline c) = start)
    (hlimit : turnsUntil deadline step start < limit) :
    waitUntil limit slack deadline c =
      some (start + turnsUntil deadline step start * step,
        spun (turnsUntil deadline step start) (readied slack deadline c)) := by
  subst hstart
  rw [Clock.waitUntil_eq]
  apply (h.later (readied_later slack deadline c)).spinUntil_eq
  · intro turn hturn
    exact before_of_lt_turnsUntil hstep hturn
  · exact le_add_turnsUntil_mul hstep _ _
  · exact hlimit

/-- Where a wait begins to spin: after its sleep, if there is time for one. -/
theorem Regular.time_readied {slack deadline slept : Nat} (h : Regular time step c)
    (hsleep : time c + slack < deadline →
      time (sleep (read c).2 (deadline - time c - slack)) = time c + slept) :
    time (readied slack deadline c) =
      if time c + slack < deadline then time c + slept else time c := by
  unfold readied
  rw [h.read_fst .refl]
  by_cases hsleeps : time c + slack < deadline
  · rw [if_pos hsleeps, if_pos hsleeps, hsleep hsleeps]
  · rw [if_neg hsleeps, if_neg hsleeps, h.time_read .refl]

/-- The record of a wait: it sleeps if there is time, and then spins. -/
theorem Regular.waitUntil_watched {limit slack deadline start : Nat} (h : Regular time step c)
    (hstep : 0 < step) (hstart : time (readied slack deadline c) = start)
    (hlimit : turnsUntil deadline step start < limit) :
    waitUntil limit slack deadline ({ clock := c } : Watched C) =
      some (start + turnsUntil deadline step start * step, {
        clock := spun (turnsUntil deadline step start) (readied slack deadline c)
        reads := turnsUntil deadline step start + 2
        sleeps := if time c + slack < deadline then [deadline - time c - slack] else []
        spins := turnsUntil deadline step start }) := by
  let w : Watched C := { clock := c }
  have hwatched : Regular (fun x : Watched C ↦ time x.clock) step w := Watched.isRegular h
  have hready : time (readied slack deadline w).clock = start := by
    rw [Watched.readied_eq]
    exact hstart
  have hreads : 0 + 1 + turnsUntil deadline step start + 1 =
      turnsUntil deadline step start + 2 := by omega
  rw [hwatched.waitUntil_eq hstep hready hlimit, Watched.spun_eq, Watched.readied_eq,
    h.read_fst .refl, ← hreads]
  simp only [w, Nat.zero_add, List.nil_append]

/-- A wait ends whatever time its sleep takes.  It does nothing at or after the deadline, sleeps at
most once, and is late by less than a turn unless the sleep is too long by more than the slack; then
it ends with the sleep. -/
theorem Regular.wait_punctual {slack deadline slept : Nat} (h : Regular time step c)
    (hstep : 0 < step) (hsleep : time c + slack < deadline →
      time (sleep (read c).2 (deadline - time c - slack)) = time c + slept) :
    let now := time c
    let duration := deadline - now - slack
    let start := if now + slack < deadline then now + slept else now
    let turns := (deadline - start) ⌈/⌉ step
    let finish := start + turns * step
    ∃ w : Watched C,
      (∀ limit, turns < limit →
        waitUntil limit slack deadline ({ clock := c } : Watched C) = some (finish, w) ∧
        waitUntil limit slack deadline c = some (finish, w.clock)) ∧
      time w.clock = finish ∧ w.spins = turns ∧
      w.sleeps = (if now + slack < deadline then [duration] else []) ∧
      (deadline ≤ now → w.sleeps = [] ∧ w.spins = 0 ∧ finish = now) ∧
      (now < deadline → (now + slack < deadline → slept ≤ duration + slack) →
        deadline ≤ finish ∧ finish < deadline + step) ∧
      (now + slack < deadline → now + duration + slack = deadline ∧
        (duration + slack < slept → finish = now + slept ∧ w.spins = 0)) := by
  intro now duration start turns finish
  have hstart : time (readied slack deadline c) = start := h.time_readied hsleep
  have hwait {limit : Nat} (hlimit : turns < limit) :=
    h.waitUntil_watched hstep hstart hlimit
  refine ⟨_, fun limit hlimit ↦ ⟨hwait hlimit, ?_⟩, ?_, rfl, rfl, ?_, ?_, ?_⟩
  · have herased := Watched.waitUntil_clock limit slack deadline ({ clock := c } : Watched C)
    rw [hwait hlimit] at herased
    exact herased
  · have hready := h.later (readied_later slack deadline c)
    calc
      _ = time (readied slack deadline c) + turns * step := hready.time_spun turns
      _ = finish := by rw [hstart]
  · intro hpassed
    have hnap : ¬ now + slack < deadline := by omega
    have hturns : turns = 0 := turnsUntil_of_le step (by simp only [start, if_neg hnap, hpassed])
    refine ⟨if_neg hnap, hturns, ?_⟩
    simp only [finish, hturns, start, if_neg hnap, Nat.zero_mul, Nat.add_zero]
  · intro hearly hslept
    have hle : start ≤ deadline := by
      by_cases hnap : now + slack < deadline
      · have hfits := hslept hnap
        simp only [start, if_pos hnap]
        omega
      · simp only [start, if_neg hnap]
        omega
    exact ⟨le_add_turnsUntil_mul hstep deadline start, add_turnsUntil_mul_lt hstep hle⟩
  · intro hnap
    refine ⟨by omega, fun hover ↦ ?_⟩
    have hturns : turns = 0 := by
      apply turnsUntil_of_le
      simp only [start, if_pos hnap]
      omega
    refine ⟨?_, hturns⟩
    simp only [finish, hturns, start, if_pos hnap, Nat.zero_mul, Nat.add_zero]

/-- Two waits of the same length: a sleep that ends early leaves more to spin, and one that is too
long by more than the slack leaves nothing. -/
theorem Regular.wait_punctual_early_and_late :
    let early : SimulatedClock := { spinStep := 10, oversleep := -3 }
    let late : SimulatedClock := { spinStep := 10, oversleep := 25 }
    (Regular SimulatedClock.time 10 early ∧ 0 < 10 ∧ (sleep (read early).2 80).time = 77 ∧
      ∃ w : Watched SimulatedClock,
        waitUntil 4 20 100 ({ clock := early } : Watched SimulatedClock) = some (107, w) ∧
        w.sleeps = [80] ∧ w.spins = 3 ∧ 100 ≤ 107 ∧ 107 < 100 + 10) ∧
    (Regular SimulatedClock.time 10 late ∧ (sleep (read late).2 80).time = 105 ∧
      ∃ w : Watched SimulatedClock,
        waitUntil 1 20 100 ({ clock := late } : Watched SimulatedClock) = some (105, w) ∧
        w.sleeps = [80] ∧ w.spins = 0 ∧ 80 + 20 < 105) := by
  intro early late
  have hearly : Regular SimulatedClock.time 10 early := SimulatedClock.isRegular (c := early) rfl
  have hlate : Regular SimulatedClock.time 10 late := SimulatedClock.isRegular (c := late) rfl
  have hshort : early.time + 20 < 100 →
      (sleep (read early).2 (100 - early.time - 20)).time = early.time + 77 := by decide
  have hlong : late.time + 20 < 100 →
      (sleep (read late).2 (100 - late.time - 20)).time = late.time + 105 := by decide
  have hstart : (if early.time + 20 < 100 then early.time + 77 else early.time) = 77 := rfl
  have hended : (if late.time + 20 < 100 then late.time + 105 else late.time) = 105 := rfl
  have hturns : (100 - 77) ⌈/⌉ 10 = 3 := rfl
  have hnone : (100 - 105) ⌈/⌉ 10 = 0 := rfl
  have hpunctual := hearly.wait_punctual (by decide) hshort
  have hover := hlate.wait_punctual (by decide) hlong
  simp only [hstart, hturns] at hpunctual
  simp only [hended, hnone] at hover
  obtain ⟨v, hv, -, hspins, hsleeps, -, hreached, -⟩ := hpunctual
  obtain ⟨w, hw, -, hspun, hslept, -, -, -⟩ := hover
  have hbounds := hreached (by decide) (by decide)
  exact ⟨⟨hearly, by decide, rfl, v, (hv 4 (by decide)).1, hsleeps, hspins, hbounds⟩,
    hlate, rfl, w, (hw 1 (by decide)).1, hslept, hspun, by decide⟩

end ChipEight.Clock
