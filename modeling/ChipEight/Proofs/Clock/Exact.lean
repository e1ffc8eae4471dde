import ChipEight.Proofs.Clock.Later

/-!
# Waits on exact clocks

A clock is regular if readings take no time and each turn of a busy wait takes the same time; where
it spins is then told by the number of turns alone.  It is exact if moreover a turn takes one
nanosecond and a sleep as long as it was asked to.  On an exact clock a wait ends at its deadline,
or at once after it, however the wait is split between sleeping and spinning.
-/

namespace ChipEight.Clock

variable {C : Type} [Clock C] {time : C → Nat} {step : Nat} {c : C}

/-- From `c` on the clock shows the time, and only what takes time moves it. -/
structure Regular (time : C → Nat) (step : Nat) (c : C) : Prop where
  read_fst {d : C} : Later c d → (read d).1 = time d
  time_read {d : C} : Later c d → time (read d).2 = time d
  time_spin {d : C} : Later c d → time (spin d) = time d + step
  time_elapse {d : C} (duration : Nat) : Later c d → time (elapse d duration) = time d + duration

structure Exact (time : C → Nat) (c : C) : Prop extends Regular time 1 c where
  time_sleep {d : C} (duration : Nat) : Later c d → time (sleep d duration) = time d + duration

theorem Regular.later {d : C} (h : Regular time step c) (hcd : Later c d) :
    Regular time step d where
  read_fst hde := h.read_fst (hcd.trans hde)
  time_read hde := h.time_read (hcd.trans hde)
  time_spin hde := h.time_spin (hcd.trans hde)
  time_elapse duration hde := h.time_elapse duration (hcd.trans hde)

theorem Exact.later {d : C} (h : Exact time c) (hcd : Later c d) : Exact time d where
  toRegular := h.toRegular.later hcd
  time_sleep duration hde := h.time_sleep duration (hcd.trans hde)

/-- Something has happened on the clock, but it took no time. -/
def Idle (time : C → Nat) (c d : C) : Prop := Later c d ∧ time d = time c

/-! ## Busy waits -/

/-- The clock after some turns of a busy wait, each after a reading, and a last reading. -/
def spun : Nat → C → C
  | 0, c => (read c).2
  | turns + 1, c => spun turns (spin (read c).2)

theorem Regular.time_turn (h : Regular time step c) : time (spin (read c).2) = time c + step := by
  rw [h.time_spin Later.refl.read, h.time_read .refl]

theorem Regular.time_spun (h : Regular time step c) (turns : Nat) :
    time (spun turns c) = time c + turns * step := by
  induction turns generalizing c with
  | zero => rw [spun, h.time_read .refl, Nat.zero_mul, Nat.add_zero]
  | succ turns ih =>
    calc
      _ = time (spin (read c).2) + turns * step := ih (h.later Later.refl.read.spin)
      _ = time c + (turns + 1) * step := by
        rw [h.time_turn, Nat.succ_mul, Nat.add_assoc, Nat.add_comm step]

/-- A busy wait takes as many turns as are needed to reach the deadline. -/
theorem Regular.spinUntil_eq {deadline limit turns : Nat} (h : Regular time step c)
    (hbefore : ∀ turn < turns, time c + turn * step < deadline)
    (hreached : deadline ≤ time c + turns * step) (hlimit : turns < limit) :
    spinUntil deadline limit c = some (time c + turns * step, spun turns c) := by
  induction turns generalizing c limit with
  | zero =>
    obtain ⟨limit, rfl⟩ := Nat.exists_eq_add_one.mpr hlimit
    rw [Nat.zero_mul, Nat.add_zero] at hreached
    rw [spinUntil]
    dsimp only
    rw [h.read_fst .refl, if_neg (Nat.not_lt.mpr hreached), spun, Nat.zero_mul, Nat.add_zero]
  | succ turns ih =>
    obtain ⟨limit, rfl⟩ := Nat.exists_eq_add_one.mpr (Nat.zero_lt_of_lt hlimit)
    have hearly : time c < deadline := by simpa using hbefore 0 (Nat.succ_pos turns)
    have hmoved (turn : Nat) :
        time (spin (read c).2) + turn * step = time c + (turn + 1) * step := by
      rw [h.time_turn, Nat.succ_mul, Nat.add_assoc, Nat.add_comm step]
    have hrest : spinUntil deadline limit (spin (read c).2) =
        some (time (spin (read c).2) + turns * step, spun turns (spin (read c).2)) := by
      apply ih (h.later Later.refl.read.spin)
      · intro turn hturn
        rw [hmoved]
        exact hbefore (turn + 1) (Nat.succ_lt_succ hturn)
      · rwa [hmoved]
      · exact Nat.lt_of_succ_lt_succ hlimit
    rw [spinUntil]
    dsimp only
    rw [h.read_fst .refl, if_pos hearly, hrest, hmoved, spun]

/-- A result does not depend on the limit that it was found within. -/
theorem spinUntil_limit_mono {deadline limit larger : Nat} {result : Nat × C}
    (h : spinUntil deadline limit c = some result) (hle : limit ≤ larger) :
    spinUntil deadline larger c = some result := by
  induction limit generalizing c larger with
  | zero => contradiction
  | succ limit ih =>
    obtain ⟨larger, rfl⟩ := Nat.exists_eq_add_one.mpr (Nat.zero_lt_of_lt hle)
    rw [spinUntil] at h ⊢
    dsimp only at h ⊢
    by_cases hearly : (read c).1 < deadline
    · rw [if_pos hearly] at h ⊢
      exact ih h (Nat.le_of_succ_le_succ hle)
    · rw [if_neg hearly] at h ⊢
      exact h

/-! ## Waits on exact clocks -/

theorem Exact.time_readied (h : Exact time c) (slack deadline : Nat) :
    time (readied slack deadline c) = max (time c) (deadline - slack) := by
  unfold readied
  rw [h.read_fst .refl]
  by_cases hsleeps : time c + slack < deadline
  · rw [if_pos hsleeps, h.time_sleep _ Later.refl.read, h.time_read .refl]
    omega
  · rw [if_neg hsleeps, h.time_read .refl]
    omega

/-- A wait ends, at its deadline unless that had passed before it began. -/
theorem Exact.exists_waitUntil_eq {limit slack : Nat} (h : Exact time c) (hlimit : slack < limit)
    (deadline : Nat) :
    ∃ d, waitUntil limit slack deadline c = some (max (time c) deadline, d) ∧
      time d = max (time c) deadline := by
  let ready := readied slack deadline c
  let turns := deadline - time ready
  have hready : Exact time ready := h.later (readied_later slack deadline c)
  have htime : time ready = max (time c) (deadline - slack) := h.time_readied slack deadline
  have hturns : turns = deadline - time ready := rfl
  have hend : time ready + turns * 1 = max (time c) deadline := by omega
  have hspin : spinUntil deadline limit ready =
      some (time ready + turns * 1, spun turns ready) := by
    apply hready.spinUntil_eq
    · intro turn hturn
      omega
    · omega
    · omega
  refine ⟨spun turns ready, ?_, ?_⟩
  · rw [waitUntil_eq, ← hend]
    exact hspin
  · rw [hready.time_spun, hend]

theorem Exact.ends (h : Exact time c) : Ends c := by
  intro d hd slack deadline
  obtain ⟨e, he, -⟩ := (h.later hd).exists_waitUntil_eq (Nat.lt_succ_self slack) deadline
  exact ⟨slack + 1, _, he⟩

theorem Exact.waitUntil_eq_some {limit slack deadline finish : Nat} {d : C} (h : Exact time c)
    (hwait : waitUntil limit slack deadline c = some (finish, d)) :
    finish = max (time c) deadline ∧ time d = max (time c) deadline := by
  have hlimit : slack < max limit (slack + 1) := Nat.le_max_right _ _
  obtain ⟨e, heq, htime⟩ := h.exists_waitUntil_eq hlimit deadline
  have hlarger : waitUntil (max limit (slack + 1)) slack deadline c = some (finish, d) := by
    rw [waitUntil_eq] at hwait ⊢
    exact spinUntil_limit_mono hwait (Nat.le_max_left _ _)
  rw [heq] at hlarger
  cases hlarger
  exact ⟨rfl, htime⟩

end ChipEight.Clock
