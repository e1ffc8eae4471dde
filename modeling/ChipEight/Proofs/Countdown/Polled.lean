import ChipEight.Timing
import Mathlib.Algebra.Order.Group.Nat
import Mathlib.Data.Finset.Lattice.Fold
import Mathlib.Data.Finset.Range
import Mathlib.Order.Lattice.Nat

/-!
# Countdown timers under any polling

A timer that is polled late puts off the steps that were due, and makes up for them by one step with
each later poll.  So it never runs ahead of the time, and what is left on it is determined by how
many steps were due at each of its polls.

A timer is punctual at a time if it has taken every step that was due by then.  It is so when it is
set, and stays so as long as the polls are at most one period apart, since a poll takes one step.
-/

namespace ChipEight.Countdown

/-- Since it was set to `count` at `start`, the timer has taken so many steps, or has run out. -/
structure Taken (count : UInt8) (start steps : Nat) (t : Countdown) : Prop where
  count_eq : t.count.toNat = count.toNat - steps
  due_eq : 0 < t.count → t.due = start + (steps + 1) * t.period

variable {t : Countdown} {count : UInt8} {start steps period : Nat}

theorem taken_set (t : Countdown) (count : UInt8) (start : Nat) :
    Taken count start 0 (t.set count start) where
  count_eq := rfl
  due_eq _ := by rw [Nat.zero_add, Nat.one_mul, set]

/-- A poll takes the next step if it is due, also in the count of a timer that has run out. -/
theorem Taken.poll (h : Taken count start steps t) (now : Nat) :
    Taken count start (if start + (steps + 1) * t.period ≤ now then steps + 1 else steps)
      (t.poll now) := by
  have hcount := h.count_eq
  by_cases hrunning : 0 < t.count
  · have hdue := h.due_eq hrunning
    rw [← hdue]
    by_cases hstep : t.due ≤ now
    · have hone : (t.count - 1).toNat = t.count.toNat - 1 := by
        apply UInt8.toNat_sub_of_le
        exact hrunning
      rw [if_pos hstep, Countdown.poll, if_pos ⟨hrunning, hstep⟩]
      refine ⟨?_, fun _ ↦ ?_⟩
      · rw [hone, hcount, Nat.sub_sub]
      · dsimp only
        rw [hdue, Nat.succ_mul (steps + 1), Nat.add_assoc]
    · rw [if_neg hstep, Countdown.poll, if_neg fun hboth ↦ hstep hboth.2]
      exact h
  · have hzero : t.count.toNat = 0 := Nat.eq_zero_of_not_pos hrunning
    have hsame : t.poll now = t := if_neg fun hboth ↦ hrunning hboth.1
    rw [hsame]
    refine ⟨?_, fun hpos ↦ absurd hpos hrunning⟩
    split <;> omega

/-- A step is due when so many periods have passed. -/
theorem due_le_iff (hpos : 0 < period) (start steps now : Nat) :
    start + (steps + 1) * period ≤ now ↔ steps < (now - start) / period := by
  have hsome : 0 < (steps + 1) * period := Nat.mul_pos (Nat.succ_pos _) hpos
  rw [Nat.lt_iff_add_one_le, Nat.le_div_iff_mul_le hpos]
  omega

/-- No more than one step falls due within a period. -/
theorem steps_le_of_gap_le {now later : Nat} (hpos : 0 < period) (hgap : later ≤ now + period) :
    (later - start) / period ≤ (now - start) / period + 1 := by
  calc
    _ ≤ (now - start + period) / period := Nat.div_le_div_right (by omega)
    _ = _ := Nat.add_div_right _ hpos

/-- The timer after polls at the given times. -/
def pollAll (t : Countdown) (times : List Nat) : Countdown := times.foldl poll t

theorem period_pollAll (t : Countdown) (times : List Nat) :
    (t.pollAll times).period = t.period := by
  induction times generalizing t with
  | nil => rfl
  | cons now rest ih => exact (ih (t.poll now)).trans (t.period_poll now)

/-- Setting a timer makes its polls forgotten. -/
theorem set_pollAll (t : Countdown) (times : List Nat) (count : UInt8) (now : Nat) :
    (t.pollAll times).set count now = t.set count now := by
  rw [set, set, period_pollAll]

/-! ## Polls in time -/

/-- By `now` the timer, which was set to `count` at `start`, has taken the steps that were due. -/
structure Punctual (count : UInt8) (start now : Nat) (t : Countdown) : Prop where
  start_le : start ≤ now
  count_eq : t.count.toNat = count.toNat - (now - start) / t.period
  due_eq : 0 < t.count → t.due = start + ((now - start) / t.period + 1) * t.period

theorem punctual_set (t : Countdown) (count : UInt8) (now : Nat) :
    Punctual count now now (t.set count now) where
  start_le := Nat.le_refl now
  count_eq := by rw [Nat.sub_self, Nat.zero_div, Nat.sub_zero, set]
  due_eq _ := by rw [Nat.sub_self, Nat.zero_div, Nat.zero_add, Nat.one_mul, set]

/-- A poll within a period of the last one catches up with the time. -/
theorem Punctual.poll {now later : Nat} (h : Punctual count start now t) (hpos : 0 < t.period)
    (hle : now ≤ later) (hgap : later ≤ now + t.period) :
    Punctual count start later (t.poll later) := by
  have htaken : Taken count start ((now - start) / t.period) t := ⟨h.count_eq, h.due_eq⟩
  have hfewer : (now - start) / t.period ≤ (later - start) / t.period :=
    Nat.div_le_div_right (by omega)
  have hmore : (later - start) / t.period ≤ (now - start) / t.period + 1 :=
    steps_le_of_gap_le hpos hgap
  have hsteps : (if start + ((now - start) / t.period + 1) * t.period ≤ later then
      (now - start) / t.period + 1 else (now - start) / t.period) =
        (later - start) / t.period := by
    rw [if_congr (due_le_iff hpos _ _ _) rfl rfl]
    split <;> omega
  have hpoll := htaken.poll later
  rw [hsteps, ← t.period_poll later] at hpoll
  exact ⟨Nat.le_trans h.start_le hle, hpoll.count_eq, hpoll.due_eq⟩

/-! ## The steps of a timer that does not run out -/

/-- When a timer is set and then polled: `times 0` is when it is set, the others are its polls.
So many steps are due by the `i`-th of them. -/
def dueBy (period : Nat) (times : Nat → Nat) (i : Nat) : Nat := (times i - times 0) / period

/-- So many steps were taken by the `i`-th of the times, one of them by each poll at most. -/
def takenBy (period : Nat) (times : Nat → Nat) : Nat → Nat
  | 0 => 0
  | i + 1 =>
    if takenBy period times i < dueBy period times (i + 1) then takenBy period times i + 1
    else takenBy period times i

/-- The polls up to the `n`-th. -/
def pollTimes (times : Nat → Nat) (n : Nat) : List Nat := (List.range n).map fun i ↦ times (i + 1)

theorem pollAll_pollTimes_succ (t : Countdown) (times : Nat → Nat) (n : Nat) :
    t.pollAll (pollTimes times (n + 1)) = (t.pollAll (pollTimes times n)).poll (times (n + 1)) := by
  rw [pollTimes, List.range_succ, List.map_append, pollAll, List.foldl_append]
  rfl

theorem taken_pollAll (t : Countdown) (hpos : 0 < t.period) (count : UInt8) (times : Nat → Nat)
    (n : Nat) :
    Taken count (times 0) (takenBy t.period times n)
      ((t.set count (times 0)).pollAll (pollTimes times n)) := by
  induction n with
  | zero => exact taken_set t count (times 0)
  | succ n ih =>
    have hperiod : ((t.set count (times 0)).pollAll (pollTimes times n)).period = t.period :=
      period_pollAll _ _
    have hpoll := ih.poll (times (n + 1))
    rw [hperiod, if_congr (due_le_iff hpos _ _ _) rfl rfl] at hpoll
    rw [pollAll_pollTimes_succ]
    exact hpoll

variable {times : Nat → Nat} {n : Nat}

theorem start_le (hmono : ∀ i < n, times i ≤ times (i + 1)) : times 0 ≤ times n := by
  induction n with
  | zero => exact Nat.le_refl _
  | succ n ih =>
    have hearlier : times 0 ≤ times n := ih fun i hi ↦ hmono i (Nat.lt_succ_of_lt hi)
    exact Nat.le_trans hearlier (hmono n (Nat.lt_succ_self n))

theorem dueBy_le_succ (hmono : ∀ i < n, times i ≤ times (i + 1)) {i : Nat} (hi : i < n) :
    dueBy period times i ≤ dueBy period times (i + 1) :=
  Nat.div_le_div_right (Nat.sub_le_sub_right (hmono i hi) _)

theorem takenBy_le_dueBy (hmono : ∀ i < n, times i ≤ times (i + 1)) :
    takenBy period times n ≤ dueBy period times n := by
  induction n with
  | zero => exact Nat.zero_le _
  | succ n ih =>
    have hearlier : takenBy period times n ≤ dueBy period times n :=
      ih fun i hi ↦ hmono i (Nat.lt_succ_of_lt hi)
    have hdue : dueBy period times n ≤ dueBy period times (n + 1) :=
      dueBy_le_succ hmono (Nat.lt_succ_self n)
    rw [takenBy]
    split <;> omega

/-- What is taken by the last poll was due by an earlier one, or is taken by the polls since. -/
theorem takenBy_le (hmono : ∀ i < n, times i ≤ times (i + 1)) {i : Nat} (hi : i ≤ n) :
    takenBy period times n ≤ dueBy period times i + (n - i) := by
  induction n with
  | zero => exact Nat.zero_le _
  | succ n ih =>
    rcases Nat.lt_or_eq_of_le hi with hlt | rfl
    · have hearlier : takenBy period times n ≤ dueBy period times i + (n - i) :=
        ih (fun k hk ↦ hmono k (Nat.lt_succ_of_lt hk)) (Nat.le_of_lt_succ hlt)
      rw [takenBy]
      split <;> omega
    · rw [Nat.sub_self]
      exact takenBy_le_dueBy hmono

/-- By some poll all steps were taken that were due, and every poll since has taken one. -/
theorem exists_takenBy_eq (hmono : ∀ i < n, times i ≤ times (i + 1)) :
    ∃ i ≤ n, takenBy period times n = dueBy period times i + (n - i) := by
  induction n with
  | zero =>
    refine ⟨0, Nat.le_refl 0, ?_⟩
    rw [dueBy, Nat.sub_self, Nat.zero_div, takenBy]
  | succ n ih =>
    by_cases hbehind : takenBy period times n < dueBy period times (n + 1)
    · obtain ⟨i, hi, heq⟩ := ih fun k hk ↦ hmono k (Nat.lt_succ_of_lt hk)
      refine ⟨i, Nat.le_succ_of_le hi, ?_⟩
      rw [takenBy, if_pos hbehind, heq, Nat.succ_sub hi, Nat.add_assoc]
    · have hle : takenBy period times (n + 1) ≤ dueBy period times (n + 1) :=
        takenBy_le_dueBy hmono
      refine ⟨n + 1, Nat.le_refl _, ?_⟩
      rw [takenBy, if_neg hbehind] at hle ⊢
      omega

theorem takenBy_eq_inf (hmono : ∀ i < n, times i ≤ times (i + 1)) :
    takenBy period times n = (Finset.range (n + 1)).inf' Finset.nonempty_range_add_one
      fun i ↦ dueBy period times i + (n - i) := by
  apply le_antisymm
  · apply Finset.le_inf'
    intro i hi
    exact takenBy_le hmono (Nat.le_of_lt_succ (Finset.mem_range.mp hi))
  · obtain ⟨i, hi, heq⟩ : ∃ i ≤ n, takenBy period times n = dueBy period times i + (n - i) :=
      exists_takenBy_eq hmono
    rw [heq]
    exact Finset.inf'_le (fun i ↦ dueBy period times i + (n - i))
      (Finset.mem_range.mpr (Nat.lt_succ_of_le hi))

/-- Polls that are no further apart than a period take every step in time. -/
theorem takenBy_eq_dueBy (hpos : 0 < period) (hmono : ∀ i < n, times i ≤ times (i + 1))
    (hgap : ∀ i < n, times (i + 1) ≤ times i + period) :
    takenBy period times n = dueBy period times n := by
  induction n with
  | zero => rw [dueBy, Nat.sub_self, Nat.zero_div, takenBy]
  | succ n ih =>
    have hbefore : takenBy period times n = dueBy period times n :=
      ih (fun i hi ↦ hmono i (Nat.lt_succ_of_lt hi)) fun i hi ↦ hgap i (Nat.lt_succ_of_lt hi)
    have hle : dueBy period times n ≤ dueBy period times (n + 1) :=
      dueBy_le_succ hmono (Nat.lt_succ_self n)
    have hnext : dueBy period times (n + 1) ≤ dueBy period times n + 1 :=
      steps_le_of_gap_le hpos (hgap n (Nat.lt_succ_self n))
    rw [takenBy, hbefore]
    split <;> omega

/-! ## The count -/

/-- What is left on a timer that was set at `times 0` and polled at the times after it.  However
late the polls are, it is not ahead of the time, and a poll takes one step exactly if it is
behind. -/
theorem count_pollAll (t : Countdown) (hpos : 0 < t.period) (count : UInt8) {times : Nat → Nat}
    {n : Nat} (hmono : ∀ i < n, times i ≤ times (i + 1)) :
    let due (i : Nat) : Nat := (times i - times 0) / t.period
    let left (i : Nat) : Nat :=
      ((t.set count (times 0)).pollAll ((List.range i).map fun k ↦ times (k + 1))).count.toNat
    let full : Nat := count.toNat
    left n = full - min full ((Finset.range (n + 1)).inf' Finset.nonempty_range_add_one
        fun i ↦ due i + (n - i)) ∧
      ((∀ i < n, times (i + 1) ≤ times i + t.period) → left n = full - min full (due n)) ∧
      (∀ i ≤ n, full - min full (due i) ≤ left i) ∧
      ∀ i < n, left (i + 1) =
        if full - min full (due (i + 1)) < left i then left i - 1 else left i := by
  intro due left full
  have hleft (i : Nat) : left i = full - takenBy t.period times i :=
    (taken_pollAll t hpos count times i).count_eq
  have hcap (steps : Nat) : full - steps = full - min full steps := by omega
  refine ⟨?_, fun hgap ↦ ?_, fun i hi ↦ ?_, fun i hi ↦ ?_⟩
  · rw [hleft, takenBy_eq_inf hmono]
    exact hcap _
  · rw [hleft, takenBy_eq_dueBy hpos hmono hgap]
    exact hcap _
  · have hbehind : takenBy t.period times i ≤ due i :=
      takenBy_le_dueBy fun k hk ↦ hmono k (Nat.lt_of_lt_of_le hk hi)
    rw [hleft]
    omega
  · rw [hleft, hleft, takenBy]
    change _ = if full - min full (dueBy t.period times (i + 1)) < _ then _ else _
    split <;> split <;> omega

/-- Of three steps that are due, two late polls take two.  Polls that are early or late by less than
a period take those that are due. -/
theorem count_pollAll_late_or_jittered :
    let t : Countdown := { period := 10 }
    let late (i : Nat) : Nat := if i = 0 then 5 else 37
    let jittered (i : Nat) : Nat := 5 + 9 * i
    0 < t.period ∧ (∀ i < 2, late i ≤ late (i + 1)) ∧
      ((t.set 3 (late 0)).pollAll [late 1, late 2]).count.toNat = 1 ∧
      (∀ i < 3, jittered i ≤ jittered (i + 1)) ∧
      (∀ i < 3, jittered (i + 1) ≤ jittered i + t.period) ∧
      ((t.set 3 (jittered 0)).pollAll [jittered 1, jittered 2, jittered 3]).count.toNat = 1 := by
  intro t late jittered
  have hpos : 0 < t.period := by decide
  have hlate : ∀ i < 2, late i ≤ late (i + 1) := by decide
  have hjittered : ∀ i < 3, jittered i ≤ jittered (i + 1) := by decide
  have hgap : ∀ i < 3, jittered (i + 1) ≤ jittered i + t.period := by decide
  refine ⟨hpos, hlate, (t.count_pollAll hpos 3 hlate).1.trans ?_, hjittered, hgap,
    ((t.count_pollAll hpos 3 hjittered).2.1 hgap).trans ?_⟩
  · decide
  · decide

end ChipEight.Countdown
