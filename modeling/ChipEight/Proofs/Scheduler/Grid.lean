import ChipEight.Proofs.Clock.Simulated
import ChipEight.Proofs.Scheduler.Window
import Mathlib.Algebra.GroupWithZero.Nat
import Mathlib.Algebra.Order.Group.Finset
import Mathlib.Algebra.Order.Group.Nat
import Mathlib.Order.Lattice.Nat

/-!
# The time grid of a scheduler

On an exact clock, as long as no schedule is dropped, the cycles of a scheduler are due on a grid of
periods from its first reading.  A tick ends at its grid point unless earlier cycles have taken too
long; what they were late by is caught up by the ticks that follow, and never more than that.
-/

namespace ChipEight

/-- When cycles of these costs are done with, each of which waits for its grid point: at the latest
of the grid points, each put off by the costs from there on. -/
def catchUpTime (anchor period : Nat) (costs : List Nat) : Nat :=
  (Finset.range (costs.length + 1)).sup fun i ↦ anchor + i * period + (costs.drop i).sum

theorem catchUpTime_nil (anchor period : Nat) : catchUpTime anchor period [] = anchor := by
  simp [catchUpTime]

/-- One more cycle begins when those before it are done with, and waits for its grid point. -/
theorem catchUpTime_snoc (anchor period cost : Nat) (costs : List Nat) :
    catchUpTime anchor period (costs ++ [cost]) =
      max (catchUpTime anchor period costs + cost) (anchor + (costs.length + 1) * period) := by
  have hput (i : Nat) (hi : i ∈ Finset.range (costs.length + 1)) :
      anchor + i * period + ((costs ++ [cost]).drop i).sum =
        anchor + i * period + (costs.drop i).sum + cost := by
    have hle : i ≤ costs.length := Nat.le_of_lt_succ (Finset.mem_range.mp hi)
    rw [List.drop_append_of_le_length hle, List.sum_append, List.sum_singleton, ← Nat.add_assoc]
  have hlast : ((costs ++ [cost]).drop (costs.length + 1)).sum = 0 := by
    rw [List.drop_eq_nil_of_le (by simp), List.sum_nil]
  calc
    _ = max (anchor + (costs.length + 1) * period)
        ((Finset.range (costs.length + 1)).sup fun i ↦
          anchor + i * period + ((costs ++ [cost]).drop i).sum) := by
      rw [catchUpTime, List.length_append, List.length_singleton, Finset.range_add_one,
        Finset.sup_insert, hlast, Nat.add_zero]
    _ = max (anchor + (costs.length + 1) * period)
        ((Finset.range (costs.length + 1)).sup fun i ↦
          anchor + i * period + (costs.drop i).sum + cost) := by
      rw [Finset.sup_congr rfl hput]
    _ = max (anchor + (costs.length + 1) * period) (catchUpTime anchor period costs + cost) := by
      rw [catchUpTime, Finset.sup_add (Finset.nonempty_range_iff.mpr (Nat.succ_ne_zero _))]
    _ = _ := max_comm _ _

/-- Costs that the periods from each grid point on make up for do not put off the last one. -/
theorem catchUpTime_eq_grid {anchor period : Nat} {costs : List Nat}
    (h : ∀ i ≤ costs.length, (costs.drop i).sum ≤ (costs.length - i) * period) :
    catchUpTime anchor period costs = anchor + costs.length * period := by
  apply le_antisymm
  · apply Finset.sup_le
    intro i hi
    have hle : i ≤ costs.length := Nat.le_of_lt_succ (Finset.mem_range.mp hi)
    calc
      _ ≤ anchor + i * period + (costs.length - i) * period := Nat.add_le_add_left (h i hle) _
      _ = anchor + costs.length * period := by
        rw [Nat.add_assoc, ← Nat.add_mul, Nat.add_sub_cancel' hle]
  · have hmem : costs.length ∈ Finset.range (costs.length + 1) :=
      Finset.mem_range.mpr (Nat.lt_succ_self _)
    calc
      _ = anchor + costs.length * period + (costs.drop costs.length).sum := by simp
      _ ≤ _ := Finset.le_sup (f := fun i ↦ anchor + i * period + (costs.drop i).sum) hmem

namespace Scheduler

open Clock

variable {C D K S G : Type} [Clock C] {s t u : Scheduler C D K S G} {records : List TickRecord}
variable {time : C → Nat}

theorem time_clockAfter (hexact : Exact time t.clock) (cost : Nat) :
    time (t.clockAfter cost) = time t.clock + cost := by
  rw [clockAfter, hexact.time_elapse cost Later.refl.read, hexact.time_read .refl]

variable [Display D] [Keyboard K] [Speaker S] [Entropy G]

/-- A tick returns if the readings of its wait may exceed the slack. -/
theorem isSome_tick (hexact : Exact time t.clock) {limit : Nat}
    (hlimit : t.engine.pacer.slack < limit) : (t.tick limit).isSome := by
  rw [tick_eq]
  rcases t.cycled with ⟨_ | _, interpreter⟩
  · rfl
  · dsimp only
    rw [Option.isSome_map]
    have hafter := hexact.later (t.clockAfter_later
      (t.cost { t with engine := { t.engine with interpreter } }))
    obtain ⟨d, hwait, _⟩ := hafter.exists_waitUntil_eq hlimit t.deadline
    exact Option.isSome_of_eq_some hwait

/-- A tick that keeps the schedule ends when the next is due, or with its cycle if that is later. -/
theorem tick_eq_some_ok_of_exact {limit finish : Nat} (hexact : Exact time t.clock)
    (h : t.tick limit = some (.ok finish, u))
    (hlag : t.engine.pacer.lag t.reading ≤ t.engine.pacer.maxLag) :
    u.engine.pacer.due? =
        some (t.engine.pacer.dueAt (time t.clock) + t.engine.pacer.period) ∧
      time u.clock = max (time t.clock + t.cost u)
        (t.engine.pacer.dueAt (time t.clock) + t.engine.pacer.period) := by
  have hreading : t.reading = time t.clock := hexact.read_fst .refl
  have hdrops : t.engine.pacer.drops t.reading = false := by
    rw [Pacer.drops, decide_eq_false (Nat.not_lt.mpr hlag)]
  have hdeadline : t.deadline =
      t.engine.pacer.dueAt (time t.clock) + t.engine.pacer.period := by
    rw [deadline, Pacer.deadline, Pacer.anchor, hdrops, hreading]
    rfl
  obtain ⟨hpacer, hwait⟩ := tick_eq_some_ok h
  rw [hdeadline] at hpacer hwait
  refine ⟨by rw [hpacer], ?_⟩
  have hend := ((hexact.later (t.clockAfter_later _)).waitUntil_eq_some hwait).2
  rw [hend, time_clockAfter hexact]

theorem Window.later_of_idle (w : Window (Idle time) s records t) : Later s.clock t.clock := by
  apply Window.later
  apply w.mono
  intro c d hidle
  exact hidle.1

/-- Ticks that succeed and keep the schedule go along the grid, and are only ever as late as what
their cycles have taken makes them. -/
theorem Window.along_grid (hexact : Exact time s.clock) (hfresh : s.engine.pacer.due? = none)
    (w : Window (Idle time) s records t) (hok : ∀ r ∈ records, r.finish?.isSome)
    (hlag : ∀ r ∈ records, r.lag ≤ s.engine.pacer.maxLag) :
    (records ≠ [] → t.engine.pacer.due? =
        some (time s.clock + records.length * s.engine.pacer.period)) ∧
      t.engine.pacer.dueAt (time t.clock) =
        time s.clock + records.length * s.engine.pacer.period ∧
      time t.clock =
        catchUpTime (time s.clock) s.engine.pacer.period (records.map (·.cost)) := by
  induction w with
  | start =>
    refine ⟨fun h ↦ absurd rfl h, ?_, (catchUpTime_nil _ _).symm⟩
    rw [Pacer.dueAt, hfresh, List.length_nil, Nat.zero_mul, Nat.add_zero, Option.getD_none]
  | pause interpreter clock _ hidle ih =>
    rw [hidle.2]
    exact ih hok hlag
  | @tick records t u limit result w htick ih =>
    have hbefore : ∀ r ∈ records, r ∈ records ++ [t.record u result] := by
      intro r hr
      exact List.mem_append_left _ hr
    have hlast : t.record u result ∈ records ++ [t.record u result] := by
      apply List.mem_append_right
      exact List.mem_singleton_self _
    obtain ⟨_, hdue, htime⟩ := ih (fun r hr ↦ hok r (hbefore r hr))
      (fun r hr ↦ hlag r (hbefore r hr))
    cases result with
    | error f => exact absurd (hok _ hlast) Bool.false_ne_true
    | ok finish =>
      have hpacer := w.pacer_eq
      have hmaxLag : t.engine.pacer.maxLag = s.engine.pacer.maxLag := by rw [hpacer]
      have hperiod : t.engine.pacer.period = s.engine.pacer.period := by rw [hpacer]
      have hnext : time s.clock + records.length * s.engine.pacer.period +
          s.engine.pacer.period = time s.clock + (records.length + 1) * s.engine.pacer.period := by
        rw [Nat.succ_mul, Nat.add_assoc]
      have hexact' : Exact time t.clock := hexact.later w.later_of_idle
      obtain ⟨hdue', htime'⟩ := tick_eq_some_ok_of_exact hexact' htick (hmaxLag ▸ hlag _ hlast)
      rw [hdue, hperiod, hnext] at hdue' htime'
      rw [List.length_append, List.length_singleton, List.map_append, List.map_singleton,
        catchUpTime_snoc, List.length_map, ← htime]
      refine ⟨fun _ ↦ hdue', ?_, htime'⟩
      rw [Pacer.dueAt, hdue', Option.getD_some]

/-- From a fresh scheduler on, what each tick has been late by does not add up: after some ticks
that succeed and keep the schedule the clock is at the latest of the grid points, each put off by
the costs from there on, and at the last one if the periods make up for the costs.  The next tick
will return as well. -/
theorem Window.reading_eq_sup {o : Options} {interpreter : Interpreter D K S G} {clock : C}
    (hexact : Exact time clock) (w : Window (Idle time) (fresh o interpreter clock) records t)
    (hok : ∀ r ∈ records, r.finish?.isSome)
    (hlag : ∀ r ∈ records, r.lag ≤ o.cpuPeriod * o.catchUpLimit.toNat) :
    (records ≠ [] →
        t.engine.pacer.due? = some (time clock + records.length * o.cpuPeriod)) ∧
      t.reading = ((Finset.range (records.length + 1)).sup fun i ↦
        time clock + i * o.cpuPeriod + ((records.map (·.cost)).drop i).sum) ∧
      ((∀ i ≤ records.length,
          ((records.map (·.cost)).drop i).sum ≤ (records.length - i) * o.cpuPeriod) →
        t.reading = time clock + records.length * o.cpuPeriod) ∧
      ∀ limit, o.spinSlack < limit → (t.tick limit).isSome := by
  obtain ⟨hdue, _, htime⟩ := w.along_grid hexact rfl hok hlag
  change time t.clock = catchUpTime (time clock) o.cpuPeriod (records.map (·.cost)) at htime
  have hexact' : Exact time t.clock := hexact.later w.later_of_idle
  have hreading : t.reading = time t.clock := hexact'.read_fst .refl
  refine ⟨hdue, ?_, ?_, ?_⟩
  · rw [hreading, htime, catchUpTime, List.length_map]
  · intro hcosts
    rw [← List.length_map (f := TickRecord.cost)] at hcosts ⊢
    rw [hreading, htime]
    exact catchUpTime_eq_grid hcosts
  · intro limit hlimit
    apply isSome_tick hexact'
    rw [w.pacer_eq]
    exact hlimit

set_option maxRecDepth 20000 in
/-- The first of three cycles takes more than two periods, and the third tick is on the grid. -/
theorem Window.reading_eq_sup_slow_start :
    ∃ (records : List TickRecord)
      (s t : Scheduler SimulatedClock (Delayed Frame) KeyScript Mute StdGen),
      s = idling { spinSlack := 3 } [5000000] ∧ Exact SimulatedClock.time s.clock ∧
      Window (Idle SimulatedClock.time) s records t ∧
      records = [⟨0, 0, 5000000, some 5000000⟩, ⟨5000000, 3046875, 0, some 5000000⟩,
        ⟨5000000, 1093750, 0, some 5859375⟩] ∧
      (∀ r ∈ records, r.finish?.isSome) ∧ (∀ r ∈ records, r.lag ≤ 1953125 * 64) ∧
      t.engine.pacer.due? = some (3 * 1953125) ∧ t.reading = 3 * 1953125 := by
  obtain ⟨t, u, v, hfirst, hsecond, hthird, hrecords⟩ : ∃ t u v,
      (idling { spinSlack := 3 } [5000000]).tick 4 = some (.ok 5000000, t) ∧
      t.tick 4 = some (.ok 5000000, u) ∧ u.tick 4 = some (.ok 5859375, v) ∧
      [(idling { spinSlack := 3 } [5000000]).record t (.ok 5000000), t.record u (.ok 5000000),
          u.record v (.ok 5859375)] =
        [⟨0, 0, 5000000, some 5000000⟩, ⟨5000000, 3046875, 0, some 5000000⟩,
          ⟨5000000, 1093750, 0, some 5859375⟩] :=
    ⟨_, _, _, rfl, rfl, rfl, rfl⟩
  have hexact : Exact SimulatedClock.time (idling { spinSlack := 3 } [5000000]).clock :=
    SimulatedClock.isExact rfl rfl rfl
  have w : Window (Idle SimulatedClock.time) (idling { spinSlack := 3 } [5000000]) _ v :=
    ((Window.start.tick hfirst).tick hsecond).tick hthird
  rw [List.nil_append, List.singleton_append, List.cons_append, List.singleton_append,
    hrecords] at w
  obtain ⟨hdue, _, hgrid, _⟩ := Window.reading_eq_sup hexact w (by simp) (by decide)
  exact ⟨_, _, v, rfl, hexact, w, rfl, by simp, by simp, hdue (by simp), hgrid (by decide)⟩

end Scheduler

end ChipEight
