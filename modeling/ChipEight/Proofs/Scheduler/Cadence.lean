import ChipEight.Proofs.Countdown.Polled
import ChipEight.Proofs.Interpreter.Timers
import ChipEight.Proofs.Scheduler.Grid

/-!
# The cadence of the timers

On an exact clock, cycles that take no longer than a period begin on the grid of the scheduler.  A
timer whose period is not shorter than that of the cycles is then polled in time, and what is left
on it depends on the time since it was set, and on the rate of the cycles in no other way.
-/

namespace ChipEight.Scheduler

open Clock Interpreter Countdown

variable {C D K S G : Type} [Clock C] [Display D] [Keyboard K] [Speaker S] [Entropy G]
variable {time : C → Nat} {s t u : Scheduler C D K S G} {begun : List (Scheduler C D K S G)}

/-- Ticks in a row that succeed and whose cycles take no longer than a period; `begun` has the
schedulers with which they begin.  Between them no time passes, and anything may be done to the
interpreter except to its timers. -/
inductive Paced (time : C → Nat) (s : Scheduler C D K S G) :
    List (Scheduler C D K S G) → Scheduler C D K S G → Prop where
  | start : Paced time s [] s
  | tick {begun : List (Scheduler C D K S G)} {t u : Scheduler C D K S G} {limit finish : Nat} :
      Paced time s begun t → t.tick limit = some (.ok finish, u) →
      t.cost u ≤ t.engine.pacer.period → Paced time s (begun ++ [t]) u
  | pause {begun : List (Scheduler C D K S G)} {t : Scheduler C D K S G}
      (interpreter : Interpreter D K S G) (clock : C) :
      Paced time s begun t → Idle time t.clock clock →
      (∀ which, interpreter.timer which = t.engine.interpreter.timer which) →
      Paced time s begun { engine := { t.engine with interpreter }, clock }

theorem Paced.exists_window (w : Paced time s begun t) :
    ∃ records, Window (Idle time) s records t := by
  induction w with
  | start => exact ⟨[], .start⟩
  | tick _ htick _ ih =>
    obtain ⟨records, w⟩ := ih
    exact ⟨_, w.tick htick⟩
  | pause interpreter clock _ hidle _ ih =>
    obtain ⟨records, w⟩ := ih
    exact ⟨records, w.pause interpreter clock hidle⟩

/-- Each tick ends when the next cycle is due, one period after it began. -/
theorem Paced.time_eq (hexact : Exact time s.clock) (hfresh : s.engine.pacer.due? = none)
    (w : Paced time s begun t) :
    time t.clock = time s.clock + begun.length * s.engine.pacer.period ∧
      t.engine.pacer.dueAt (time t.clock) = time t.clock := by
  induction w with
  | start =>
    rw [List.length_nil, Nat.zero_mul, Nat.add_zero, Pacer.dueAt, hfresh]
    exact ⟨rfl, rfl⟩
  | pause interpreter clock _ hidle _ ih =>
    rw [hidle.2]
    exact ih
  | @tick begun t u limit finish w htick hcost ih =>
    obtain ⟨htime, hdue⟩ := ih
    obtain ⟨records, window⟩ := w.exists_window
    have hexact' : Exact time t.clock := hexact.later window.later_of_idle
    have hperiod : t.engine.pacer.period = s.engine.pacer.period := by rw [window.pacer_eq]
    have hlag : t.engine.pacer.lag t.reading = 0 := by
      have hreading : t.reading = time t.clock := hexact'.read_fst .refl
      rw [Pacer.lag, hreading, hdue, Nat.sub_self]
    obtain ⟨hnext, hend⟩ := tick_eq_some_ok_of_exact hexact' htick (hlag ▸ Nat.zero_le _)
    rw [hdue] at hnext hend
    have hpassed : time u.clock = time t.clock + t.engine.pacer.period := by
      rw [hend]
      exact Nat.max_eq_right (Nat.add_le_add_left hcost _)
    constructor
    · rw [hpassed, htime, hperiod, List.length_append, List.length_singleton, Nat.succ_mul,
        Nat.add_assoc]
    · rw [Pacer.dueAt, hnext, hpassed, Option.getD_some]

theorem Paced.reading_eq (hexact : Exact time s.clock) (hfresh : s.engine.pacer.due? = none)
    (w : Paced time s begun t) :
    t.reading = time s.clock + begun.length * s.engine.pacer.period := by
  obtain ⟨records, window⟩ := w.exists_window
  have hexact' : Exact time t.clock := hexact.later window.later_of_idle
  rw [← (w.time_eq hexact hfresh).1]
  exact hexact'.read_fst .refl

/-! ## Timers -/

/-- The register from which the next tick sets a timer, if it gets as far. -/
def nextSets? (s : Scheduler C D K S G) (which : Timer) : Option Register :=
  s.engine.interpreter.nextSets? which

theorem timer_tick {limit finish : Nat} (h : s.tick limit = some (.ok finish, t))
    (which : Timer) :
    t.engine.interpreter.timer which =
      match s.nextSets? which with
      | some x => ((s.engine.interpreter.timer which).poll s.reading).set
          (s.engine.interpreter.machine.reg x) s.reading
      | none => (s.engine.interpreter.timer which).poll s.reading := by
  obtain ⟨journal, hjournal⟩ := s.engine.exists_noteLag_eq s.reading
  have hcycle := cycled_eq_of_tick h
  rw [cycled, hjournal] at hcycle
  have htimer := timer_cycle hcycle which
  have hsame : timer { s.engine.interpreter with journal } which =
      s.engine.interpreter.timer which := by
    cases which <;> rfl
  rw [hsame] at htimer
  exact htimer

theorem Paced.period_eq (w : Paced time s begun t) (which : Timer) :
    (t.engine.interpreter.timer which).period = (s.engine.interpreter.timer which).period := by
  induction w with
  | start => rfl
  | pause interpreter clock _ _ hsame ih =>
    rw [← ih, ← hsame]
  | tick _ htick _ ih =>
    rw [timer_tick htick, ← ih]
    split
    · exact period_poll _ _
    · exact period_poll _ _

theorem punctual_of_tick_sets {limit finish : Nat} (h : s.tick limit = some (.ok finish, t))
    {which : Timer} {x : Register} (hset : s.nextSets? which = some x) :
    Punctual (s.engine.interpreter.machine.reg x) s.reading s.reading
      (t.engine.interpreter.timer which) := by
  have htimer := timer_tick h which
  rw [hset] at htimer
  rw [htimer]
  exact punctual_set _ _ _

theorem punctual_of_tick_polls {limit finish : Nat} (h : s.tick limit = some (.ok finish, t))
    {which : Timer} (hkept : s.nextSets? which = none) {count : UInt8} {start now : Nat}
    (hpunctual : Punctual count start now (s.engine.interpreter.timer which))
    (hpos : 0 < (s.engine.interpreter.timer which).period) (hle : now ≤ s.reading)
    (hgap : s.reading ≤ now + (s.engine.interpreter.timer which).period) :
    Punctual count start s.reading (t.engine.interpreter.timer which) := by
  have htimer := timer_tick h which
  rw [hkept] at htimer
  rw [htimer]
  exact hpunctual.poll hpos hle hgap

/-- From the tick that sets a timer up to the last one, the timer takes its steps in time. -/
theorem Paced.punctual (hexact : Exact time s.clock) (hfresh : s.engine.pacer.due? = none)
    {which : Timer} (hpos : 0 < (s.engine.interpreter.timer which).period)
    (hle : s.engine.pacer.period ≤ (s.engine.interpreter.timer which).period)
    (w : Paced time s begun t) {j k : Nat} (hlast : begun.length = k + 1)
    {setter : Scheduler C D K S G} (hsetter : begun[j]? = some setter) {x : Register}
    (hset : setter.nextSets? which = some x)
    (hkept : ∀ n keeper, j < n → begun[n]? = some keeper → keeper.nextSets? which = none) :
    Punctual (setter.engine.interpreter.machine.reg x)
      (time s.clock + j * s.engine.pacer.period) (time s.clock + k * s.engine.pacer.period)
      (t.engine.interpreter.timer which) := by
  induction w generalizing k with
  | start => cases hlast
  | pause interpreter clock _ _ hsame ih =>
    have hpunctual := ih hlast hsetter hkept
    rw [← hsame] at hpunctual
    exact hpunctual
  | @tick begun t u limit finish w htick _ ih =>
    have hk : begun.length = k := by simpa using hlast
    have hreading : t.reading = time s.clock + k * s.engine.pacer.period :=
      hk ▸ w.reading_eq hexact hfresh
    rcases Nat.lt_trichotomy j k with hlt | rfl | hgt
    · have hthis : t.nextSets? which = none := by
        apply hkept k t hlt
        rw [← hk]
        exact List.getElem?_concat_length
      have hearlier : begun[j]? = some setter := by
        rwa [List.getElem?_append_left (hk ▸ hlt)] at hsetter
      obtain ⟨before, rfl⟩ := Nat.exists_eq_add_one.mpr (Nat.zero_lt_of_lt hlt)
      have hbefore := ih hk hearlier fun n keeper hn hkeeper ↦ by
        apply hkept n keeper hn
        have hlength : n < begun.length := (List.getElem?_eq_some_iff.mp hkeeper).1
        rwa [List.getElem?_append_left hlength]
      have hperiod := w.period_eq which
      rw [← hreading]
      apply punctual_of_tick_polls htick hthis hbefore
      · rwa [hperiod]
      · rw [hreading]
        apply Nat.add_le_add_left
        exact Nat.mul_le_mul_right _ (Nat.le_succ _)
      · rw [hreading, hperiod, Nat.succ_mul, ← Nat.add_assoc]
        exact Nat.add_le_add_left hle _
    · have hthis : setter = t := by
        rw [← hk, List.getElem?_concat_length] at hsetter
        exact (Option.some.inj hsetter).symm
      rw [hthis] at hset ⊢
      rw [← hreading]
      exact punctual_of_tick_sets htick hset
    · have hnone : (begun ++ [t])[j]? = none := by
        apply List.getElem?_eq_none
        omega
      rw [hnone] at hsetter
      cases hsetter

/-- On an exact clock, with a timer that is not faster than the cycles, and with cycles that take no
longer than their period: some ticks after the one that has set the timer, it has counted down by
as many steps as its period fits into the time of these ticks. -/
theorem Paced.count_eq {o : Options} {interpreter : Interpreter D K S G} {clock : C}
    {which : Timer} (hexact : Exact time clock) (hpos : 0 < o.cpuPeriod)
    (hle : o.cpuPeriod ≤ o.timerPeriod)
    (hperiod : (interpreter.timer which).period = o.timerPeriod)
    (w : Paced time (fresh o interpreter clock) begun t) {j k : Nat} (hlast : begun.length = k + 1)
    {setter : Scheduler C D K S G} (hsetter : begun[j]? = some setter) {x : Register}
    (hset : setter.nextSets? which = some x)
    (hkept : ∀ n keeper, j < n → begun[n]? = some keeper → keeper.nextSets? which = none) :
    let count := (setter.engine.interpreter.machine.reg x).toNat
    (t.engine.interpreter.timer which).count.toNat =
      count - min count ((k - j) * o.cpuPeriod / o.timerPeriod) := by
  intro count
  have hslower : o.cpuPeriod ≤ (interpreter.timer which).period := hperiod ▸ hle
  have hrunning : 0 < (interpreter.timer which).period := Nat.lt_of_lt_of_le hpos hslower
  have hpunctual := w.punctual hexact rfl hrunning hslower hlast hsetter hset hkept
  have hsteps : time clock + k * o.cpuPeriod - (time clock + j * o.cpuPeriod) =
      (k - j) * o.cpuPeriod := by
    rw [Nat.add_sub_add_left, Nat.sub_mul]
  have hcount := hpunctual.count_eq
  rw [w.period_eq which] at hcount
  change _ = count - (time clock + k * o.cpuPeriod - (time clock + j * o.cpuPeriod)) /
    (interpreter.timer which).period at hcount
  rw [hcount, hsteps, hperiod]
  omega

/-- A scheduler for examples: its program sets the delay timer to five and then idles, and its
display takes some time to repaint. -/
def counting : Scheduler SimulatedClock (Delayed Frame) KeyScript Mute StdGen :=
  let o : Options := { timerRate := 300, spinSlack := 3 }
  fresh o { ofOptions o { inner := {}, delays := [0, 1953125, 1000] } {} {} ⟨1, 1⟩ with
    machine := Machine.initial.poke 0x200 [0x60, 0x05, 0xF0, 0x15, 0x12, 0x04] } { spinStep := 1 }

set_option maxRecDepth 20000 in
/-- Two cycles of 1953125 nanoseconds after it was set, the timer has taken the one step that was
due. -/
theorem Paced.count_eq_four :
    ∃ (begun : List (Scheduler SimulatedClock (Delayed Frame) KeyScript Mute StdGen))
      (setter t : Scheduler SimulatedClock (Delayed Frame) KeyScript Mute StdGen),
      Exact SimulatedClock.time counting.clock ∧ periodOf 512 = 1953125 ∧
      periodOf 300 = 3333333 ∧ Paced SimulatedClock.time counting begun t ∧
      begun.length = 3 + 1 ∧ begun[1]? = some setter ∧
      setter.nextSets? .delay = some Register.zero ∧
      (∀ n keeper, 1 < n → begun[n]? = some keeper → keeper.nextSets? .delay = none) ∧
      setter.engine.interpreter.machine.reg Register.zero = 5 ∧
      t.engine.interpreter.delay.count.toNat = 5 - min 5 ((3 - 1) * 1953125 / 3333333) := by
  obtain ⟨t₁, t₂, t₃, t₄, h₁, h₂, h₃, h₄, hcost₁, hcost₂, hcost₃, hcost₄, hset, hkept₃, hkept₄,
      hfive⟩ : ∃ t₁ t₂ t₃ t₄ : Scheduler SimulatedClock (Delayed Frame) KeyScript Mute StdGen,
      counting.tick 4 = some (.ok 1953125, t₁) ∧ t₁.tick 4 = some (.ok 3906250, t₂) ∧
      t₂.tick 4 = some (.ok 5859375, t₃) ∧ t₃.tick 4 = some (.ok 7812500, t₄) ∧
      (counting.cost t₁).ble counting.engine.pacer.period ∧
      (t₁.cost t₂).ble t₁.engine.pacer.period ∧ (t₂.cost t₃).ble t₂.engine.pacer.period ∧
      (t₃.cost t₄).ble t₃.engine.pacer.period ∧
      t₁.nextSets? .delay = some Register.zero ∧ t₂.nextSets? .delay = none ∧
      t₃.nextSets? .delay = none ∧ t₁.engine.interpreter.machine.reg Register.zero = 5 :=
    ⟨_, _, _, _, rfl, rfl, rfl, rfl, rfl, rfl, rfl, rfl, rfl, rfl, rfl, rfl⟩
  have hexact : Exact SimulatedClock.time counting.clock := SimulatedClock.isExact rfl rfl rfl
  have w : Paced SimulatedClock.time counting [counting, t₁, t₂, t₃] t₄ :=
    (((Paced.start.tick h₁ (Nat.le_of_ble_eq_true hcost₁)).tick h₂
      (Nat.le_of_ble_eq_true hcost₂)).tick h₃ (Nat.le_of_ble_eq_true hcost₃)).tick h₄
      (Nat.le_of_ble_eq_true hcost₄)
  have hkept : ∀ n keeper, 1 < n → [counting, t₁, t₂, t₃][n]? = some keeper →
      keeper.nextSets? .delay = none := by
    intro n keeper hn hkeeper
    match n, hn with
    | 2, _ => exact Option.some.inj hkeeper ▸ hkept₃
    | 3, _ => exact Option.some.inj hkeeper ▸ hkept₄
    | n + 4, _ => cases hkeeper
  have hcount := Paced.count_eq hexact (by decide) (by decide) rfl w rfl rfl hset hkept
  rw [hfive] at hcount
  exact ⟨_, t₁, t₄, hexact, rfl, rfl, w, rfl, rfl, hset, hkept, hfive, hcount⟩

end ChipEight.Scheduler
