import ChipEight.Proofs.Scheduler.Rate
import ChipEight.Proofs.Scheduler.Standing
import ChipEight.Proofs.Scheduler.Succession
import ChipEight.Proofs.Word.Execution

/-!
# Schedules in words

Deadlines grow by a period with each cycle, and those of a timer with each of its steps, and neither
is compared with the time when it grows.  Still they stay close to it: a deadline is not left behind
before a reading of the clock has reached it, and a timer takes no more steps than its count.  So
as long as the time itself leaves some room, all arithmetic of a scheduler and of the interpreter
that it runs fits in words of 64 bits.

The count of cycles grows without regard to the time.  If cycles take time, the time runs out before
the words do; if they take none, the count is bounded by the number of ticks alone.
-/

namespace ChipEight

open Word

/-! ## Timers -/

namespace Pacer

/-- A deadline is counted from the time or from when the cycle was due. -/
theorem deadline_le {p : Pacer} {now last : Nat} (hnow : now ≤ last) (hdue : p.dueAt now ≤ last) :
    p.deadline now ≤ last + p.period := by
  apply Nat.add_le_add_right
  unfold anchor
  split
  · exact hnow
  · exact hdue

end Pacer

namespace Countdown

/-- For each step since the timer was set, the next one has been put off by one period at most. -/
def DueBounded (t : Countdown) : Prop := t.due ≤ t.setAt + (256 - t.count.toNat) * t.period

variable {t : Countdown}

theorem set_dueBounded (t : Countdown) (count : UInt8) (now : Nat) :
    (t.set count now).DueBounded := by
  have hcount : count.toNat < 256 := count.toNat_lt
  have hone : 1 * t.period ≤ (256 - count.toNat) * t.period := Nat.mul_le_mul_right _ (by omega)
  rw [Nat.one_mul] at hone
  exact Nat.add_le_add_left hone now

theorem DueBounded.poll (h : t.DueBounded) (now : Nat) : (t.poll now).DueBounded := by
  unfold Countdown.poll
  split
  · have hrunning : 1 ≤ t.count := ‹0 < t.count ∧ t.due ≤ now›.1
    have hone : (t.count - 1).toNat = t.count.toNat - 1 := UInt8.toNat_sub_of_le _ _ hrunning
    have hpos : 1 ≤ t.count.toNat := hrunning
    have hcount : t.count.toNat < 256 := t.count.toNat_lt
    have hleft : 256 - (t.count - 1).toNat = 256 - t.count.toNat + 1 := by omega
    calc
      _ ≤ t.setAt + (256 - t.count.toNat) * t.period + t.period := Nat.add_le_add_right h _
      _ = _ := by rw [hleft, Nat.succ_mul, Nat.add_assoc]
  · exact h

theorem DueBounded.pollAll (h : t.DueBounded) (times : List Nat) :
    (t.pollAll times).DueBounded := by
  induction times generalizing t with
  | nil => exact h
  | cons now rest ih => exact ih (h.poll now)

theorem DueBounded.due_le (h : t.DueBounded) : t.due ≤ t.setAt + 256 * t.period :=
  Nat.le_trans h (Nat.add_le_add_left (Nat.mul_le_mul_right _ (Nat.sub_le _ _)) _)

end Countdown

/-- Both timers have the given period, and their next steps are bounded by it. -/
structure Interpreter.TimersBounded {D K S G : Type} (period : Nat) (s : Interpreter D K S G) :
    Prop where
  period_eq (which : Timer) : (s.timer which).period = period
  dueBounded (which : Timer) : (s.timer which).DueBounded

namespace Interpreter.TimersBounded

variable {D K S G : Type} {period : Nat} {s : Interpreter D K S G}

theorem ofOptions (o : Options) (display : D) (keyboard : K) (speaker : S) (entropy : G) :
    (Interpreter.ofOptions o display keyboard speaker entropy).TimersBounded o.timerPeriod where
  period_eq which := by cases which <;> rfl
  dueBounded which := by cases which <;> exact Nat.zero_le _

theorem command [Display D] [Keyboard K] [Speaker S] [Entropy G] (h : s.TimersBounded period)
    (operation : Operation D K) : (s.perform operation.command).2.TimersBounded period where
  period_eq which := (s.period_timer_command operation which).trans (h.period_eq which)
  dueBounded which := by
    rw [timer_command]
    split
    · exact Countdown.set_dueBounded _ _ _
    · exact (h.dueBounded which).pollAll _

theorem periodsBounded (h : s.TimersBounded period) (hperiod : period ≤ second) :
    s.PeriodsBounded :=
  fun which ↦ (h.period_eq which).symm ▸ hperiod

end Interpreter.TimersBounded

/-! ## Beats and ticks -/

namespace Engine

variable {D K S G : Type}

def noteLag? (e : Engine D K S G) (now : Nat) : Option (Interpreter D K S G) :=
  if e.pacer.drops now then
    (sub? now (e.pacer.dueAt now)).map fun lag ↦ { e.interpreter with
      journal := e.interpreter.journal.note (.scheduleDropped lag) }
  else some e.interpreter

/-- A schedule that is dropped lags behind, so the lag is a number. -/
theorem noteLag?_eq (e : Engine D K S G) (now : Nat) : e.noteLag? now = some (e.noteLag now) := by
  unfold noteLag? noteLag
  by_cases hdrops : e.pacer.drops now
  · have hlag : e.pacer.maxLag < now - e.pacer.dueAt now := of_decide_eq_true hdrops
    rw [if_pos hdrops, if_pos hdrops, sub?_eq (by omega)]
    rfl
  · rw [if_neg hdrops, if_neg hdrops]

variable [Display D] [Keyboard K] [Speaker S] [Entropy G]

theorem slack_beat (e : Engine D K S G) (now : Nat) :
    (e.beat now).2.pacer.slack = e.pacer.slack := by
  unfold beat
  rcases (e.noteLag now).perform (Interpreter.cycle now) with ⟨f | _, interpreter⟩ <;> rfl

/-- The beat with checked arithmetic, that of its cycle included. -/
def beat? (e : Engine D K S G) (now : Nat) : Option (Except Failure Nat × Engine D K S G) := do
  let noted ← e.noteLag? now
  match ← noted.cycle? now with
  | (.error f, interpreter) => return (.error f, { e with interpreter })
  | (.ok (), interpreter) =>
    let cycles ← add? e.cycles 1
    let deadline ← add? (e.pacer.anchor now) e.pacer.period
    return (.ok deadline, { interpreter, pacer := { e.pacer with due? := some deadline }, cycles })

/-- The checked beat runs the cycle that the beat runs. -/
theorem beat?_eq_bind {e : Engine D K S G} {now : Nat} (h : e.interpreter.PeriodsBounded)
    (hnow : now + second < 2 ^ 64) :
    e.beat? now =
      match (e.noteLag now).perform (Interpreter.cycle now) with
      | (.error f, interpreter) => some (.error f, { e with interpreter })
      | (.ok (), interpreter) =>
        (add? e.cycles 1).bind fun cycles ↦
          (add? (e.pacer.anchor now) e.pacer.period).map fun deadline ↦ (.ok deadline,
            { interpreter, pacer := { e.pacer with due? := some deadline }, cycles }) := by
  have hnoted : (e.noteLag now).PeriodsBounded := by
    obtain ⟨journal, hjournal⟩ := e.exists_noteLag_eq now
    rw [hjournal]
    exact h
  rw [beat?, noteLag?_eq, Option.bind_eq_bind, Option.bind_some, Interpreter.cycle?_eq hnoted hnow]
  rcases (e.noteLag now).perform (Interpreter.cycle now) with ⟨f | _, interpreter⟩
  · rfl
  · cases add? (e.pacer.anchor now) e.pacer.period <;> rfl

theorem beat?_eq {e : Engine D K S G} {now : Nat} (h : e.interpreter.PeriodsBounded)
    (hnow : now + second < 2 ^ 64) (hdeadline : e.pacer.deadline now < 2 ^ 64)
    (hcycles : e.cycles + 1 < 2 ^ 64) : e.beat? now = some (e.beat now) := by
  rw [beat?_eq_bind h hnow, beat]
  rcases (e.noteLag now).perform (Interpreter.cycle now) with ⟨f | _, interpreter⟩
  · rfl
  · dsimp only
    rw [add?_eq hcycles, Option.bind_some, add?_eq hdeadline]
    rfl

/-- A count that is the last word cannot go on. -/
theorem beat?_eq_none {e : Engine D K S G} {now deadline : Nat} (h : e.interpreter.PeriodsBounded)
    (hnow : now + second < 2 ^ 64) (hbeat : (e.beat now).1 = .ok deadline)
    (hcycles : 2 ^ 64 ≤ e.cycles + 1) : e.beat? now = none := by
  rw [beat] at hbeat
  rw [beat?_eq_bind h hnow]
  rcases hcycle : (e.noteLag now).perform (Interpreter.cycle now) with ⟨f | _, interpreter⟩
  · rw [hcycle] at hbeat
    cases hbeat
  · dsimp only
    rw [add?_eq_none hcycles]
    rfl

/-- The engine with another count of cycles. -/
def recounted (e : Engine D K S G) (n : Nat) : Engine D K S G := { e with cycles := n }

/-- Nothing but the count depends on the count. -/
theorem beat_recounted (e : Engine D K S G) (n now : Nat) :
    (e.recounted n).beat now =
      ((e.beat now).1, (e.beat now).2.recounted (if (e.beat now).1.toBool then n + 1 else n)) := by
  have hnoted : (e.recounted n).noteLag now = e.noteLag now := rfl
  rw [beat, beat, hnoted]
  rcases (e.noteLag now).perform (Interpreter.cycle now) with ⟨f | _, interpreter⟩ <;> rfl

end Engine

namespace Scheduler

open Clock

variable {C D K S G : Type}

/-- What holds of a scheduler after some ticks. -/
structure Bounded (o : Options) (finishes : List Nat) (s : Scheduler C D K S G) : Prop where
  timers : s.engine.interpreter.TimersBounded o.timerPeriod
  pacer : s.engine.pacer = { Pacer.ofOptions o with due? := s.engine.pacer.due? }
  /-- The deadline has been reached before. -/
  due_le (due : Nat) : s.engine.pacer.due? = some due → ∃ finish ∈ finishes, due ≤ finish
  cycles_eq : s.engine.cycles = finishes.length
  /-- Each cycle has put off the deadline by a period. -/
  cycles_le (now : Nat) : s.engine.cycles * o.cpuPeriod ≤ s.engine.pacer.dueAt now

theorem Bounded.fresh (o : Options) (display : D) (keyboard : K) (speaker : S) (entropy : G)
    (clock : C) :
    Bounded o [] (Scheduler.fresh o (.ofOptions o display keyboard speaker entropy) clock) where
  timers := .ofOptions o display keyboard speaker entropy
  pacer := rfl
  due_le _ h := nomatch h
  cycles_eq := rfl
  cycles_le now := by
    change 0 * o.cpuPeriod ≤ _
    rw [Nat.zero_mul]
    exact Nat.zero_le _

variable [Clock C] [Display D] [Keyboard K] [Speaker S] [Entropy G]

/-- The tick with checked arithmetic, that of its cycle and of its wait included. -/
def tick? (limit : Nat) (s : Scheduler C D K S G) :
    Option (Option (Except Failure Nat × Scheduler C D K S G)) := do
  let before := s.engine.interpreter.waited
  let (now, clock) := Clock.read s.clock
  let (result, engine) ← s.engine.beat? now
  let clock := Clock.elapse clock (engine.interpreter.waited - before)
  match result with
  | .error f => return some (.error f, { engine, clock })
  | .ok deadline =>
    let wait ← Clock.waitUntil? limit engine.pacer.slack deadline clock
    return wait.map fun (time, clock) ↦ (.ok time, { engine, clock })

/-- The reading with which the wait of the next tick begins, if there is one. -/
def waitReading (s : Scheduler C D K S G) : Nat :=
  (Clock.read (s.clockAfter
    ((s.engine.beat s.reading).2.interpreter.waited - s.engine.interpreter.waited))).1

/-- The readings that the next tick computes with are not after `last`. -/
structure ReadsWithin (last : Nat) (s : Scheduler C D K S G) : Prop where
  reading : s.reading ≤ last
  waitReading {deadline : Nat} : (s.engine.beat s.reading).1 = .ok deadline → s.waitReading ≤ last

/-- The scheduler with another count of cycles. -/
def recounted (s : Scheduler C D K S G) (n : Nat) : Scheduler C D K S G :=
  { s with engine := s.engine.recounted n }

theorem waitReading_recounted (s : Scheduler C D K S G) (n : Nat) :
    (s.recounted n).waitReading = s.waitReading := by
  unfold waitReading recounted
  dsimp only
  rw [Engine.beat_recounted]
  rfl

theorem ReadsWithin.recounted {s : Scheduler C D K S G} {last : Nat} (h : s.ReadsWithin last)
    (n : Nat) : (s.recounted n).ReadsWithin last where
  reading := h.reading
  waitReading hbeat := by
    rw [s.waitReading_recounted n]
    have hsame := s.engine.beat_recounted n s.reading
    exact h.waitReading ((congrArg Prod.fst hsame).symm.trans hbeat)

theorem tick?_eq {s : Scheduler C D K S G} (h : s.engine.interpreter.PeriodsBounded)
    (hreading : s.reading + second < 2 ^ 64) (hdeadline : s.deadline < 2 ^ 64)
    (hcycles : s.engine.cycles + 1 < 2 ^ 64)
    (hwait : ∀ {deadline}, (s.engine.beat s.reading).1 = .ok deadline →
      s.waitReading + s.engine.pacer.slack < 2 ^ 64) (limit : Nat) :
    s.tick? limit = some (s.tick limit) := by
  have hbeat : s.engine.beat? (Clock.read s.clock).1 = some (s.engine.beat s.reading) :=
    Engine.beat?_eq h hreading hdeadline hcycles
  have hslack := s.engine.slack_beat s.reading
  have hread : (Clock.read s.clock).1 = s.reading := rfl
  unfold waitReading clockAfter at hwait
  unfold tick? tick
  dsimp only
  rw [hbeat, hread, Option.bind_eq_bind, Option.bind_some]
  rcases hresult : s.engine.beat s.reading with ⟨f | deadline, engine⟩
  · rfl
  · rw [hresult] at hslack hwait
    rw [← hslack] at hwait
    dsimp only
    rw [waitUntil?_eq (hwait rfl)]
    rfl

/-- A tick whose cycle succeeds is not possible in words once the count is the last word. -/
theorem tick?_eq_none {s : Scheduler C D K S G} {deadline : Nat}
    (h : s.engine.interpreter.PeriodsBounded) (hreading : s.reading + second < 2 ^ 64)
    (hbeat : (s.engine.beat s.reading).1 = .ok deadline) (hcycles : 2 ^ 64 ≤ s.engine.cycles + 1)
    (limit : Nat) : s.tick? limit = none := by
  have hnone : s.engine.beat? (Clock.read s.clock).1 = none :=
    Engine.beat?_eq_none h hreading hbeat hcycles
  unfold tick?
  dsimp only
  rw [hnone]
  rfl

/-! ## Runs -/

/-- The scheduler after an operation on its interpreter, with the clock as it is then. -/
def operated (s : Scheduler C D K S G) (operation : Operation D K) (clock : C) :
    Scheduler C D K S G where
  engine := { s.engine with interpreter := (s.engine.interpreter.perform operation.command).2 }
  clock := clock

/-- Ticks in a row from `s` on, with operations on the interpreter between them.  Each of the
`finishes` is the reading that ended the wait of a tick, and none of them is after `last`.  What
happens to the clock between the ticks does not matter. -/
inductive Run (last : Nat) (s : Scheduler C D K S G) : List Nat → Scheduler C D K S G → Prop where
  | start : Run last s [] s
  | tick {finishes : List Nat} {t u : Scheduler C D K S G} {limit finish : Nat} :
      Run last s finishes t → t.tick limit = some (.ok finish, u) → finish ≤ last →
      Run last s (finishes ++ [finish]) u
  | fail {finishes : List Nat} {t u : Scheduler C D K S G} {limit : Nat} {f : Failure} :
      Run last s finishes t → t.tick limit = some (.error f, u) → Run last s finishes u
  | operate {finishes : List Nat} {t : Scheduler C D K S G} (operation : Operation D K)
      (clock : C) : Run last s finishes t → Run last s finishes (t.operated operation clock)

theorem timersBounded_of_tick {s t : Scheduler C D K S G} {period limit : Nat}
    {result : Except Failure Nat} (h : s.engine.interpreter.TimersBounded period)
    (htick : s.tick limit = some (result, t)) : t.engine.interpreter.TimersBounded period := by
  have hnoted : (s.engine.noteLag s.reading).TimersBounded period := by
    obtain ⟨journal, hjournal⟩ := s.engine.exists_noteLag_eq s.reading
    rw [hjournal]
    exact ⟨h.period_eq, h.dueBounded⟩
  have hcycled : s.cycled.2 = t.engine.interpreter := by rw [cycled_eq_of_tick htick]
  rw [← hcycled]
  exact hnoted.command (.cycle s.reading)

namespace Bounded

variable {o : Options} {finishes : List Nat} {s t : Scheduler C D K S G} {limit : Nat}

theorem tick (h : Bounded o finishes s) {finish : Nat}
    (htick : s.tick limit = some (.ok finish, t)) : Bounded o (finishes ++ [finish]) t := by
  obtain ⟨hpacer, hwait⟩ := tick_eq_some_ok htick
  have hcycles : t.engine.cycles = s.engine.cycles + 1 := cycles_of_tick htick
  have hperiod : s.engine.pacer.period = o.cpuPeriod := by rw [h.pacer]; rfl
  refine ⟨timersBounded_of_tick h.timers htick, ?_, ?_, ?_, ?_⟩
  · rw [hpacer, h.pacer]
  · rw [hpacer]
    rintro due hdue
    cases hdue
    exact ⟨finish, List.mem_append_right _ (List.mem_singleton_self _), (waitUntil_eq_some hwait).1⟩
  · rw [hcycles, h.cycles_eq, List.length_append, List.length_singleton]
  · intro now
    rw [hpacer, hcycles, Nat.succ_mul]
    calc
      _ ≤ s.engine.pacer.anchor s.reading + o.cpuPeriod := by
        apply Nat.add_le_add_right
        exact Nat.le_trans (h.cycles_le s.reading) (s.engine.pacer.dueAt_le_anchor s.reading)
      _ = s.deadline := by rw [← hperiod, deadline, Pacer.deadline]

theorem fail (h : Bounded o finishes s) {f : Failure}
    (htick : s.tick limit = some (.error f, t)) : Bounded o finishes t := by
  have hpacer := (tick_eq_some_error htick).1
  have hcycles : t.engine.cycles = s.engine.cycles := cycles_of_tick htick
  refine ⟨timersBounded_of_tick h.timers htick, ?_, ?_, ?_, ?_⟩
  · rw [hpacer, ← h.pacer]
  · rw [hpacer]
    exact h.due_le
  · rw [hcycles, h.cycles_eq]
  · rw [hpacer, hcycles]
    exact h.cycles_le

end Bounded

theorem Run.bounded {o : Options} {s t : Scheduler C D K S G} {finishes : List Nat} {last : Nat}
    (h : Bounded o [] s) (w : Run last s finishes t) : Bounded o finishes t := by
  induction w with
  | start => exact h
  | tick _ htick _ ih => exact ih.tick htick
  | fail _ htick ih => exact ih.fail htick
  | operate operation clock _ ih => exact { ih with timers := ih.timers.command operation }

theorem Run.finish_le {s t : Scheduler C D K S G} {finishes : List Nat} {last : Nat}
    (w : Run last s finishes t) : ∀ finish ∈ finishes, finish ≤ last := by
  induction w with
  | start => exact fun _ h ↦ nomatch h
  | tick _ _ hfinish ih => exact List.forall_mem_append.mpr ⟨ih, by simpa using hfinish⟩
  | fail _ _ ih => exact ih
  | operate _ _ _ ih => exact ih

/-- A deadline that a cycle is counted from has been reached when the cycle begins or before. -/
theorem Run.dueAt_le {o : Options} {s t : Scheduler C D K S G} {finishes : List Nat} {last : Nat}
    (h : Bounded o [] s) (w : Run last s finishes t) {now : Nat} (hnow : now ≤ last) :
    t.engine.pacer.dueAt now ≤ last := by
  unfold Pacer.dueAt
  cases hdue : t.engine.pacer.due? with
  | none => exact hnow
  | some due =>
    obtain ⟨finish, hfinish, hle⟩ := (w.bounded h).due_le due hdue
    exact Nat.le_trans hle (w.finish_le finish hfinish)

/-- Cycles that take time have put off the deadline by their number at least. -/
theorem Run.cycles_le {o : Options} {s t : Scheduler C D K S G} {finishes : List Nat} {last : Nat}
    (h : Bounded o [] s) (w : Run last s finishes t) (hpos : 0 < o.cpuPeriod) :
    t.engine.cycles ≤ last := by
  calc
    t.engine.cycles ≤ t.engine.cycles * o.cpuPeriod := Nat.le_mul_of_pos_right _ hpos
    _ ≤ t.engine.pacer.dueAt 0 := (w.bounded h).cycles_le 0
    _ ≤ last := w.dueAt_le h (Nat.zero_le last)

/-- Whatever the count of cycles is, as long as it can go on: no time is lost in a tick. -/
theorem Run.tick?_recounted {o : Options} {s t : Scheduler C D K S G} {finishes : List Nat}
    {last n : Nat} (h : Bounded o [] s) (w : Run last s finishes t) (hwithin : t.ReadsWithin last)
    (hlast : last + 256 * second + o.spinSlack < 2 ^ 64) (hn : n + 1 < 2 ^ 64) (limit : Nat) :
    (t.recounted n).tick? limit = some ((t.recounted n).tick limit) := by
  have hbounded := w.bounded h
  have hreading := hwithin.reading
  have hdeadline : t.deadline ≤ last + t.engine.pacer.period :=
    Pacer.deadline_le hreading (w.dueAt_le h hreading)
  have hperiod : t.engine.pacer.period ≤ second := by
    rw [hbounded.pacer]
    exact periodOf_le_second o.cpuRate
  have hslack : t.engine.pacer.slack = o.spinSlack := by
    rw [hbounded.pacer]
    rfl
  apply tick?_eq
  · exact hbounded.timers.periodsBounded (periodOf_le_second o.timerRate)
  · change t.reading + second < 2 ^ 64
    omega
  · change t.deadline < 2 ^ 64
    omega
  · exact hn
  · intro deadline hbeat
    have hle := (hwithin.recounted n).waitReading hbeat
    change _ + t.engine.pacer.slack < 2 ^ 64
    omega

theorem saturatingMul_cpuPeriod (o : Options) :
    saturatingMul o.cpuPeriod o.catchUpLimit.toNat = o.cpuPeriod * o.catchUpLimit.toNat := by
  have hperiod : o.cpuPeriod ≤ second := periodOf_le_second o.cpuRate
  have hlimit : o.catchUpLimit.toNat < 2 ^ 32 := o.catchUpLimit.toNat_lt
  apply saturatingMul_eq
  calc
    _ ≤ second * 2 ^ 32 := Nat.mul_le_mul hperiod (Nat.le_of_lt hlimit)
    _ < 2 ^ 64 := by decide

/-! ## Runs on a clock that stands still -/

theorem Standing.readsWithin {s : Scheduler C D K S G} {last now : Nat} (h : s.Standing now)
    (hnow : now ≤ last) : s.ReadsWithin last where
  reading := h.reading_eq ▸ hnow
  waitReading _ := by
    have hreading : s.waitReading = s.reading := by
      rw [waitReading, h.beat_eq, Nat.sub_self, h.clockAfter_eq, reading]
    rw [hreading, h.reading_eq]
    exact hnow

/-- Ticks that take no time can go on for ever. -/
theorem Run.standing {s t : Scheduler C D K S G} {finishes : List Nat} {last now : Nat}
    (w : Run last s finishes t) (h : t.Standing now) (hnow : now ≤ last) (n : Nat) :
    ∃ u, Run last s (finishes ++ List.replicate n now) u ∧ u.Standing now := by
  induction n with
  | zero => exact ⟨t, (List.append_nil finishes).symm ▸ w, h⟩
  | succ n ih =>
    obtain ⟨u, hrun, hstanding⟩ := ih
    obtain ⟨v, htick, hafter⟩ := hstanding.tick
    refine ⟨v, ?_, hafter⟩
    rw [List.replicate_succ', ← List.append_assoc]
    exact hrun.tick htick hnow

/-! ## All arithmetic -/

/-- With any rates, as long as the time leaves room for 256 seconds and the slack, whatever is done
with a scheduler and its interpreter is the same with checked arithmetic on words: no time and no
place is lost to an overflow or an underflow.  The next step of a timer is due within 256 periods
of when it was set, a deadline that is left behind has been reached by a reading of the clock, and
the permitted lag is not cut down to fit a word.  The count of cycles alone is not bounded by the
time: if the cycles take time it fits a word as well, and if they take none, as long as there are
fewer ticks than words.  Nothing else is lost in a tick, whatever has been counted. -/
theorem words_suffice (o : Options) (display : D) (keyboard : K) (speaker : S) (entropy : G)
    (clock : C) :
    saturatingMul o.cpuPeriod o.catchUpLimit.toNat = o.cpuPeriod * o.catchUpLimit.toNat ∧
    (Pacer.ofOptions o).maxLag = o.cpuPeriod * o.catchUpLimit.toNat ∧
    ∀ last, last + 256 * second + o.spinSlack < 2 ^ 64 → ∀ finishes t,
      Run last (fresh o (.ofOptions o display keyboard speaker entropy) clock) finishes t →
      (∀ operation : Operation D K, (∀ now, operation.time? = some now → now ≤ last) →
        operation.perform? t.engine.interpreter =
          some (t.engine.interpreter.perform operation.command)) ∧
      (t.ReadsWithin last → ∀ limit,
        (0 < o.cpuPeriod ∨ finishes.length + 1 < 2 ^ 64 → t.tick? limit = some (t.tick limit)) ∧
        ∀ n, n + 1 < 2 ^ 64 →
          (t.recounted n).tick? limit = some ((t.recounted n).tick limit)) ∧
      (∀ which, (t.engine.interpreter.timer which).due ≤
        (t.engine.interpreter.timer which).setAt + 256 * o.timerPeriod) ∧
      (∀ due, t.engine.pacer.due? = some due → ∃ finish ∈ finishes, due ≤ finish) ∧
      t.engine.cycles = finishes.length ∧ (0 < o.cpuPeriod → t.engine.cycles + 1 < 2 ^ 64) := by
  refine ⟨saturatingMul_cpuPeriod o, rfl, ?_⟩
  intro last hlast finishes t w
  have hfresh : Bounded o [] (fresh o (.ofOptions o display keyboard speaker entropy) clock) :=
    .fresh o display keyboard speaker entropy clock
  have hbounded : Bounded o finishes t := w.bounded hfresh
  have hcycles : 0 < o.cpuPeriod → t.engine.cycles + 1 < 2 ^ 64 := by
    intro hpos
    have hle := w.cycles_le hfresh hpos
    have hsecond : 0 < second := by decide
    omega
  refine ⟨?_, ?_, ?_, hbounded.due_le, hbounded.cycles_eq, hcycles⟩
  · intro operation htime
    apply Operation.perform?_eq (hbounded.timers.periodsBounded (periodOf_le_second o.timerRate))
    intro now hnow
    have hle := htime now hnow
    omega
  · intro hwithin limit
    have htick (n : Nat) (hn : n + 1 < 2 ^ 64) :
        (t.recounted n).tick? limit = some ((t.recounted n).tick limit) :=
      w.tick?_recounted hfresh hwithin hlast hn limit
    refine ⟨fun hcount ↦ htick t.engine.cycles ?_, htick⟩
    exact hcount.elim hcycles fun hfewer ↦ hbounded.cycles_eq ▸ hfewer
  · intro which
    have hdue := (hbounded.timers.dueBounded which).due_le
    rwa [hbounded.timers.period_eq which] at hdue

/-- Options for examples: as slow as possible, and as much lag as possible. -/
def slowest : Options :=
  { cpuRate := 0, timerRate := 0, spinSlack := 0, catchUpLimit := 0xFFFFFFFF }

set_option maxRecDepth 20000 in
/-- With the latest time that is allowed, after a cycle of one second. -/
theorem words_suffice_slowest :
    let last := 2 ^ 64 - 1 - 256 * second
    last + 256 * second + slowest.spinSlack < 2 ^ 64 ∧
      saturatingMul slowest.cpuPeriod 0xFFFFFFFF = 4294967295000000000 ∧
      ∃ t, Run last (idling slowest []) [second] t ∧ t.ReadsWithin last ∧ 0 < slowest.cpuPeriod ∧
        t.tick? 1 = some (t.tick 1) ∧ t.engine.pacer.due? = some second ∧
        (Operation.execute (.setSound Register.zero) last).perform? t.engine.interpreter =
          some (t.engine.interpreter.perform
            (Interpreter.execute (.setSound Register.zero) last)) := by
  intro last
  have hlast : last + 256 * second + slowest.spinSlack < 2 ^ 64 := by decide
  obtain ⟨t, htick, hdue, hreading, hwaitReading⟩ : ∃ t,
      (idling slowest []).tick 1 = some (.ok second, t) ∧ t.engine.pacer.due? = some second ∧
      t.reading = second ∧ t.waitReading = second := ⟨_, rfl, rfl, rfl, rfl⟩
  have w : Run last (idling slowest []) [second] t := Run.start.tick htick (by decide)
  have hwithin : t.ReadsWithin last := by
    refine ⟨?_, fun _ ↦ ?_⟩
    · rw [hreading]
      decide
    · rw [hwaitReading]
      decide
  have hpos : 0 < slowest.cpuPeriod := by decide
  obtain ⟨hproduct, -, hsuffice⟩ := words_suffice slowest
    ({ inner := {} } : Delayed Frame) ({} : KeyScript) ({} : Mute) (mkStdGen 1)
    ({ spinStep := 1 } : SimulatedClock)
  obtain ⟨hoperation, htick?, -⟩ := hsuffice last hlast [second] t w
  refine ⟨hlast, hproduct, t, w, hwithin, hpos, (htick? hwithin 1).1 (.inl hpos), hdue, ?_⟩
  apply hoperation
  rintro now ⟨⟩
  exact Nat.le_refl _

/-- Options for examples: the period of a rate above one billion is zero. -/
def eager : Options := { cpuRate := 2000000000 }

/-- A scheduler for examples: it runs a program that jumps to itself. -/
def jumping : Scheduler SimulatedClock Frame KeyScript Mute StdGen :=
  (fresh eager (.ofOptions eager {} {} {} (mkStdGen 1)) {}).operated
    (.load [.bytes [0x12, 0x00]]) {}

set_option maxRecDepth 20000 in
theorem standing_jumping : Standing 0 jumping := by
  have hcurrent : jumping.engine.interpreter.machine.current =
      .ok (.jump Address.programStart) := rfl
  refine ⟨rfl, rfl, ?_, rfl, rfl⟩
  exact Interpreter.perform_cycle_of_jump_pc rfl rfl rfl hcurrent rfl Address.programStart_isEntry

/-- A program that jumps to itself while the clock stands still: after as many ticks as the last
word says, the next one succeeds as well, and its count of cycles is no word any more. -/
theorem words_overflow_standing :
    let last := 2 ^ 64 - 1 - 256 * second - eager.spinSlack
    last + 256 * second + eager.spinSlack < 2 ^ 64 ∧
      ∃ t u, Run last (fresh eager (.ofOptions eager ({} : Frame) ({} : KeyScript) ({} : Mute)
          (mkStdGen 1)) ({} : SimulatedClock)) (List.replicate (2 ^ 64 - 1) 0) t ∧
        t.ReadsWithin last ∧ t.engine.cycles = 2 ^ 64 - 1 ∧
        t.tick 1 = some (.ok 0, u) ∧ u.engine.cycles = 2 ^ 64 ∧ t.tick? 1 = none := by
  intro last
  have hlast : last + 256 * second + eager.spinSlack < 2 ^ 64 := by decide
  let s := fresh eager (.ofOptions eager ({} : Frame) ({} : KeyScript) ({} : Mute) (mkStdGen 1))
    ({} : SimulatedClock)
  have hfresh : Bounded eager [] s := .fresh ..
  have hstart : Run last s [] s := .start
  have hloaded : Run last s [] jumping := hstart.operate (.load [.bytes [0x12, 0x00]]) s.clock
  obtain ⟨t, hrun, ht⟩ := hloaded.standing standing_jumping (Nat.zero_le last) (2 ^ 64 - 1)
  obtain ⟨u, htick, -⟩ := ht.tick
  have hbounded := hrun.bounded hfresh
  have hcount : t.engine.cycles = 2 ^ 64 - 1 := by
    rw [hbounded.cycles_eq, List.nil_append, List.length_replicate]
  refine ⟨hlast, t, u, hrun, ht.readsWithin (Nat.zero_le last), hcount, htick, ?_, ?_⟩
  · rw [cycles_of_tick htick, hcount]
    rfl
  · apply tick?_eq_none (hbounded.timers.periodsBounded (periodOf_le_second _))
    · rw [ht.reading_eq]
      decide
    · exact congrArg Prod.fst ht.beat_eq
    · rw [hcount]
      decide

end Scheduler

end ChipEight
