import ChipEight.Proofs.Interpreter.Effect
import ChipEight.Proofs.Scheduler.Window

/-!
# Schedulers that stand still

A program that jumps to itself leaves its interpreter as it is, as long as the timers rest and the
display has nothing to do.  If moreover the period is zero and the clock does not move on, a tick
does nothing but count itself, and so does the next one.
-/

namespace ChipEight

theorem Journal.note_of_limit_eq_none {j : Journal} (h : j.limit = none) (e : Event) :
    j.note e = j := by
  unfold note admits
  rw [h]
  rfl

namespace Interpreter

variable {D K S G : Type} [Display D] [Keyboard K] [Speaker S] [Entropy G]
  {s : Interpreter D K S G}

/-- A cycle whose polls do nothing does nothing if it executes a jump to itself. -/
theorem perform_cycle_of_jump_pc {now : Nat} {target : Address}
    (hpoll : (Display.poll s.display).1 = .ok ()) (hpolled : s.polled now = s)
    (hjournal : s.journal.limit = none) (hcurrent : s.machine.current = .ok (.jump target))
    (hpc : s.machine.pc = target) (hentry : target.IsEntry) :
    s.perform (cycle now) = (.ok (), s) := by
  subst hpc
  have hjump : s.perform (effect (.jump s.machine.pc) now) = (.ok (), s) := by
    change s.perform (.attempt _ (·.jump s.machine.pc)) = _
    rw [perform_attempt, Machine.jump_of_isEntry _ hentry]
  rw [perform_cycle, hpoll, hpolled]
  dsimp only
  rw [perform_step, hcurrent]
  dsimp only
  rw [Journal.note_of_limit_eq_none hjournal]
  change s.perform (execute (.jump s.machine.pc) now) = _
  rw [perform_execute, hjump]
  rfl

end Interpreter

namespace Scheduler

open Clock

variable {C D K S G : Type} [Clock C] [Display D] [Keyboard K] [Speaker S] [Entropy G]

/-- It is `now` for as long as nothing but readings and cycles happen: the clock stands still, the
cycles take no time, and they leave the interpreter as it was. -/
structure Standing (now : Nat) (s : Scheduler C D K S G) : Prop where
  read_eq : Clock.read s.clock = (now, s.clock)
  elapse_eq : Clock.elapse s.clock 0 = s.clock
  cycle_eq : s.engine.interpreter.perform (Interpreter.cycle now) = (.ok (), s.engine.interpreter)
  period_eq : s.engine.pacer.period = 0
  dueAt_eq : s.engine.pacer.dueAt now = now

namespace Standing

variable {now : Nat} {s : Scheduler C D K S G}

theorem reading_eq (h : s.Standing now) : s.reading = now := congrArg Prod.fst h.read_eq

theorem clockAfter_eq (h : s.Standing now) : s.clockAfter 0 = s.clock := by
  rw [clockAfter, h.read_eq]
  exact h.elapse_eq

theorem not_drops (h : s.Standing now) : ¬ s.engine.pacer.drops now := by
  rw [Pacer.drops, Pacer.lag, h.dueAt_eq, Nat.sub_self]
  simp

theorem deadline_eq (h : s.Standing now) : s.deadline = now := by
  rw [deadline, h.reading_eq, Pacer.deadline, Pacer.anchor, if_neg h.not_drops, h.dueAt_eq,
    h.period_eq, Nat.add_zero]

theorem cycled_eq (h : s.Standing now) : s.cycled = (.ok (), s.engine.interpreter) := by
  rw [cycled, h.reading_eq, Engine.noteLag, if_neg h.not_drops, h.cycle_eq]

theorem beat_eq (h : s.Standing now) :
    s.engine.beat s.reading = (.ok now, { s.engine with
      pacer := { s.engine.pacer with due? := some now }, cycles := s.engine.cycles + 1 }) := by
  have hcycled : (s.engine.noteLag s.reading).perform (Interpreter.cycle s.reading) =
      (.ok (), s.engine.interpreter) := h.cycled_eq
  have hdeadline : s.engine.pacer.deadline s.reading = now := h.deadline_eq
  rw [Engine.beat, hcycled, hdeadline]

theorem waitUntil_eq (h : s.Standing now) (slack : Nat) :
    waitUntil 1 slack now s.clock = some (now, s.clock) := by
  rw [Clock.waitUntil_eq, readied, h.read_eq, if_neg (Nat.not_lt_of_le (Nat.le_add_right _ _)),
    spinUntil, h.read_eq]
  exact if_neg (Nat.lt_irrefl now)

/-- Only the schedule and the count of cycles change. -/
theorem tick (h : s.Standing now) : ∃ t, s.tick 1 = some (.ok now, t) ∧ t.Standing now := by
  let t : Scheduler C D K S G := { s with engine := { s.engine with
    pacer := { s.engine.pacer with due? := some now }, cycles := s.engine.cycles + 1 } }
  have hcost : s.cost t = 0 := Nat.sub_self _
  refine ⟨t, ?_, h.read_eq, h.elapse_eq, h.cycle_eq, h.period_eq, rfl⟩
  rw [tick_eq, h.cycled_eq, h.deadline_eq]
  dsimp only
  rw [hcost, h.clockAfter_eq, h.waitUntil_eq]
  rfl

end Standing

end Scheduler

end ChipEight
