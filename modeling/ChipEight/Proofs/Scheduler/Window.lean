import ChipEight.Display
import ChipEight.Keyboard
import ChipEight.Proofs.Clock.Later
import ChipEight.Scheduler

/-!
# Windows of ticks

A window is a sequence of ticks in a row, between which the interpreter may be changed from outside
and the clock may move on in given ways.  Each tick leaves a record of what was seen of it.  Failed
ticks are recorded too: they leave the schedule as it was.
-/

namespace ChipEight

/-- What is seen of a tick. -/
structure TickRecord where
  /-- The reading with which the tick began. -/
  start : Nat
  /-- By how much the tick began after its due time. -/
  lag : Nat
  /-- How long the devices have taken. -/
  cost : Nat
  /-- The reading that ended the wait, unless the cycle failed. -/
  finish? : Option Nat

/-- The readings that ended the waits, in order; there is one for each tick that succeeded. -/
def TickRecord.finishes (records : List TickRecord) : List Nat := records.filterMap (·.finish?)

theorem TickRecord.finishes_snoc (records : List TickRecord) (r : TickRecord) :
    finishes (records ++ [r]) = finishes records ++ r.finish?.toList := by
  simp only [finishes, List.filterMap_append]
  cases h : r.finish? <;> simp [h]

/-- When the first of the ticks began; `now` if there is none. -/
def TickRecord.startOr (records : List TickRecord) (now : Nat) : Nat :=
  (records.head?.map (·.start)).getD now

theorem TickRecord.startOr_snoc (records : List TickRecord) (r : TickRecord) (now : Nat) :
    startOr (records ++ [r]) now = startOr records r.start := by
  cases records <;> rfl

theorem TickRecord.startOr_mono (records : List TickRecord) {now later : Nat} (h : now ≤ later) :
    startOr records now ≤ startOr records later := by
  cases records with
  | nil => exact h
  | cons r rest => exact Nat.le_refl _

/-- Telling of a dropped schedule changes the journal at most. -/
theorem Engine.exists_noteLag_eq {D K S G : Type} (e : Engine D K S G) (now : Nat) :
    ∃ journal, e.noteLag now = { e.interpreter with journal } := by
  unfold noteLag
  split
  · exact ⟨_, rfl⟩
  · exact ⟨e.interpreter.journal, rfl⟩

namespace Scheduler

open Clock

variable {C D K S G : Type} [Clock C] {s t u : Scheduler C D K S G} {records : List TickRecord}

/-- A scheduler that has not ticked yet. -/
def fresh (o : Options) (interpreter : Interpreter D K S G) (clock : C) : Scheduler C D K S G where
  engine := { interpreter, pacer := Pacer.ofOptions o }
  clock := clock

/-- The reading with which the next tick begins. -/
def reading (s : Scheduler C D K S G) : Nat := (Clock.read s.clock).1

/-- When the wait of the next tick ends, if its cycle succeeds. -/
def deadline (s : Scheduler C D K S G) : Nat := s.engine.pacer.deadline s.reading

/-- The clock at the end of a cycle whose devices have taken some time. -/
def clockAfter (s : Scheduler C D K S G) (cost : Nat) : C :=
  Clock.elapse (Clock.read s.clock).2 cost

/-- How long the devices have taken between two states. -/
def cost (s t : Scheduler C D K S G) : Nat :=
  t.engine.interpreter.waited - s.engine.interpreter.waited

def record (s t : Scheduler C D K S G) (result : Except Failure Nat) : TickRecord where
  start := s.reading
  lag := s.engine.pacer.lag s.reading
  cost := s.cost t
  finish? := result.toOption

theorem clockAfter_later (s : Scheduler C D K S G) (cost : Nat) :
    Later s.clock (s.clockAfter cost) := Later.refl.read.elapse cost

variable [Display D] [Keyboard K] [Speaker S] [Entropy G]

/-- Outcome and interpreter of the cycle that the next tick runs. -/
def cycled (s : Scheduler C D K S G) : Except Failure Unit × Interpreter D K S G :=
  (s.engine.noteLag s.reading).perform (Interpreter.cycle s.reading)

theorem tick_eq (limit : Nat) (s : Scheduler C D K S G) :
    s.tick limit =
      match s.cycled with
      | (.error f, interpreter) =>
        let t := { s with engine := { s.engine with interpreter } }
        some (.error f, { t with clock := s.clockAfter (s.cost t) })
      | (.ok (), interpreter) =>
        let pacer := { s.engine.pacer with due? := some s.deadline }
        let t := { s with engine := { interpreter, pacer, cycles := s.engine.cycles + 1 } }
        (waitUntil limit s.engine.pacer.slack s.deadline (s.clockAfter (s.cost t))).map
          fun wait ↦ (.ok wait.1, { t with clock := wait.2 }) := by
  unfold tick Engine.beat
  have hcycled : (s.engine.noteLag (Clock.read s.clock).1).perform
      (Interpreter.cycle (Clock.read s.clock).1) = s.cycled := rfl
  dsimp only
  rw [hcycled]
  rcases s.cycled with ⟨_ | _, interpreter⟩ <;> rfl

/-- A tick has the outcome of its cycle and leaves the interpreter as the cycle does. -/
theorem cycled_eq_of_tick {limit : Nat} {result : Except Failure Nat}
    (h : s.tick limit = some (result, t)) :
    s.cycled = (result.map fun _ ↦ (), t.engine.interpreter) := by
  rw [tick_eq] at h
  rcases hcycled : s.cycled with ⟨_ | _, interpreter⟩
  · rw [hcycled] at h
    cases h
    rfl
  · rw [hcycled] at h
    obtain ⟨wait, -, hwait⟩ := Option.map_eq_some_iff.mp h
    cases hwait
    rfl

/-- A tick that fails keeps the schedule and does not wait. -/
theorem tick_eq_some_error {limit : Nat} {f : Failure}
    (h : s.tick limit = some (.error f, t)) :
    t.engine.pacer = s.engine.pacer ∧ t.clock = s.clockAfter (s.cost t) := by
  rw [tick_eq] at h
  rcases hcycled : s.cycled with ⟨_ | _, interpreter⟩
  · rw [hcycled] at h
    cases h
    exact ⟨rfl, rfl⟩
  · rw [hcycled] at h
    obtain ⟨wait, _, hwait⟩ := Option.map_eq_some_iff.mp h
    cases hwait

/-- A tick that succeeds has made the next one due at its deadline, and has waited for it. -/
theorem tick_eq_some_ok {limit finish : Nat}
    (h : s.tick limit = some (.ok finish, t)) :
    t.engine.pacer = { s.engine.pacer with due? := some s.deadline } ∧
      waitUntil limit s.engine.pacer.slack s.deadline (s.clockAfter (s.cost t)) =
        some (finish, t.clock) := by
  rw [tick_eq] at h
  rcases hcycled : s.cycled with ⟨_ | _, interpreter⟩
  · rw [hcycled] at h
    cases h
  · rw [hcycled] at h
    obtain ⟨⟨time, clock⟩, hwait, hresult⟩ := Option.map_eq_some_iff.mp h
    cases hresult
    exact ⟨rfl, hwait⟩

theorem tick_later {limit : Nat} {result : Except Failure Nat}
    (h : t.tick limit = some (result, u)) : Later (Clock.read t.clock).2 u.clock := by
  have hafter : Later (Clock.read t.clock).2 (t.clockAfter (t.cost u)) := Later.refl.elapse _
  cases result with
  | error f =>
    rw [(tick_eq_some_error h).2]
    exact hafter
  | ok finish => exact hafter.trans (waitUntil_eq_some (tick_eq_some_ok h).2).2

/-- Ticks in a row from `s` on, with what happens `between` them to the clock. -/
inductive Window (between : C → C → Prop) (s : Scheduler C D K S G) :
    List TickRecord → Scheduler C D K S G → Prop where
  | start : Window between s [] s
  | tick {records : List TickRecord} {t u : Scheduler C D K S G} {limit : Nat}
      {result : Except Failure Nat} :
      Window between s records t → t.tick limit = some (result, u) →
      Window between s (records ++ [t.record u result]) u
  | pause {records : List TickRecord} {t : Scheduler C D K S G}
      (interpreter : Interpreter D K S G) (clock : C) :
      Window between s records t → between t.clock clock →
      Window between s records { engine := { t.engine with interpreter }, clock }

theorem Window.mono {between between' : C → C → Prop} (h : ∀ c d, between c d → between' c d)
    (w : Window between s records t) : Window between' s records t := by
  induction w with
  | start => exact .start
  | tick _ htick ih => exact ih.tick htick
  | pause interpreter clock _ hbetween ih => exact ih.pause interpreter clock (h _ _ hbetween)

theorem Window.later (w : Window Later s records t) : Later s.clock t.clock := by
  induction w with
  | start => exact .refl
  | tick _ htick ih => exact ih.trans (Later.refl.read.trans (tick_later htick))
  | pause interpreter clock _ hbetween ih => exact ih.trans hbetween

/-- Only the due time of the next cycle changes. -/
theorem Window.pacer_eq {between : C → C → Prop} (w : Window between s records t) :
    t.engine.pacer = { s.engine.pacer with due? := t.engine.pacer.due? } := by
  induction w with
  | start => rfl
  | @tick records t u limit result _ htick ih =>
    cases result with
    | error f => rw [(tick_eq_some_error htick).1, ← ih]
    | ok finish => rw [(tick_eq_some_ok htick).1, ih]
  | pause interpreter clock _ _ ih => exact ih

/-- A scheduler for examples: it runs a program of zeroes, and its display takes the given times to
repaint. -/
def idling (o : Options) (delays : List Nat) :
    Scheduler SimulatedClock (Delayed Frame) KeyScript Mute StdGen :=
  fresh o (Interpreter.ofOptions o { inner := {}, delays } {} {} (mkStdGen 1)) { spinStep := 1 }

end Scheduler

end ChipEight
