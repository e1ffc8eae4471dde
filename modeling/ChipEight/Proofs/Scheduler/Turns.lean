import ChipEight.Proofs.Clock.Simulated
import ChipEight.Proofs.Interpreter.Untimed
import ChipEight.Proofs.Scheduler.Window

/-!
# Turns

A turn is what a tick shows of the machine and nothing else: the instruction it has executed and its
outcome.  Schedulers of different rates on different clocks, whose interpreters differ in time, take
the same turns as long as none of them reads the delay timer, and leave the same machine and display
after each.  Neither the rates nor the clocks nor the timers are seen in any other way.
-/

namespace ChipEight

structure Turn where
  /-- The instruction that was executed, unless the tick failed before. -/
  executed? : Option Instruction
  outcome : Except Failure Unit

namespace Scheduler

open Clock Interpreter

/-! ## Runs of ticks -/

section Runs

variable {C D K S G : Type} {s t u : Scheduler C D K S G} {turns : List Turn}
variable {hands : Nat → K → K}

/-- What is done to the keyboard from outside. -/
def handled (s : Scheduler C D K S G) (hand : K → K) : Scheduler C D K S G :=
  { s with engine := { s.engine with interpreter := s.engine.interpreter.handled hand } }

variable [Clock C] [Display D] [Keyboard K] [Speaker S] [Entropy G]

def turn (s : Scheduler C D K S G) (result : Except Failure Nat) : Turn where
  executed? := s.engine.interpreter.executed?
  outcome := result.map fun _ ↦ ()

/-- Ticks in a row, before each of which something may be done to the keyboard.  A tick that fails
does not end the run. -/
inductive Turns (hands : Nat → K → K) (s : Scheduler C D K S G) :
    List Turn → Scheduler C D K S G → Prop where
  | start : Turns hands s [] s
  | tick {turns : List Turn} {t u : Scheduler C D K S G} {limit : Nat}
      {result : Except Failure Nat} :
      Turns hands s turns t →
      (t.handled (hands turns.length)).tick limit = some (result, u) →
      Turns hands s (turns ++ [(t.handled (hands turns.length)).turn result]) u

theorem exists_tick_eq_some (h : Ends s.clock) :
    ∃ limit result t, s.tick limit = some (result, t) := by
  rcases hcycled : s.cycled with ⟨f | _, interpreter⟩
  · exact ⟨0, .error f, _, by rw [tick_eq, hcycled]⟩
  · let t := { s with engine := { s.engine with interpreter } }
    obtain ⟨limit, wait, hwait⟩ :=
      h _ (s.clockAfter_later (s.cost t)) s.engine.pacer.slack s.deadline
    have hsome : (s.tick limit).isSome := by
      rw [tick_eq, hcycled]
      dsimp only
      rw [Option.isSome_map]
      exact Option.isSome_of_eq_some hwait
    obtain ⟨⟨result, u⟩, htick⟩ := Option.isSome_iff_exists.mp hsome
    exact ⟨limit, result, u, htick⟩

theorem Turns.later (w : Turns hands s turns t) : Later s.clock t.clock := by
  induction w with
  | start => exact .refl
  | tick _ htick ih =>
    have hlater := tick_later htick
    exact ih.trans (Later.refl.read.trans hlater)

/-- There are runs of any length if all waits end. -/
theorem exists_turns (h : Ends s.clock) (hands : Nat → K → K) (n : Nat) :
    ∃ turns t, Turns hands s turns t ∧ turns.length = n := by
  induction n with
  | zero => exact ⟨[], s, .start, rfl⟩
  | succ n ih =>
    obtain ⟨turns, t, w, hlength⟩ := ih
    have hends : Ends (t.handled (hands turns.length)).clock := h.later w.later
    obtain ⟨limit, result, u, htick⟩ := exists_tick_eq_some hends
    refine ⟨_, u, w.tick htick, ?_⟩
    rw [List.length_append, hlength]
    rfl

end Runs

/-! ## Runs that differ in time -/

variable {C₁ C₂ D K₁ K₂ S₁ S₂ G₁ G₂ : Type}
variable [Keyboard K₁] [Keyboard K₂] [Entropy G₁] [Entropy G₂]

/-- Whatever is done to the keyboards, they go on to give the same answers. -/
def HandledAlike (hands₁ : Nat → K₁ → K₁) (hands₂ : Nat → K₂ → K₂) : Prop :=
  ∀ n k₁ k₂, Keyboard.SameAnswers k₁ k₂ → Keyboard.SameAnswers (hands₁ n k₁) (hands₂ n k₂)

theorem noteLag_equalButTime {e₁ : Engine D K₁ S₁ G₁} {e₂ : Engine D K₂ S₂ G₂}
    (h : EqualButTime e₁.interpreter e₂.interpreter) (now₁ now₂ : Nat) :
    EqualButTime (e₁.noteLag now₁) (e₂.noteLag now₂) := by
  obtain ⟨journal₁, h₁⟩ := e₁.exists_noteLag_eq now₁
  obtain ⟨journal₂, h₂⟩ := e₂.exists_noteLag_eq now₂
  rw [h₁, h₂]
  exact { h with }

variable [Clock C₁] [Clock C₂] [Display D] [Speaker S₁] [Speaker S₂]
variable {s₁ t₁ : Scheduler C₁ D K₁ S₁ G₁} {s₂ t₂ : Scheduler C₂ D K₂ S₂ G₂}
variable {hands₁ : Nat → K₁ → K₁} {hands₂ : Nat → K₂ → K₂} {turns₁ turns₂ : List Turn}

theorem cycled_alike (h : EqualButTime s₁.engine.interpreter s₂.engine.interpreter)
    (hread : ∀ x, s₁.engine.interpreter.executed? ≠ some (.readDelay x)) :
    Alike EqualButTime s₁.cycled s₂.cycled := by
  apply (equalButTime_lockstep _ _).cycle (noteLag_equalButTime h _ _)
  intro x hx
  obtain ⟨journal, hjournal⟩ := s₁.engine.exists_noteLag_eq s₁.reading
  rw [hjournal] at hx
  exact absurd hx (hread x)

/-- One tick of each. -/
theorem turn_eq_of_tick (h : EqualButTime s₁.engine.interpreter s₂.engine.interpreter)
    {limit₁ limit₂ : Nat} {result₁ result₂ : Except Failure Nat}
    (hread : ∀ x, (s₁.turn result₁).executed? ≠ some (.readDelay x))
    (htick₁ : s₁.tick limit₁ = some (result₁, t₁)) (htick₂ : s₂.tick limit₂ = some (result₂, t₂)) :
    s₂.turn result₂ = s₁.turn result₁ ∧
      EqualButTime t₁.engine.interpreter t₂.engine.interpreter := by
  have hexecuted : s₂.engine.interpreter.executed? = s₁.engine.interpreter.executed? :=
    (equalButTime_lockstep 0 0).executed?_eq h
  obtain ⟨houtcome, hequal⟩ := cycled_alike h hread
  rw [cycled_eq_of_tick htick₁, cycled_eq_of_tick htick₂] at houtcome hequal
  dsimp only at houtcome
  refine ⟨?_, hequal⟩
  calc
    _ = ⟨s₂.engine.interpreter.executed?, result₂.map fun _ ↦ ()⟩ := rfl
    _ = s₁.turn result₁ := by rw [hexecuted, houtcome, turn]

/-- Runs of the same length take the same turns. -/
theorem Turns.eq_of_equalButTime (hhands : HandledAlike hands₁ hands₂)
    (h : EqualButTime s₁.engine.interpreter s₂.engine.interpreter)
    (w₁ : Turns hands₁ s₁ turns₁ t₁) (w₂ : Turns hands₂ s₂ turns₂ t₂)
    (hlength : turns₁.length = turns₂.length)
    (hread : ∀ turn ∈ turns₁, ∀ x, turn.executed? ≠ some (.readDelay x)) :
    turns₂ = turns₁ ∧ EqualButTime t₁.engine.interpreter t₂.engine.interpreter := by
  induction w₁ generalizing turns₂ t₂ with
  | start =>
    cases w₂ with
    | start => exact ⟨rfl, h⟩
    | tick w₂ htick₂ => simp at hlength
  | @tick before₁ r₁ u₁ limit₁ result₁ w₁ htick₁ ih =>
    cases w₂ with
    | start => simp at hlength
    | @tick before₂ r₂ _ limit₂ result₂ w₂ htick₂ =>
      have hbefore : before₁.length = before₂.length := by simpa using hlength
      obtain ⟨rfl, hequal⟩ := ih w₂ hbefore fun turn hturn ↦
        hread turn (List.mem_append_left _ hturn)
      have hhandled := hequal.handled (hhands before₂.length)
      obtain ⟨hturn, hrest⟩ := turn_eq_of_tick hhandled (hread _ (by simp)) htick₁ htick₂
      exact ⟨by rw [hturn], hrest⟩

/-- The time reaches the machine only through the delay timer, and only when it is read.  Schedulers
with any rates, timers and clocks, as long as their waits end, have runs of every length, and until
one reads its delay timer the runs have the same outcomes and lead to the same machine and display.
As for the sound timer, two interpreters that differ in it differ in nothing else after any cycles
at the same times. -/
theorem time_only_through_readDelay :
    (∀ (s₁ : Scheduler C₁ D K₁ S₁ G₁) (s₂ : Scheduler C₂ D K₂ S₂ G₂) (hands₁ : Nat → K₁ → K₁)
        (hands₂ : Nat → K₂ → K₂), Ends s₁.clock → Ends s₂.clock → HandledAlike hands₁ hands₂ →
      EqualButTime s₁.engine.interpreter s₂.engine.interpreter →
      (∀ n, ∃ turns₁ t₁ turns₂ t₂, Turns hands₁ s₁ turns₁ t₁ ∧ turns₁.length = n ∧
        Turns hands₂ s₂ turns₂ t₂ ∧ turns₂.length = n) ∧
      ∀ turns₁ t₁ turns₂ t₂, Turns hands₁ s₁ turns₁ t₁ → Turns hands₂ s₂ turns₂ t₂ →
        turns₁.length = turns₂.length →
        (∀ turn ∈ turns₁, ∀ x, turn.executed? ≠ some (.readDelay x)) →
        turns₂ = turns₁ ∧ t₂.engine.interpreter.machine = t₁.engine.interpreter.machine ∧
          t₂.engine.interpreter.display = t₁.engine.interpreter.display) ∧
    ∀ (s : Interpreter D K₁ S₁ G₁) (sound : Countdown) (hands : Nat → K₁ → K₁) (times : Nat → Nat),
      sound.period = s.sound.period → ∀ n, ∃ sound',
        Interpreter.cycles hands times { s with sound } n =
          ((s.cycles hands times n).1, { (s.cycles hands times n).2 with sound := sound' }) := by
  constructor
  · intro s₁ s₂ hands₁ hands₂ hends₁ hends₂ hhands h
    constructor
    · intro n
      obtain ⟨turns₁, t₁, w₁, hlength₁⟩ := exists_turns hends₁ hands₁ n
      obtain ⟨turns₂, t₂, w₂, hlength₂⟩ := exists_turns hends₂ hands₂ n
      exact ⟨turns₁, t₁, turns₂, t₂, w₁, hlength₁, w₂, hlength₂⟩
    · intro turns₁ t₁ turns₂ t₂ w₁ w₂ hlength hread
      obtain ⟨hturns, hequal⟩ := w₁.eq_of_equalButTime hhands h w₂ hlength hread
      exact ⟨hturns, hequal.machine, hequal.display⟩
  · intro s sound hands times hperiod n
    have hstart : EqualButSound s { s with sound } := ⟨sound, hperiod, rfl⟩
    obtain ⟨houtcomes, sound', -, hrest⟩ := hstart.cycles hands times n
    exact ⟨sound', Prod.ext houtcomes hrest⟩

/-- A scheduler for examples: its program waits for a key, which takes the given time, and sounds
for as long as the key says. -/
def signalling (o : Options) (delay : Nat) :
    Scheduler SimulatedClock Frame KeyScript Mute StdGen :=
  fresh o { ofOptions o {} { answers := [(3, delay)] } {} ⟨1, 1⟩ with
    machine := Machine.initial.poke 0x200 [0xF0, 0x0A, 0xF0, 0x18] } { spinStep := 1 }

def quick : Scheduler SimulatedClock Frame KeyScript Mute StdGen :=
  signalling { spinSlack := 0 } 0

def slow : Scheduler SimulatedClock Frame KeyScript Mute StdGen :=
  signalling { cpuRate := 1, timerRate := 1, spinSlack := 2, catchUpLimit := 0 } 5000

set_option maxRecDepth 20000 in
/-- At lower rates, and after a longer wait for the key, the same two turns are taken. -/
theorem time_only_through_readDelay_slow :
    Ends quick.clock ∧ Ends slow.clock ∧
      EqualButTime quick.engine.interpreter slow.engine.interpreter ∧
      ∃ turns₁ t₁ turns₂ t₂, Turns (fun _ k ↦ k) quick turns₁ t₁ ∧
        Turns (fun _ k ↦ k) slow turns₂ t₂ ∧ turns₁.length = 2 ∧ turns₂ = turns₁ ∧
        t₂.engine.interpreter.machine = t₁.engine.interpreter.machine ∧
        t₁.clock.time = 3906250 ∧ t₂.clock.time = 2000000000 := by
  have hends₁ : Ends quick.clock := (SimulatedClock.isExact rfl rfl rfl).ends
  have hends₂ : Ends slow.clock := (SimulatedClock.isExact rfl rfl rfl).ends
  have hequal : EqualButTime quick.engine.interpreter slow.engine.interpreter :=
    ⟨rfl, rfl, KeyScript.sameAnswers rfl rfl, fun _ ↦ rfl⟩
  obtain ⟨t₁, u₁, hfirst₁, hsecond₁, hawait, hset, htime₁⟩ : ∃ t u,
      quick.tick 1 = some (.ok 1953125, t) ∧ t.tick 1 = some (.ok 3906250, u) ∧
      quick.engine.interpreter.executed? = some (.awaitKey Register.zero) ∧
      t.engine.interpreter.executed? = some (.setSound Register.zero) ∧
      u.clock.time = 3906250 :=
    ⟨_, _, rfl, rfl, rfl, rfl, rfl⟩
  obtain ⟨t₂, u₂, hfirst₂, hsecond₂, htime₂⟩ : ∃ t u,
      slow.tick 3 = some (.ok 1000000000, t) ∧ t.tick 3 = some (.ok 2000000000, u) ∧
      u.clock.time = 2000000000 :=
    ⟨_, _, rfl, rfl, rfl⟩
  have w₁ : Turns (fun _ k ↦ k) quick _ u₁ := (Turns.start.tick hfirst₁).tick hsecond₁
  have w₂ : Turns (fun _ k ↦ k) slow _ u₂ := (Turns.start.tick hfirst₂).tick hsecond₂
  have hread : ∀ turn ∈ [quick.turn (.ok 1953125), t₁.turn (.ok 3906250)], ∀ x,
      turn.executed? ≠ some (.readDelay x) := by
    intro turn hturn x
    simp only [List.mem_cons, List.not_mem_nil, or_false] at hturn
    rcases hturn with rfl | rfl
    · simp [Scheduler.turn, hawait]
    · simp [Scheduler.turn, hset]
  obtain ⟨hturns, hmachine, -⟩ := (time_only_through_readDelay.1 quick slow (fun _ k ↦ k)
    (fun _ k ↦ k) hends₁ hends₂ (fun _ _ _ h ↦ h) hequal).2 _ _ _ _ w₁ w₂ rfl hread
  exact ⟨hends₁, hends₂, hequal, _, u₁, _, u₂, w₁, w₂, rfl, hturns, hmachine, htime₁, htime₂⟩

end Scheduler

end ChipEight
