import ChipEight.Proofs.Clock.Simulated
import ChipEight.Proofs.Clock.Watched
import ChipEight.Proofs.Scheduler.Turns

/-!
# Ticks in succession

A run of ticks goes on as long as they succeed, and stops at the first that fails.  The failed tick
is not counted, is not waited for and leaves the schedule alone, though its cycle has been begun.
So a run can be cut in two anywhere, and nothing tells, not even the record of a watched clock.
-/

namespace ChipEight

open Clock

/-- A longer limit does not change a wait that ends. -/
theorem Clock.waitUntil_limit_mono {C : Type} [Clock C] {limit larger slack deadline : Nat} {c : C}
    {result : Nat × C} (h : waitUntil limit slack deadline c = some result)
    (hle : limit ≤ larger) : waitUntil larger slack deadline c = some result := by
  rw [waitUntil_eq] at h ⊢
  exact spinUntil_limit_mono h hle

namespace Scheduler

variable {C D K S G : Type}

/-- The same scheduler, with a record of what is done with its clock from now on. -/
def watched (s : Scheduler C D K S G) : Scheduler (Watched C) D K S G where
  engine := s.engine
  clock := { clock := s.clock }

/-- The same scheduler without the record. -/
def unwatched (s : Scheduler (Watched C) D K S G) : Scheduler C D K S G where
  engine := s.engine
  clock := s.clock.clock

variable [Clock C] [Display D] [Keyboard K] [Speaker S] [Entropy G]
variable {s t u : Scheduler C D K S G} {limit : Nat}

/-! ## One tick -/

theorem tick_limit_mono {result : Except Failure Nat} (h : s.tick limit = some (result, t))
    {larger : Nat} (hle : limit ≤ larger) : s.tick larger = some (result, t) := by
  rw [tick_eq] at h ⊢
  rcases hcycled : s.cycled with ⟨f | _, interpreter⟩
  · rwa [hcycled] at h
  · rw [hcycled] at h
    obtain ⟨wait, hwait, hresult⟩ := Option.map_eq_some_iff.mp h
    exact Option.map_eq_some_iff.mpr ⟨wait, waitUntil_limit_mono hwait hle, hresult⟩

/-- A tick is counted if it succeeds. -/
theorem cycles_of_tick {result : Except Failure Nat} (h : s.tick limit = some (result, t)) :
    t.engine.cycles = s.engine.cycles + if result.toBool then 1 else 0 := by
  rw [tick_eq] at h
  rcases hcycled : s.cycled with ⟨f | _, interpreter⟩
  · rw [hcycled] at h
    cases h
    rfl
  · rw [hcycled] at h
    obtain ⟨wait, -, hwait⟩ := Option.map_eq_some_iff.mp h
    cases hwait
    rfl

/-- A tick takes the same course whether or not its clock is watched. -/
theorem tick_unwatched (limit : Nat) (s : Scheduler (Watched C) D K S G) :
    s.unwatched.tick limit = (s.tick limit).map fun r ↦ (r.1, r.2.unwatched) := by
  have hcycled : s.unwatched.cycled = s.cycled := rfl
  rw [tick_eq, tick_eq, hcycled]
  rcases s.cycled with ⟨f | _, interpreter⟩
  · rfl
  · let pacer := { s.engine.pacer with due? := some s.deadline }
    let t := { s with engine := { interpreter, pacer, cycles := s.engine.cycles + 1 } }
    have hwait := Watched.waitUntil_clock limit s.engine.pacer.slack s.deadline
      (s.clockAfter (s.cost t))
    calc
      _ = (waitUntil limit s.engine.pacer.slack s.deadline (s.clockAfter (s.cost t)).clock).map
          fun wait ↦ (Except.ok wait.1, { t.unwatched with clock := wait.2 }) := rfl
      _ = ((waitUntil limit s.engine.pacer.slack s.deadline (s.clockAfter (s.cost t))).map
          fun wait ↦ (Except.ok wait.1, { t with clock := wait.2 })).map
            fun r ↦ (r.1, r.2.unwatched) := by
        rw [hwait, Option.map_map, Option.map_map]
        rfl

/-- Of a watched clock, a tick that fails takes one reading and nothing else. -/
theorem tick_watched_of_error {f : Failure} (h : s.tick limit = some (.error f, t)) :
    s.watched.tick limit = some (.error f, {
      engine := t.engine
      clock := { clock := t.clock, reads := 1, sleeps := [], spins := 0 } }) := by
  have hwatched : s.watched.cycled = s.cycled := rfl
  rw [tick_eq] at h ⊢
  rw [hwatched]
  rcases hcycled : s.cycled with ⟨f | _, interpreter⟩
  · rw [hcycled] at h
    cases h
    rfl
  · rw [hcycled] at h
    obtain ⟨wait, -, hwait⟩ := Option.map_eq_some_iff.mp h
    cases hwait

/-! ## Ticks in a row -/

/-- Ticks in a row, all of which succeed. -/
inductive Succeeds (limit : Nat) : Nat → Scheduler C D K S G → Scheduler C D K S G → Prop where
  | none (s : Scheduler C D K S G) : Succeeds limit 0 s s
  | tick {n finish : Nat} {s t u : Scheduler C D K S G} :
      s.tick limit = some (.ok finish, t) → Succeeds limit n t u → Succeeds limit (n + 1) s u

namespace Succeeds

variable {n : Nat}

theorem cycles_eq (h : Succeeds limit n s t) : t.engine.cycles = s.engine.cycles + n := by
  induction h with
  | none s => rfl
  | tick htick _ ih =>
    rw [ih, cycles_of_tick htick]
    exact Nat.add_right_comm _ _ _

theorem limit_mono (h : Succeeds limit n s t) {larger : Nat} (hle : limit ≤ larger) :
    Succeeds larger n s t := by
  induction h with
  | none s => exact .none s
  | tick htick _ ih => exact .tick (tick_limit_mono htick hle) ih

theorem runFor_add (h : Succeeds limit n s t) (m : Nat) :
    s.runFor limit (n + m) = t.runFor limit m := by
  induction h with
  | none s => rw [Nat.zero_add]
  | tick htick _ ih =>
    rw [Nat.succ_add, runFor, htick]
    exact ih

theorem run_add (h : Succeeds limit n s t) (ticks : Nat) :
    s.run limit (n + ticks) = t.run limit ticks := by
  induction h with
  | none s => rw [Nat.zero_add]
  | tick htick _ ih =>
    rw [Nat.succ_add, run, htick]
    exact ih

end Succeeds

/-- After `k` ticks that succeed, the next one fails. -/
def FailsAfter (limit k : Nat) (s : Scheduler C D K S G) : Prop :=
  ∃ t f u, Succeeds limit k s t ∧ t.tick limit = some (.error f, u)

/-- Of the next `n` ticks all succeed, or there is a first one that fails; otherwise a wait has
exceeded the limit. -/
theorem succeeds_or_fails (limit n : Nat) (s : Scheduler C D K S G) :
    (∃ t, Succeeds limit n s t) ∨ (∃ k < n, FailsAfter limit k s) ∨ s.runFor limit n = none := by
  induction n generalizing s with
  | zero => exact .inl ⟨s, .none s⟩
  | succ n ih =>
    rw [runFor]
    rcases htick : s.tick limit with _ | ⟨f | finish, t⟩
    · exact .inr (.inr rfl)
    · exact .inr (.inl ⟨0, Nat.succ_pos n, s, f, t, .none s, htick⟩)
    · obtain ⟨u, hsucceeds⟩ | ⟨k, hk, v, f, u, hbefore, hfails⟩ | hnone := ih t
      · exact .inl ⟨u, .tick htick hsucceeds⟩
      · exact .inr (.inl ⟨k + 1, Nat.succ_lt_succ hk, v, f, u, .tick htick hbefore, hfails⟩)
      · exact .inr (.inr hnone)

/-- If all waits end, there is a limit that none of the next ticks exceeds. -/
theorem exists_limit_of_ends (h : Ends s.clock) (n : Nat) :
    ∃ limit, (∃ t, Succeeds limit n s t) ∨ ∃ k < n, FailsAfter limit k s := by
  induction n generalizing s with
  | zero => exact ⟨0, .inl ⟨s, .none s⟩⟩
  | succ n ih =>
    obtain ⟨limit, result, t, htick⟩ := exists_tick_eq_some h
    cases result with
    | error f => exact ⟨limit, .inr ⟨0, Nat.succ_pos n, s, f, t, .none s, htick⟩⟩
    | ok finish =>
      have hends : Ends t.clock := h.later (Later.refl.read.trans (tick_later htick))
      obtain ⟨limit', hrest⟩ := ih hends
      have htick' := tick_limit_mono htick (Nat.le_max_left limit limit')
      refine ⟨max limit limit', ?_⟩
      obtain ⟨u, hsucceeds⟩ | ⟨k, hk, v, f, u, hbefore, hfails⟩ := hrest
      · exact .inl ⟨u, .tick htick' (hsucceeds.limit_mono (Nat.le_max_right _ _))⟩
      · exact .inr ⟨k + 1, Nat.succ_lt_succ hk, v, f, u,
          .tick htick' (hbefore.limit_mono (Nat.le_max_right _ _)),
          tick_limit_mono hfails (Nat.le_max_right _ _)⟩

/-! ## Runs -/

/-- What is left of a run goes on with more ticks unless it has failed or still waits. -/
def thenFor (limit n : Nat) :
    Option (Except Failure Unit × Scheduler C D K S G) →
      Option (Except Failure Unit × Scheduler C D K S G)
  | some (.ok (), s) => s.runFor limit n
  | stopped => stopped

theorem runFor_add (limit a b : Nat) (s : Scheduler C D K S G) :
    s.runFor limit (a + b) = thenFor limit b (s.runFor limit a) := by
  induction a generalizing s with
  | zero => rw [Nat.zero_add, runFor, thenFor]
  | succ a ih =>
    rw [Nat.succ_add, runFor, runFor]
    rcases s.tick limit with _ | ⟨f | finish, t⟩
    · rfl
    · rfl
    · exact ih t

theorem runFor_unwatched (limit n : Nat) (s : Scheduler (Watched C) D K S G) :
    s.unwatched.runFor limit n = (s.runFor limit n).map fun r ↦ (r.1, r.2.unwatched) := by
  induction n generalizing s with
  | zero => rfl
  | succ n ih =>
    rw [runFor, runFor, tick_unwatched]
    rcases s.tick limit with _ | ⟨f | finish, t⟩
    · rfl
    · rfl
    · exact ih t

/-- A run of ticks that all succeed is those ticks and counts them.  If one fails, the run ends with
its failure: the ticks before it are counted and have set the schedule, and the failed tick has
read the clock once and has neither slept nor spun.  If waits end, there is no third case.  So a
run is its first part and, if that succeeds, its second part after it, and so is all that is done
with the clock. -/
theorem run_stops_at_failure (s : Scheduler C D K S G) :
    (∀ limit n t, Succeeds limit n s t →
      s.runFor limit n = some (.ok (), t) ∧ t.engine.cycles = s.engine.cycles + n) ∧
    (∀ limit n k t f u, k < n → Succeeds limit k s t → t.tick limit = some (.error f, u) →
      s.runFor limit n = some (.error f, u) ∧
      (∀ ticks, k < ticks → s.run limit ticks = some (f, u)) ∧
      u.engine.cycles = s.engine.cycles + k ∧ u.engine.pacer = t.engine.pacer ∧
      t.watched.tick limit = some (.error f, {
        engine := u.engine
        clock := { clock := u.clock, reads := 1, sleeps := [], spins := 0 } })) ∧
    (∀ limit n, (∃ t, Succeeds limit n s t) ∨ (∃ k < n, FailsAfter limit k s) ∨
      s.runFor limit n = none) ∧
    (Ends s.clock → ∀ n, ∃ limit, (∃ t, Succeeds limit n s t) ∨ ∃ k < n, FailsAfter limit k s) ∧
    (∀ limit n,
      s.runFor limit n = (s.watched.runFor limit n).map fun r ↦ (r.1, r.2.unwatched)) ∧
    ∀ limit a b, s.runFor limit (a + b) = thenFor limit b (s.runFor limit a) ∧
      s.watched.runFor limit (a + b) = thenFor limit b (s.watched.runFor limit a) := by
  refine ⟨?_, ?_, ?_, ?_, ?_, ?_⟩
  · intro limit n t hsucceeds
    exact ⟨hsucceeds.runFor_add 0, hsucceeds.cycles_eq⟩
  · intro limit n k t f u hk hbefore hfails
    refine ⟨?_, ?_, ?_, (tick_eq_some_error hfails).1, tick_watched_of_error hfails⟩
    · obtain ⟨m, rfl⟩ := Nat.exists_eq_add_of_lt hk
      rw [Nat.add_assoc, hbefore.runFor_add, runFor, hfails]
    · intro ticks hticks
      obtain ⟨m, rfl⟩ := Nat.exists_eq_add_of_lt hticks
      rw [Nat.add_assoc, hbefore.run_add, run, hfails]
    · rw [cycles_of_tick hfails, hbefore.cycles_eq]
      rfl
  · intro limit n
    exact succeeds_or_fails limit n s
  · intro hends n
    exact exists_limit_of_ends hends n
  · intro limit n
    exact runFor_unwatched limit n s.watched
  · intro limit a b
    exact ⟨runFor_add limit a b s, runFor_add limit a b s.watched⟩

/-- A scheduler for examples: the second instruction of its program is malformed. -/
def faltering : Scheduler SimulatedClock Frame KeyScript Mute StdGen :=
  fresh { spinSlack := 0 } { Interpreter.ofOptions {} {} {} {} ⟨1, 1⟩ with
    machine := Machine.initial.poke 0x200 [0x60, 0x07, 0xFF, 0xFF] } { spinStep := 1 }

set_option maxRecDepth 20000 in
/-- The first tick succeeds and the second fails. -/
theorem run_stops_at_failure_faltering :
    let f : Failure := ⟨.malformed (.ofNat 0xFFFF) (Address.wrapping 0x202), none⟩
    Ends faltering.clock ∧ ∃ t u, Succeeds 1 1 faltering t ∧ t.tick 1 = some (.error f, u) ∧
      faltering.runFor 1 1 = some (.ok (), t) ∧ faltering.runFor 1 5 = some (.error f, u) ∧
      faltering.run 1 7 = some (f, u) ∧ u.engine.cycles = 1 ∧
      u.engine.pacer.due? = some 1953125 ∧
      faltering.runFor 1 5 = thenFor 1 4 (faltering.runFor 1 1) := by
  intro f
  have hends : Ends faltering.clock := (SimulatedClock.isExact rfl rfl rfl).ends
  obtain ⟨t, u, hfirst, hsecond, hdue⟩ : ∃ t u,
      faltering.tick 1 = some (.ok 1953125, t) ∧ t.tick 1 = some (.error f, u) ∧
      t.engine.pacer.due? = some 1953125 := ⟨_, _, rfl, rfl, rfl⟩
  have hbefore : Succeeds 1 1 faltering t := .tick hfirst (.none t)
  obtain ⟨hsucceeds, hfails, -, -, -, hcut⟩ := run_stops_at_failure faltering
  obtain ⟨hrunFor, hrun, hcycles, hpacer, -⟩ := hfails 1 5 1 t f u (by decide) hbefore hsecond
  exact ⟨hends, t, u, hbefore, hsecond, (hsucceeds 1 1 t hbefore).1, hrunFor, hrun 7 (by decide),
    hcycles, hpacer ▸ hdue, (hcut 1 1 4).1⟩

end Scheduler

end ChipEight
