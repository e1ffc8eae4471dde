import ChipEight.Proofs.Clock.Simulated
import ChipEight.Proofs.Scheduler.Window

/-!
# The rate of a scheduler

A cycle is never counted from a time that lies more than the permitted lag before it begins, and
never from a time before its due time.  So in any window of ticks the cycles that succeeded take
their periods, apart from as many as the scheduler may catch up, whatever stalls there were before
and between them.
-/

namespace ChipEight

namespace Pacer

theorem le_anchor_add_maxLag (p : Pacer) (now : Nat) : now ≤ p.anchor now + p.maxLag := by
  unfold anchor
  by_cases hdrops : p.drops now
  · rw [if_pos hdrops]
    exact Nat.le_add_right _ _
  · rw [if_neg hdrops]
    have hlag : ¬ p.maxLag < now - p.dueAt now := fun hlag ↦ hdrops (decide_eq_true hlag)
    omega

theorem dueAt_le_anchor (p : Pacer) (now : Nat) : p.dueAt now ≤ p.anchor now := by
  unfold anchor
  by_cases hdrops : p.drops now
  · rw [if_pos hdrops]
    have hlag : p.maxLag < now - p.dueAt now := of_decide_eq_true hdrops
    omega
  · exact Nat.le_of_eq (if_neg hdrops).symm

end Pacer

namespace Scheduler

open Clock TickRecord

variable {C D K S G : Type} [Clock C] [Display D] [Keyboard K] [Speaker S] [Entropy G]
variable {s t u : Scheduler C D K S G} {records : List TickRecord}

/-- What begins after some ticks is counted from no earlier than the beginning of the window and a
period for each cycle that has succeeded, less the permitted lag. -/
theorem Window.startOr_le_anchor (hsteady : Steady s.clock) (w : Window Later s records t) {c : C}
    (hc : Later t.clock c) :
    startOr records (Clock.read c).1 + (finishes records).length * s.engine.pacer.period ≤
      t.engine.pacer.anchor (Clock.read c).1 + s.engine.pacer.maxLag := by
  induction w generalizing c with
  | start =>
    calc
      _ = (Clock.read c).1 := by simp [startOr, finishes]
      _ ≤ _ := s.engine.pacer.le_anchor_add_maxLag _
  | pause interpreter clock _ hbetween ih =>
    apply ih
    exact hbetween.trans hc
  | @tick records t u limit result w htick ih =>
    have hread : Later (Clock.read t.clock).2 c := (tick_later htick).trans hc
    rw [startOr_snoc, finishes_snoc, List.length_append]
    cases result with
    | error f =>
      have hmono : startOr records t.reading ≤ startOr records (Clock.read c).1 := by
        apply startOr_mono
        exact hsteady t.clock c w.later hread
      rw [(tick_eq_some_error htick).1]
      exact Nat.le_trans (Nat.add_le_add_right hmono _) (ih (Later.refl.read.trans hread))
    | ok finish =>
      have hdue : t.deadline ≤ u.engine.pacer.anchor (Clock.read c).1 := by
        rw [(tick_eq_some_ok htick).1]
        exact Pacer.dueAt_le_anchor { t.engine.pacer with due? := some t.deadline } _
      have hperiod : t.engine.pacer.period = s.engine.pacer.period := by rw [w.pacer_eq]
      calc
        _ = startOr records t.reading + (finishes records).length * s.engine.pacer.period +
            s.engine.pacer.period := by
          rw [Nat.add_assoc, ← Nat.succ_mul]
          rfl
        _ ≤ t.engine.pacer.anchor t.reading + s.engine.pacer.maxLag + s.engine.pacer.period := by
          apply Nat.add_le_add_right
          exact ih .refl
        _ = t.deadline + s.engine.pacer.maxLag := by
          rw [deadline, Pacer.deadline, hperiod, Nat.add_right_comm]
        _ ≤ _ := Nat.add_le_add_right hdue _

/-- A window in which a cycle has succeeded has a last tick of this kind; after it there are only
failures. -/
theorem Window.exists_last {between : C → C → Prop} (w : Window between s records t) {last : Nat}
    (hlast : (finishes records).getLast? = some last) :
    ∃ (before : List TickRecord) (u v : Scheduler C D K S G) (limit : Nat),
      Window between s before u ∧ u.tick limit = some (.ok last, v) ∧
      finishes records = finishes before ++ [last] ∧
      records.head? = (before ++ [u.record v (.ok last)]).head? := by
  induction w with
  | start => contradiction
  | pause interpreter clock _ hbetween ih => exact ih hlast
  | @tick records t u limit result w htick ih =>
    rw [finishes_snoc] at hlast ⊢
    cases result with
    | error f =>
      have hsame : finishes records ++ (t.record u (.error f)).finish?.toList =
          finishes records := List.append_nil _
      rw [hsame] at hlast ⊢
      obtain ⟨before, v, v', limit', hbefore, hv, hfinishes, hhead⟩ := ih hlast
      refine ⟨before, v, v', limit', hbefore, hv, hfinishes, ?_⟩
      cases records with
      | nil => contradiction
      | cons r rest => exact hhead
    | ok finish =>
      have hfinish : finish = last := by
        rw [List.getLast?_append] at hlast
        exact Option.some.inj hlast
      subst hfinish
      exact ⟨records, t, u, limit, w, htick, rfl, rfl⟩

/-- However long a scheduler was stalled, in any window of ticks the periods of the cycles that
succeeded, less as many as it may catch up, fit between the first reading of the window and the one
that ended the wait of the last of these cycles. -/
theorem Window.rate_bound {o : Options} {interpreter : Interpreter D K S G} {clock : C}
    {earlier : List TickRecord} (hsteady : Steady clock)
    (hearlier : Window Later (fresh o interpreter clock) earlier s) (w : Window Later s records t)
    {first : TickRecord} (hfirst : records.head? = some first) {last : Nat}
    (hlast : (finishes records).getLast? = some last) :
    (((finishes records).length : Int) - o.catchUpLimit.toNat) * o.cpuPeriod ≤
      last - first.start := by
  obtain ⟨before, u, v, limit, hbefore, htick, hfinishes, hhead⟩ := w.exists_last hlast
  have hperiod : s.engine.pacer.period = o.cpuPeriod := by
    rw [hearlier.pacer_eq]
    rfl
  have hmaxLag : s.engine.pacer.maxLag = o.cpuPeriod * o.catchUpLimit.toNat := by
    rw [hearlier.pacer_eq]
    rfl
  have hstart : startOr before u.reading = first.start := by
    calc
      _ = startOr (before ++ [u.record v (.ok last)]) 0 := (startOr_snoc before _ 0).symm
      _ = first.start := by
        rw [startOr, ← hhead, hfirst]
        rfl
  have hanchor : startOr before u.reading + (finishes before).length * s.engine.pacer.period ≤
      u.engine.pacer.anchor u.reading + s.engine.pacer.maxLag :=
    hbefore.startOr_le_anchor (hsteady.later hearlier.later) .refl
  have hreached : u.engine.pacer.anchor u.reading + s.engine.pacer.period ≤ last := by
    have hsame : u.engine.pacer.period = s.engine.pacer.period := by rw [hbefore.pacer_eq]
    rw [← hsame]
    exact (waitUntil_eq_some (tick_eq_some_ok htick).2).1
  rw [hstart, hperiod, hmaxLag] at hanchor
  rw [hperiod] at hreached
  rw [hfinishes, List.length_append, List.length_singleton, Int.sub_mul,
    Int.mul_comm (o.catchUpLimit.toNat : Int), Int.natCast_add, Int.add_mul]
  omega

set_option maxRecDepth 20000 in
/-- Of two cycles with a stall of a second between them, one counts. -/
theorem Window.rate_bound_stalled :
    ∃ (records : List TickRecord)
      (s t : Scheduler SimulatedClock (Delayed Frame) KeyScript Mute StdGen),
      s = idling { spinSlack := 0, catchUpLimit := 1 } [] ∧
      Steady s.clock ∧ Window Later s [] s ∧ Window Later s records t ∧
      records.head?.map (·.start) = some 0 ∧ finishes records = [1953125, 1003906250] ∧
      ((2 : Int) - 1) * 1953125 ≤ 1003906250 - 0 := by
  obtain ⟨t, u, hfirst, hsecond⟩ : ∃ t u,
      (idling { spinSlack := 0, catchUpLimit := 1 } []).tick 1 = some (.ok 1953125, t) ∧
      Scheduler.tick 1 { t with clock := elapse t.clock second } = some (.ok 1003906250, u) :=
    ⟨_, _, rfl, rfl⟩
  have hsteady := SimulatedClock.isSteady (idling { spinSlack := 0, catchUpLimit := 1 } []).clock
  have hstalled := (Window.start.tick hfirst).pause t.engine.interpreter _
    (Later.refl.elapse second)
  have w := hstalled.tick hsecond
  exact ⟨_, _, u, rfl, hsteady, .start, w, rfl, rfl, Window.rate_bound hsteady .start w rfl rfl⟩

end Scheduler

end ChipEight
