import ChipEight.Proofs.Countdown.Polled
import ChipEight.Proofs.Interpreter.Operation
import ChipEight.Proofs.Interpreter.Timers
import Mathlib.Data.List.GetD

/-!
# The sound timer and its tone

Setting the sound timer starts a tone that is to end when the timer runs out.  The speaker keeps the
end of the tone, and the timer counts down by being polled.  The two agree at the time of a poll, as
long as polls are not too far apart; a timer that is polled late outlasts the tone, and never the
other way round.
-/

namespace ChipEight

namespace Countdown

/-- What has been done with a timer since it was last set. -/
structure Setting where
  count : UInt8
  start : Nat
  /-- When the timer has been polled since, the first poll first. -/
  polls : List Nat := []

variable {setting : Setting} {period : Nat}

/-- When the timer was set, and then polled. -/
def Setting.times (setting : Setting) : List Nat := setting.start :: setting.polls

def Setting.time (setting : Setting) (i : Nat) : Nat := setting.times.getD i setting.start

theorem Setting.pollTimes_time (setting : Setting) :
    pollTimes setting.time setting.polls.length = setting.polls := by
  apply List.ext_getElem
  · rw [pollTimes, List.length_map, List.length_range]
  · intro i _ hi
    simp [pollTimes, time, times, hi]

theorem Setting.rel_time_succ {R : Nat → Nat → Prop} (h : setting.times.IsChain R) :
    ∀ i < setting.polls.length, R (setting.time i) (setting.time (i + 1)) := by
  intro i hi
  have hnext : i + 1 < setting.times.length := Nat.succ_lt_succ hi
  have hthis : i < setting.times.length := Nat.lt_of_succ_lt hnext
  have hrel := List.isChain_iff_getElem.mp h i hnext
  rw [time, time, List.getD_eq_getElem _ _ hthis, List.getD_eq_getElem _ _ hnext]
  exact hrel

/-- The timer runs on if it has taken fewer steps than it was set to. -/
theorem Setting.count_pos_iff (t : Countdown) (hpos : 0 < t.period) (setting : Setting) :
    0 < ((t.set setting.count setting.start).pollAll setting.polls).count ↔
      takenBy t.period setting.time setting.polls.length < setting.count.toNat := by
  have htaken := (taken_pollAll t hpos setting.count setting.time setting.polls.length).count_eq
  rw [setting.pollTimes_time] at htaken
  rw [UInt8.lt_iff_toNat_lt]
  change 0 < ((t.set setting.count (setting.time 0)).pollAll setting.polls).count.toNat ↔ _
  rw [htaken]
  omega

/-- The time is before the end of the count if fewer steps are due. -/
theorem lt_end_iff {times : Nat → Nat} {n : Nat} (hpos : 0 < period)
    (hmono : ∀ i < n, times i ≤ times (i + 1)) (full : Nat) :
    times n < times 0 + full * period ↔ dueBy period times n < full := by
  have hstart : times 0 ≤ times n := start_le hmono
  rw [dueBy, Nat.div_lt_iff_lt_mul hpos]
  omega

end Countdown

namespace Operation

variable {D K S G : Type}

/-- When the operation polls the timers. -/
def polls? : Operation D K → Option Nat
  | cycle now => some now
  | _ => none

variable [Display D]

/-- The instruction that the operation executes, unless it fails before, and when. -/
def executes? (s : Interpreter D K S G) : Operation D K → Option (Instruction × Nat)
  | execute i now => some (i, now)
  | step now => s.machine.current.toOption.map (·, now)
  | cycle now => s.executed?.map (·, now)
  | _ => none

/-- The count that the operation sets a timer to, and when. -/
def sets? (s : Interpreter D K S G) (which : Timer) (operation : Operation D K) :
    Option (UInt8 × Nat) :=
  (operation.executes? s).bind fun (i, now) ↦
    (i.sets? which).map fun x ↦ (s.machine.reg x, now)

end Operation

namespace Interpreter

open Command

variable {D K S G : Type}

/-! ## One operation -/

/-- The timers have been polled as the operation polls them, and the speaker has been left alone. -/
structure PolledBy (operation : Operation D K) (s t : Interpreter D K S G) : Prop where
  timer (which : Timer) : t.timer which = (s.timer which).pollAll operation.polls?.toList
  speaker : t.speaker = s.speaker

theorem PolledBy.of_same {operation : Operation D K} {s t : Interpreter D K S G}
    (hpolls : operation.polls? = none) (hdelay : t.delay = s.delay) (hsound : t.sound = s.sound)
    (hspeaker : t.speaker = s.speaker) : PolledBy operation s t where
  timer which := by
    rw [hpolls]
    cases which with
    | delay => exact hdelay
    | sound => exact hsound
  speaker := hspeaker

theorem polledBy_cycle [Display D] (s : Interpreter D K S G) (now : Nat) (journal : Journal) :
    PolledBy (.cycle now) s { s.polled now with journal } where
  timer which := by cases which <;> rfl
  speaker := rfl

theorem speakerAfter_eq [Speaker S] (s : Interpreter D K S G) (now : Nat) (i : Instruction) :
    s.speakerAfter now i =
      match i.sets? .sound with
      | some x => Speaker.tone s.speaker now ((s.machine.reg x).toNat * s.sound.period)
      | none => s.speaker := by
  cases i <;> rfl

variable [Display D] [Keyboard K] [Speaker S] [Entropy G]

/-- An operation polls the timers if it is a cycle.  Apart from that, the timers and the speaker may
be changed by its instruction only. -/
theorem command_polledBy (s : Interpreter D K S G) (operation : Operation D K) :
    match operation.executes? s with
    | some (i, now) => ∃ t, PolledBy operation s t ∧ t.machine = s.machine ∧
        (s.perform operation.command).2 = (t.perform (execute i now)).2
    | none => PolledBy operation s (s.perform operation.command).2 := by
  cases operation with
  | execute i now => exact ⟨s, .of_same rfl rfl rfl rfl, rfl, rfl⟩
  | step now =>
    simp only [Operation.executes?, Operation.command, perform_step]
    cases s.machine.current with
    | error fault => exact .of_same rfl rfl rfl rfl
    | ok i =>
      let journal := s.journal.note (.stepping s.machine.pc i)
      exact ⟨{ s with journal }, .of_same rfl rfl rfl rfl, rfl, rfl⟩
  | cycle now =>
    have hmachine : (s.polled now).machine = s.machine := rfl
    simp only [Operation.executes?, executed?, Operation.command, perform_cycle]
    cases (Display.poll s.display).1 with
    | error fault => exact s.polledBy_cycle now s.journal
    | ok =>
      simp only [perform_step, hmachine]
      cases s.machine.current with
      | error fault => exact s.polledBy_cycle now s.journal
      | ok i => exact ⟨_, s.polledBy_cycle now (s.journal.note (.stepping s.machine.pc i)), rfl, rfl⟩
  | load source =>
    simp only [Operation.executes?, Operation.command, perform_loadProgram]
    cases (Read.intake (Address.programRoom + 1) source).fault? with
    | some text => exact .of_same rfl rfl rfl rfl
    | none =>
      dsimp only
      cases s.machine.loadProgram (Read.intake (Address.programRoom + 1) source).bytes <;>
        exact .of_same rfl rfl rfl rfl
  | jump | advance | push | pop | storeRegisters | loadRegisters =>
    simp only [Operation.executes?, Operation.command, perform_attempt]
    split <;> exact .of_same rfl rfl rfl rfl
  | setRegister | setIndex | setMemory | setDisplay | setKeyboard => exact .of_same rfl rfl rfl rfl

/-- An operation sets a timer if its instruction does, and polls it otherwise if it is a cycle. -/
theorem timer_command (s : Interpreter D K S G) (operation : Operation D K) (which : Timer) :
    (s.perform operation.command).2.timer which =
      match operation.sets? s which with
      | some (count, now) => (s.timer which).set count now
      | none => (s.timer which).pollAll operation.polls?.toList := by
  have hcommand := s.command_polledBy operation
  rw [Operation.sets?]
  cases hexecutes : operation.executes? s with
  | none =>
    rw [hexecutes] at hcommand
    exact hcommand.timer which
  | some execution =>
    obtain ⟨i, now⟩ := execution
    rw [hexecutes] at hcommand
    obtain ⟨t, hpolled, hmachine, hcommand⟩ := hcommand
    rw [hcommand, timer_execute, timerAfter, hmachine, hpolled.timer]
    cases hsets : i.sets? which with
    | none => simp [hsets]
    | some x => simp [hsets, Countdown.set_pollAll]

/-- An operation that sets the sound timer starts a tone. -/
theorem speaker_command (s : Interpreter D K S G) (operation : Operation D K) :
    (s.perform operation.command).2.speaker =
      match operation.sets? s .sound with
      | some (count, now) => Speaker.tone s.speaker now (count.toNat * s.sound.period)
      | none => s.speaker := by
  have hcommand := s.command_polledBy operation
  rw [Operation.sets?]
  cases hexecutes : operation.executes? s with
  | none =>
    rw [hexecutes] at hcommand
    exact hcommand.speaker
  | some execution =>
    obtain ⟨i, now⟩ := execution
    rw [hexecutes] at hcommand
    obtain ⟨t, hpolled, hmachine, hcommand⟩ := hcommand
    have hperiod : t.sound.period = s.sound.period :=
      (congrArg Countdown.period (hpolled.timer .sound)).trans (Countdown.period_pollAll _ _)
    rw [hcommand, (execute_touchesOnly t i now).speaker, speakerAfter_eq, hmachine,
      hpolled.speaker, hperiod]
    cases hsets : i.sets? .sound with
    | none => simp [hsets]
    | some x => simp [hsets]

/-- Operations leave the period of a timer. -/
theorem period_timer_command (s : Interpreter D K S G) (operation : Operation D K)
    (which : Timer) :
    ((s.perform operation.command).2.timer which).period = (s.timer which).period := by
  rw [timer_command]
  split
  · rfl
  · exact Countdown.period_pollAll _ _

/-! ## Runs -/

/-- What has been done with a timer since it was last set, with one more operation. -/
def settingAfter (s : Interpreter D K S G) (which : Timer) (setting? : Option Countdown.Setting)
    (operation : Operation D K) : Option Countdown.Setting :=
  match operation.sets? s which with
  | some (count, start) => some { count, start }
  | none => setting?.map fun setting ↦
      { setting with polls := setting.polls ++ operation.polls?.toList }

/-- What has been done with a timer since the operations last set it, or else before them. -/
def lastSetting? (s : Interpreter D K S G) (which : Timer) (operations : List (Operation D K))
    (setting? : Option Countdown.Setting := none) : Option Countdown.Setting :=
  match operations with
  | [] => setting?
  | operation :: rest =>
    (s.perform operation.command).2.lastSetting? which rest (s.settingAfter which setting? operation)

theorem lastSetting?_concat (s : Interpreter D K S G) (which : Timer)
    (operations : List (Operation D K)) (last : Operation D K)
    (setting? : Option Countdown.Setting) :
    s.lastSetting? which (operations ++ [last]) setting? =
      (s.after operations).settingAfter which (s.lastSetting? which operations setting?) last := by
  induction operations generalizing s setting? with
  | nil => rfl
  | cons operation rest ih => exact ih _ _

/-- With a cycle, the timer was last set or polled at its time. -/
theorem time_of_lastSetting?_cycle {s : Interpreter D K S G} {which : Timer}
    {operations : List (Operation D K)} {now : Nat} {setting : Countdown.Setting}
    (h : s.lastSetting? which (operations ++ [.cycle now]) = some setting) :
    setting.time setting.polls.length = now := by
  rw [lastSetting?_concat, settingAfter] at h
  generalize hsets : (Operation.cycle now).sets? (s.after operations) which = sets? at h
  cases sets? with
  | none =>
    obtain ⟨earlier, -, rfl⟩ := Option.map_eq_some_iff.mp h
    simp [Countdown.Setting.time, Countdown.Setting.times, Operation.polls?]
  | some count =>
    cases h
    simp only [Operation.sets?, Operation.executes?, Option.bind_eq_some_iff,
      Option.map_eq_some_iff] at hsets
    obtain ⟨_, ⟨i, -, rfl⟩, x, -, rfl⟩ := hsets
    rfl

/-- The sound timer has been set and polled in this way, and the tone started that goes with it. -/
structure ToneStarted (setting : Countdown.Setting) (s : Interpreter D K ToneTimer G) : Prop where
  sound : s.sound = (s.sound.set setting.count setting.start).pollAll setting.polls
  speaker : s.speaker.soundsUntil = setting.start + setting.count.toNat * s.sound.period

/-- Setting the sound timer replaces what is left of the count and of the tone. -/
theorem command_replaces {s : Interpreter D K ToneTimer G} {operation : Operation D K}
    {count : UInt8} {start : Nat} (hsets : operation.sets? s .sound = some (count, start)) :
    (s.perform operation.command).2.sound = s.sound.set count start ∧
      (s.perform operation.command).2.speaker.soundsUntil =
        start + count.toNat * s.sound.period := by
  have hsound := s.timer_command operation .sound
  have hspeaker := s.speaker_command operation
  rw [hsets] at hsound hspeaker
  exact ⟨hsound, congrArg ToneTimer.soundsUntil hspeaker⟩

theorem command_toneStarted {s : Interpreter D K ToneTimer G} {setting? : Option Countdown.Setting}
    (h : ∀ setting ∈ setting?, ToneStarted setting s) (operation : Operation D K) :
    ∀ setting ∈ s.settingAfter .sound setting? operation,
      ToneStarted setting (s.perform operation.command).2 := by
  intro setting hsetting
  have hperiod : (s.perform operation.command).2.sound.period = s.sound.period :=
    s.period_timer_command operation .sound
  rw [settingAfter] at hsetting
  cases hsets : operation.sets? s .sound with
  | some set =>
    obtain ⟨hsound, hspeaker⟩ := command_replaces hsets
    rw [hsets] at hsetting
    cases hsetting
    refine ⟨?_, ?_⟩
    · rw [hsound]
      rfl
    · rw [hspeaker, hperiod]
  | none =>
    have hsound := s.timer_command operation .sound
    have hspeaker := s.speaker_command operation
    rw [hsets] at hsetting hsound hspeaker
    change (s.perform operation.command).2.sound = _ at hsound
    obtain ⟨earlier, hearlier, rfl⟩ := Option.map_eq_some_iff.mp hsetting
    have hstarted := h earlier hearlier
    refine ⟨?_, ?_⟩
    · have hset : (s.perform operation.command).2.sound.set earlier.count earlier.start =
          s.sound.set earlier.count earlier.start :=
        hsound ▸ Countdown.set_pollAll s.sound _ _ _
      rw [Countdown.pollAll, List.foldl_append, hset]
      exact hsound.trans (congrArg (Countdown.pollAll · _) hstarted.sound)
    · rw [hspeaker, hperiod]
      exact hstarted.speaker

theorem after_toneStarted {s : Interpreter D K ToneTimer G} {setting? : Option Countdown.Setting}
    (h : ∀ setting ∈ setting?, ToneStarted setting s) (operations : List (Operation D K)) :
    ∀ setting ∈ s.lastSetting? .sound operations setting?,
      ToneStarted setting (s.after operations) := by
  induction operations generalizing s setting? with
  | nil => exact h
  | cons operation rest ih => exact ih (command_toneStarted h operation)

theorem period_timer_after (s : Interpreter D K S G) (operations : List (Operation D K))
    (which : Timer) : ((s.after operations).timer which).period = (s.timer which).period := by
  induction operations generalizing s with
  | nil => rfl
  | cons operation rest ih => exact (ih _).trans (s.period_timer_command operation which)

/-- The sound timer was last set by some operation, and has been polled by the cycles since.  After
a cycle the timer runs if its tone still sounds, and if the polls are no further apart than a period
then only if it does.  To set the timer anew, if only to zero, is to replace its count and the tone
at once. -/
theorem sounds_iff_sound_timer_runs (s : Interpreter D K ToneTimer G) (hpos : 0 < s.sound.period)
    (operations : List (Operation D K)) (now : Nat) {setting : Countdown.Setting}
    (hsetting : s.lastSetting? .sound (operations ++ [.cycle now]) = some setting)
    (hmono : setting.times.IsChain (· ≤ ·)) :
    let t := s.after (operations ++ [.cycle now])
    (t.speaker.soundsAt now = true → 0 < t.sound.count) ∧
      (setting.times.IsChain (fun earlier later ↦ later ≤ earlier + s.sound.period) →
        (t.speaker.soundsAt now = true ↔ 0 < t.sound.count)) ∧
      ∀ (more : List (Operation D K)) (operation : Operation D K) (count : UInt8) (start : Nat),
        operation.sets? (t.after more) .sound = some (count, start) →
        let u := t.after (more ++ [operation])
        u.sound.count = count ∧ u.sound.due = start + s.sound.period ∧
          ∀ later, u.speaker.soundsAt later = true ↔
            later < start + count.toNat * s.sound.period := by
  intro t
  have hperiod : t.sound.period = s.sound.period := s.period_timer_after _ .sound
  have hstarted : ToneStarted setting t :=
    after_toneStarted (fun _ hnone ↦ absurd hnone (Option.not_mem_none _)) _ setting hsetting
  have hrising := Countdown.Setting.rel_time_succ hmono
  have hruns : 0 < t.sound.count ↔
      Countdown.takenBy s.sound.period setting.time setting.polls.length < setting.count.toNat := by
    rw [hstarted.sound, ← hperiod]
    exact Countdown.Setting.count_pos_iff t.sound (hperiod ▸ hpos) setting
  have hsounds : t.speaker.soundsAt now = true ↔
      Countdown.dueBy s.sound.period setting.time setting.polls.length < setting.count.toNat := by
    rw [ToneTimer.soundsAt, decide_eq_true_iff, hstarted.speaker, hperiod,
      ← time_of_lastSetting?_cycle hsetting]
    exact Countdown.lt_end_iff hpos hrising _
  rw [hruns, hsounds]
  refine ⟨fun hdue ↦ ?_, fun hgap ↦ ?_, fun more operation count start hsets ↦ ?_⟩
  · exact Nat.lt_of_le_of_lt (Countdown.takenBy_le_dueBy hrising) hdue
  · rw [Countdown.takenBy_eq_dueBy hpos hrising (Countdown.Setting.rel_time_succ hgap)]
  · intro u
    have hu : u = ((t.after more).perform operation.command).2 := List.foldl_concat _ _ _ _
    have hkept : (t.after more).sound.period = s.sound.period :=
      (t.period_timer_after more .sound).trans hperiod
    obtain ⟨hsound, hspeaker⟩ := command_replaces hsets
    rw [hkept, ← hu] at hspeaker
    rw [← hu, Countdown.set, hkept] at hsound
    refine ⟨?_, ?_, fun later ↦ ?_⟩
    · rw [hsound]
    · rw [hsound]
    · rw [ToneTimer.soundsAt, decide_eq_true_iff, hspeaker]

/-- An interpreter for examples: its program sets the sound timer, which has a period of ten, to two
and then idles. -/
def buzzing : Interpreter Frame KeyScript ToneTimer StdGen :=
  { ofOptions { timerRate := 100000000 } {} {} {} ⟨1, 1⟩ with
    machine := Machine.initial.poke 0x200 [0x60, 0x02, 0xF0, 0x18, 0x12, 0x04] }

set_option maxRecDepth 20000 in
/-- Just before its tone ends the timer still runs.  Set to zero, it stops with the tone. -/
theorem sounds_iff_sound_timer_runs_until_zero :
    let operations : List (Operation Frame KeyScript) := [.cycle 0, .cycle 5, .cycle 14]
    let setting : Countdown.Setting := { count := 2, start := 5, polls := [14, 24] }
    let silence : Operation Frame KeyScript := .execute (.setSound (Register.ofNat 1)) 24
    let t := buzzing.after (operations ++ [.cycle 24])
    let u := t.after [silence]
    0 < buzzing.sound.period ∧
      buzzing.lastSetting? .sound (operations ++ [.cycle 24]) = some setting ∧
      setting.times.IsChain (· ≤ ·) ∧
      setting.times.IsChain (fun earlier later ↦ later ≤ earlier + buzzing.sound.period) ∧
      silence.sets? t .sound = some (0, 24) ∧
      t.speaker.soundsAt 24 = true ∧ 0 < t.sound.count ∧
      u.speaker.soundsAt 24 = false ∧ u.sound.count = 0 := by
  intro operations setting silence t u
  have hpos : 0 < buzzing.sound.period := by decide
  have hsetting : buzzing.lastSetting? .sound (operations ++ [.cycle 24]) = some setting := rfl
  have hmono : setting.times.IsChain (· ≤ ·) := by decide
  have hgap : setting.times.IsChain fun earlier later ↦ later ≤ earlier + buzzing.sound.period := by
    decide
  have hzero : silence.sets? t .sound = some (0, 24) := rfl
  have hsounds : t.speaker.soundsAt 24 = true := rfl
  obtain ⟨-, hiff, hanew⟩ :=
    buzzing.sounds_iff_sound_timer_runs hpos operations 24 hsetting hmono
  obtain ⟨hcount, -, hsilent⟩ := hanew [] silence 0 24 hzero
  have hended : ¬ u.speaker.soundsAt 24 = true := mt (hsilent 24).mp (by decide)
  exact ⟨hpos, hsetting, hmono, hgap, hzero, hsounds, (hiff hgap).mp hsounds,
    Bool.eq_false_of_not_eq_true hended, hcount⟩

end Interpreter

end ChipEight
