import ChipEight.Display
import ChipEight.Keyboard
import ChipEight.Proofs.Interpreter.Footprint
import ChipEight.Proofs.Interpreter.Stability
import ChipEight.Proofs.Machine.Bounds

/-!
# What a failed instruction leaves behind

A fault in an instruction itself leaves everything as it was, except that a call may have pushed and
a return popped before their target was rejected.  A fault in moving on from the last entry comes
when all else is done: the instruction has had the effect that it has anywhere else.  A skip may run
off the end after its first move, and a cycle fails before its instruction if the display does.
-/

namespace ChipEight

instance (a : Address) : Decidable a.IsEntry :=
  decidable_of_iff (a.val % 2 = 0 ∧ 0x200 ≤ a.val ∧ a.val ≤ 0xFFE)
    ⟨fun h ↦ ⟨h.1, h.2.1, h.2.2⟩, fun h ↦ ⟨h.even, h.ge, h.le⟩⟩

/-- The failure of moving on from the last entry. -/
def Failure.ranOff : Failure := ⟨.outOfRange 0x1000, some .movingOn⟩

/-- The call stack that a failed instruction leaves: a call whose target is rejected has pushed, and
a return to an address that is rejected has popped. -/
def Machine.stackLeft (m : Machine) : Instruction → List Address
  | .ret => if m.stack.head?.any fun back ↦ ¬ back.IsEntry then m.stack.tail else m.stack
  | .call target =>
    if m.pc.val ≠ 0xFFE ∧ m.stack.length < 16 ∧ ¬ target.IsEntry then m.pc.following :: m.stack
    else m.stack
  | _ => m.stack

theorem Machine.overwrite_moved (m : Machine) (pc start : Address) (bytes : List UInt8) :
    Machine.overwrite { m with pc } start bytes =
      (m.overwrite start bytes).map ({ · with pc }) := by
  unfold overwrite
  cases start.spanEnd bytes.length <;> rfl

theorem Machine.loadRegisters_moved (m : Machine) (pc : Address) (last : Register) :
    Machine.loadRegisters { m with pc } last = (m.loadRegisters last).map ({ · with pc }) := by
  unfold loadRegisters slice
  cases m.index.spanEnd (last.val + 1) <;> rfl

namespace Interpreter

open Command Machine Failure Instruction

variable {D K S G : Type} {s t u : Interpreter D K S G} {i : Instruction} {now : Nat} {f : Failure}

/-- Data, display, timers and speaker are the same. -/
structure SameData (s t : Interpreter D K S G) : Prop where
  machine : s.machine.SameData t.machine
  display : t.display = s.display
  delay : t.delay = s.delay
  sound : t.sound = s.sound
  speaker : t.speaker = s.speaker

namespace SameData

theorem refl (s : Interpreter D K S G) : SameData s s := ⟨⟨rfl, rfl, rfl⟩, rfl, rfl, rfl, rfl⟩

theorem symm (h : SameData s t) : SameData t s where
  machine := ⟨h.machine.memory.symm, h.machine.registers.symm, h.machine.index.symm⟩
  display := h.display.symm
  delay := h.delay.symm
  sound := h.sound.symm
  speaker := h.speaker.symm

theorem trans (hst : SameData s t) (htu : SameData t u) : SameData s u where
  machine := ⟨htu.machine.memory.trans hst.machine.memory,
    htu.machine.registers.trans hst.machine.registers, htu.machine.index.trans hst.machine.index⟩
  display := htu.display.trans hst.display
  delay := htu.delay.trans hst.delay
  sound := htu.sound.trans hst.sound
  speaker := htu.speaker.trans hst.speaker

theorem redirected (s : Interpreter D K S G) (pc : Address) (stack : List Address) :
    SameData s (s.redirected pc stack) := ⟨⟨rfl, rfl, rfl⟩, rfl, rfl, rfl, rfl⟩

theorem moved (s : Interpreter D K S G) (pc : Address) : SameData s (s.moved pc) :=
  redirected s pc s.machine.stack

end SameData

/-! ## Faults of the parts -/

theorem attempt_eq_error {context : Option Context} {g : Machine → Except Fault Machine}
    (h : s.perform (attempt context g) = (.error f, t)) : t = s ∧ f.context = context := by
  rw [perform_attempt] at h
  cases hresult : g s.machine <;> rw [hresult] at h <;> cases h
  exact ⟨rfl, rfl⟩

theorem moveOn_eq_error (hentry : s.machine.pc.IsEntry)
    (h : s.perform moveOn = (.error f, t)) : t = s ∧ f = ranOff ∧ s.machine.pc.val = 0xFFE := by
  rw [perform_moveOn_of_isEntry hentry] at h
  split at h <;> cases h
  exact ⟨rfl, rfl, ‹_›⟩

theorem perform_moveOn_moved (s : Interpreter D K S G) {pc : Address} (hentry : pc.IsEntry)
    (hlast : pc.val ≠ 0xFFE) :
    (s.moved pc).perform moveOn = (.ok (), s.moved pc.following) := by
  have hthere : (s.moved pc).machine.pc.IsEntry := hentry
  rw [perform_moveOn_of_isEntry hthere]
  exact if_neg hlast

theorem skipIf_eq_error {condition : Bool} (hentry : s.machine.pc.IsEntry)
    (h : s.perform (skipIf condition) = (.error f, t)) :
    t = s ∧ f = ranOff ∧ s.machine.pc.val = 0xFFE := by
  rw [perform_skipIf] at h
  split at h
  · exact moveOn_eq_error hentry h
  · cases h

theorem comeBack_eq_error {context : Option Context}
    (h : s.perform (comeBack context) = (.error f, t)) :
    t = { s with machine := { s.machine with stack := s.machine.stackLeft .ret } } ∧
      f.context = context := by
  rw [perform_comeBack] at h
  cases hstack : s.machine.stack with
  | nil =>
    rw [hstack] at h
    cases h
    have hleft : s.machine.stackLeft .ret = s.machine.stack := by simp [stackLeft, hstack]
    rw [hleft]
    exact ⟨rfl, rfl⟩
  | cons back rest =>
    rw [hstack] at h
    dsimp only at h
    obtain ⟨rfl, hcontext⟩ := attempt_eq_error h
    have hrejected : ¬ back.IsEntry := by
      intro hentry
      rw [perform_attempt, jump_of_isEntry _ hentry] at h
      cases h
    have hleft : s.machine.stackLeft .ret = rest := by simp [stackLeft, hstack, hrejected]
    rw [hleft]
    exact ⟨rfl, hcontext⟩

theorem callTo_eq_error {context : Option Context} {target : Address} (hplaced : s.machine.Placed)
    (h : s.perform (callTo context target) = (.error f, t)) :
    t = { s with machine := { s.machine with stack := s.machine.stackLeft (.call target) } } ∧
      f.context = context := by
  rw [perform_callTo, Address.offset_two hplaced.entry] at h
  rw [stackLeft]
  by_cases hlast : s.machine.pc.val = 0xFFE
  · rw [if_pos hlast] at h
    rw [if_neg (fun hpushed ↦ hpushed.1 hlast)]
    cases h
    exact ⟨rfl, rfl⟩
  · rw [if_neg hlast] at h
    dsimp only at h
    by_cases hroom : s.machine.stack.length < stackRoom
    · rw [if_pos hroom] at h
      obtain ⟨rfl, hcontext⟩ := attempt_eq_error h
      have hrejected : ¬ target.IsEntry := by
        intro hentry
        rw [perform_attempt, jump_of_isEntry _ hentry] at h
        cases h
      rw [if_pos ⟨hlast, hroom, hrejected⟩]
      exact ⟨rfl, hcontext⟩
    · rw [if_neg hroom] at h
      rw [if_neg (fun hpushed ↦ hroom hpushed.2.1)]
      cases h
      exact ⟨rfl, rfl⟩

theorem jumpFrom_eq_error {context : Option Context} {base : Address}
    (h : s.perform (jumpFrom context base) = (.error f, t)) :
    t = s ∧ (f.context = context ∨ f.context = some .offsettingJump) := by
  rw [perform_jumpFrom] at h
  cases htarget : base.offset (s.machine.reg Register.zero).toNat with
  | error fault =>
    rw [htarget] at h
    cases h
    exact ⟨rfl, .inr rfl⟩
  | ok target =>
    rw [htarget] at h
    exact ⟨(attempt_eq_error h).1, .inl (attempt_eq_error h).2⟩

/-! ## Faults of effects -/

/-- What a fault before moving on leaves behind. -/
structure StoppedShort (i : Instruction) (f : Failure) (s t : Interpreter D K S G) : Prop where
  data : SameData s t
  pc : t.machine.pc = s.machine.pc
  stack : t.machine.stack = s.machine.stackLeft i
  /-- Before the last move, only a skip moves. -/
  context : f.context = some .movingOn →
    i.isSkip = true ∧ f = ranOff ∧ s.machine.pc.val = 0xFFE

theorem StoppedShort.of_eq {w : Context} (hstack : s.machine.stackLeft i = s.machine.stack)
    (hcontext : f.context = some w) (hw : w ≠ .movingOn) (h : t = s) :
    StoppedShort i f s t := by
  subst h
  refine ⟨.refl t, rfl, hstack.symm, ?_⟩
  intro hmoving
  rw [hcontext] at hmoving
  exact absurd (Option.some.inj hmoving) hw

variable [Display D] [Keyboard K] [Speaker S] [Entropy G]

theorem effect_stoppedShort_of_skip (hentry : s.machine.pc.IsEntry) (hskip : i.isSkip = true)
    (h : s.perform (effect i now) = (.error f, t)) : StoppedShort i f s t := by
  rw [perform_effect_of_isSkip s hskip] at h
  obtain ⟨rfl, hran, hlast⟩ := skipIf_eq_error hentry h
  have hstack : t.machine.stackLeft i = t.machine.stack := by
    cases i <;> first | rfl | cases hskip
  exact ⟨.refl t, rfl, hstack.symm, fun _ ↦ ⟨hskip, hran, hlast⟩⟩

theorem effect_stoppedShort_of_span {length : Nat} (hspan : i.spanLength? = some length)
    (h : s.perform (effect i now) = (.error f, t)) : StoppedShort i f s t := by
  obtain ⟨u, hu, -⟩ := perform_effect_of_span s hspan now
  have hstack : s.machine.stackLeft i = s.machine.stack := by
    cases i <;> first | rfl | cases hspan
  rw [hu] at h
  split at h <;> cases h
  exact .of_eq hstack rfl nofun rfl

theorem effect_stoppedShort_awaitKey {x : Register}
    (h : s.perform (effect (.awaitKey x) now) = (.error f, t)) :
    StoppedShort (.awaitKey x) f s t := by
  rw [perform_effect_awaitKey, perform_awaitKeyInto] at h
  dsimp only at h
  cases hkey : Key.ofIndex? (Keyboard.await s.keyboard).1 <;> rw [hkey] at h <;> cases h
  exact ⟨⟨⟨rfl, rfl, rfl⟩, rfl, rfl, rfl, rfl⟩, rfl, rfl, nofun⟩

theorem effect_stoppedShort (hplaced : s.machine.Placed)
    (h : s.perform (effect i now) = (.error f, t)) : StoppedShort i f s t := by
  by_cases hplain : i.isPlain
  · obtain ⟨u, hu, -⟩ := perform_effect_of_isPlain s hplain now
    rw [hu] at h
    cases h
  · cases i with
    | ret =>
      obtain ⟨rfl, hcontext⟩ := comeBack_eq_error h
      refine ⟨.redirected s _ _, rfl, rfl, ?_⟩
      rw [hcontext]
      nofun
    | call target =>
      obtain ⟨rfl, hcontext⟩ := callTo_eq_error hplaced h
      refine ⟨.redirected s _ _, rfl, rfl, ?_⟩
      rw [hcontext]
      nofun
    | jump target =>
      have hattempt : s.perform (attempt (some (.executing (.jump target))) (·.jump target)) =
          (.error f, t) := h
      obtain ⟨hsame, hcontext⟩ := attempt_eq_error hattempt
      exact .of_eq rfl hcontext nofun hsame
    | jumpOffset base =>
      obtain ⟨hsame, hcontext | hcontext⟩ := jumpFrom_eq_error h
      · exact .of_eq rfl hcontext nofun hsame
      · exact .of_eq rfl hcontext nofun hsame
    | skipEqImm | skipNeImm | skipEq | skipNe | skipHeld | skipFree =>
      exact effect_stoppedShort_of_skip hplaced.entry rfl h
    | awaitKey x => exact effect_stoppedShort_awaitKey h
    | draw | decimal | store | load => exact effect_stoppedShort_of_span rfl h
    | _ => exact absurd rfl hplain

/-! ## Effects at another place -/

omit [Display D] [Keyboard K] [Speaker S] [Entropy G] in
/-- An operation on the machine that lets the program counter be does so at any place. -/
theorem perform_attempt_moved (s : Interpreter D K S G) (context : Option Context)
    {g : Machine → Except Fault Machine} {pc : Address}
    (hg : g { s.machine with pc } = (g s.machine).map ({ · with pc })) :
    (s.moved pc).perform (attempt context g) =
      ((s.perform (attempt context g)).1, (s.perform (attempt context g)).2.moved pc) := by
  have hmoved : (s.moved pc).machine = { s.machine with pc } := rfl
  rw [perform_attempt, perform_attempt, hmoved, hg]
  cases g s.machine <;> rfl

/-- An instruction that neither transfers control nor skips has the same effect at any place. -/
theorem perform_effect_moved (s : Interpreter D K S G) (hstays : i.transfersControl = false)
    (hskip : i.isSkip = false) (now : Nat) (pc : Address) :
    (s.moved pc).perform (effect i now) =
      ((s.perform (effect i now)).1, (s.perform (effect i now)).2.moved pc) := by
  cases i with
  | ret | jump | call | jumpOffset => cases hstays
  | skipEqImm | skipNeImm | skipEq | skipNe | skipHeld | skipFree => cases hskip
  | draw x y rows =>
    rw [perform_effect_draw, perform_effect_draw, perform_drawSprite, perform_drawSprite]
    have hindex : (s.moved pc).machine.index = s.machine.index := rfl
    rw [hindex]
    split <;> rfl
  | decimal x =>
    rw [perform_effect_decimal, perform_effect_decimal]
    exact perform_attempt_moved s _ (overwrite_moved s.machine pc s.machine.index _)
  | store last =>
    rw [perform_effect_store, perform_effect_store]
    exact perform_attempt_moved s _ (overwrite_moved s.machine pc s.machine.index _)
  | load last =>
    rw [perform_effect_load, perform_effect_load]
    exact perform_attempt_moved s _ (loadRegisters_moved s.machine pc last)
  | awaitKey x =>
    rw [perform_effect_awaitKey, perform_effect_awaitKey, perform_awaitKeyInto,
      perform_awaitKeyInto]
    have hkeyboard : (s.moved pc).keyboard = s.keyboard := rfl
    rw [hkeyboard]
    dsimp only
    cases Key.ofIndex? (Keyboard.await s.keyboard).1 <;> rfl
  | _ => rfl

/-! ## Failed instructions -/

/-- An instruction fails in its effect, or in moving on from the last entry when all is done. -/
theorem execute_eq_error (hplaced : s.machine.Placed)
    (h : s.perform (execute i now) = (.error f, t)) :
    s.perform (effect i now) = (.error f, t) ∨
      (i.transfersControl = false ∧ s.perform (effect i now) = (.ok (), t) ∧ f = ranOff ∧
        t.machine.pc.val = 0xFFE) := by
  have hkept := effect_stable placed_controlStable hplaced i now
  rw [perform_execute] at h
  generalize s.perform (effect i now) = result at h hkept ⊢
  rcases result with ⟨g | _, u⟩
  · exact .inl h
  · cases htransfers : i.transfersControl with
    | true =>
      rw [htransfers] at h
      cases h
    | false =>
      rw [htransfers] at h
      obtain ⟨rfl, hran, hlast⟩ := moveOn_eq_error hkept.entry h
      exact .inr ⟨rfl, rfl, hran, hlast⟩

/-- Moving on changes no data. -/
theorem sameData_execute (s : Interpreter D K S G) (i : Instruction) (now : Nat) :
    SameData (s.perform (effect i now)).2 (s.perform (execute i now)).2 := by
  obtain ⟨pc, hmoved⟩ := s.exists_execute_eq_moved i now
  rw [hmoved]
  exact .moved _ pc

/-- A skip changes no data. -/
theorem sameData_effect_of_isSkip (s : Interpreter D K S G) (hskip : i.isSkip = true)
    (now : Nat) : SameData s (s.perform (effect i now)).2 := by
  obtain ⟨pc, hredirected⟩ := s.exists_effect_eq_redirected (.inr hskip) now
  rw [hredirected]
  exact .redirected s pc _

/-- The data that an instruction leaves are the same wherever it stands. -/
theorem sameData_execute_moved (s : Interpreter D K S G) (hstays : i.transfersControl = false)
    (now : Nat) (pc : Address) :
    SameData ((s.moved pc).perform (execute i now)).2 (s.perform (execute i now)).2 := by
  have heffect : SameData ((s.moved pc).perform (effect i now)).2
      (s.perform (effect i now)).2 := by
    cases hskip : i.isSkip with
    | true =>
      have hthere := sameData_effect_of_isSkip (s.moved pc) hskip now
      have hhere := sameData_effect_of_isSkip s hskip now
      exact hthere.symm.trans ((SameData.moved s pc).symm.trans hhere)
    | false =>
      rw [perform_effect_moved s hstays hskip]
      exact (SameData.moved _ pc).symm
  exact (sameData_execute _ i now).symm.trans (heffect.trans (sameData_execute s i now))

/-- An instruction that has run off the end succeeds where programs start. -/
theorem exists_execute_ok_of_ranOff (hplaced : s.machine.Placed)
    (h : s.perform (execute i now) = (.error ranOff, t)) :
    ∃ u, (s.moved Address.programStart).perform (execute i now) = (.ok (), u) := by
  have hentry := Address.programStart_isEntry
  have hlast : Address.programStart.val ≠ 0xFFE := by decide
  cases hskip : i.isSkip with
  | true =>
    have hstays := transfersControl_of_isSkip hskip
    rw [perform_execute, perform_effect_of_isSkip _ hskip, perform_skipIf, hstays]
    cases (s.moved Address.programStart).skips i with
    | true =>
      rw [if_pos rfl, perform_moveOn_moved s hentry hlast]
      have hnext : Address.programStart.following.val ≠ 0xFFE := by decide
      exact ⟨_, perform_moveOn_moved s (Address.following_isEntry hentry hlast) hnext⟩
    | false => exact ⟨_, perform_moveOn_moved s hentry hlast⟩
  | false =>
    rcases execute_eq_error hplaced h with heffect | ⟨hstays, heffect, -, -⟩
    · have hcontext := (effect_stoppedShort hplaced heffect).context rfl
      rw [hskip] at hcontext
      cases hcontext.1
    · have hsame := perform_effect_moved s hstays hskip now Address.programStart
      rw [heffect] at hsame
      rw [perform_execute, hsame, hstays]
      exact ⟨_, perform_moveOn_moved t hentry hlast⟩

omit [Display D] [Speaker S] [Entropy G] in
theorem isSkip_of_skips (h : s.skips i = true) : i.isSkip = true := by
  cases i <;> first | rfl | cases h

/-- Before the last move, only a skip that is taken has moved. -/
theorem pc_effect (hentry : s.machine.pc.IsEntry) (hstays : i.transfersControl = false)
    (h : s.perform (effect i now) = (.ok (), t)) :
    t.machine.pc.val = if s.skips i then s.machine.pc.val + 2 else s.machine.pc.val := by
  cases hskip : i.isSkip with
  | true =>
    rw [perform_effect_of_isSkip s hskip, perform_skipIf] at h
    cases hskips : s.skips i with
    | false =>
      rw [hskips] at h
      cases h
      rfl
    | true =>
      rw [hskips, if_pos rfl, perform_moveOn_of_isEntry hentry] at h
      by_cases hlast : s.machine.pc.val = 0xFFE
      · rw [if_pos hlast] at h
        cases h
      · rw [if_neg hlast] at h
        cases h
        exact Address.val_following hentry hlast
  | false =>
    have hnone : s.skips i = false := by
      cases hskips : s.skips i with
      | false => rfl
      | true =>
        rw [isSkip_of_skips hskips] at hskip
        cases hskip
    have hsame : (s.moved s.machine.pc).perform (effect i now) = (.ok (), t.moved s.machine.pc) := by
      rw [perform_effect_moved s hstays hskip, h]
    have hhere : t = t.moved s.machine.pc := congrArg Prod.snd (h.symm.trans hsame)
    rw [hnone, hhere]
    rfl

/-- What is left of a failed instruction. -/
structure Remains (i : Instruction) (now : Nat) (f : Failure) (s t : Interpreter D K S G) :
    Prop where
  pc : t.machine.pc.val =
    if s.skips i ∧ s.machine.pc.val = 0xFFC then 0xFFE else s.machine.pc.val
  stack : t.machine.stack = s.machine.stackLeft i
  data : f ≠ ranOff ∨ i.isSkip = true → SameData s t
  /-- Of an instruction that has run off the end, the data are those that it leaves elsewhere. -/
  elsewhere : f.context = some .movingOn → f = ranOff ∧ t.machine.pc.val = 0xFFE ∧
    (∃ pc u, (s.moved pc).perform (execute i now) = (.ok (), u)) ∧
    ∀ pc u, (s.moved pc).perform (execute i now) = (.ok (), u) → SameData u t

theorem pc_of_execute_eq_error (hplaced : s.machine.Placed)
    (h : s.perform (execute i now) = (.error f, t)) :
    t.machine.pc.val =
      if s.skips i ∧ s.machine.pc.val = 0xFFC then 0xFFE else s.machine.pc.val := by
  rcases execute_eq_error hplaced h with heffect | ⟨hstays, heffect, -, hlast⟩
  · have hshort := effect_stoppedShort hplaced heffect
    rw [hshort.pc, if_neg]
    rintro ⟨hskips, hpc⟩
    rw [perform_effect_of_isSkip s (isSkip_of_skips hskips)] at heffect
    obtain ⟨-, -, hlast⟩ := skipIf_eq_error hplaced.entry heffect
    omega
  · have hpc := pc_effect hplaced.entry hstays heffect
    cases hskips : s.skips i with
    | true =>
      rw [hskips, if_pos rfl] at hpc
      rw [if_pos ⟨rfl, by omega⟩, hlast]
    | false =>
      rw [hskips, if_neg (by decide)] at hpc
      rw [if_neg (fun hboth ↦ absurd hboth.1 (by decide)), hpc]

theorem stack_of_execute_eq_error (hplaced : s.machine.Placed)
    (h : s.perform (execute i now) = (.error f, t)) :
    t.machine.stack = s.machine.stackLeft i := by
  rcases execute_eq_error hplaced h with heffect | ⟨hstays, heffect, -, -⟩
  · exact (effect_stoppedShort hplaced heffect).stack
  · have hafter := stack_effect s i now
    rw [heffect] at hafter
    cases i <;> first | exact hafter | cases hstays

theorem execute_eq_error_remains (hplaced : s.machine.Placed)
    (h : s.perform (execute i now) = (.error f, t)) : Remains i now f s t where
  pc := pc_of_execute_eq_error hplaced h
  stack := stack_of_execute_eq_error hplaced h
  data hkept := by
    rcases execute_eq_error hplaced h with heffect | ⟨hstays, heffect, hran, -⟩
    · exact (effect_stoppedShort hplaced heffect).data
    · have hskip : i.isSkip = true := hkept.resolve_left (absurd hran)
      have hsame := sameData_effect_of_isSkip s hskip now
      rwa [heffect] at hsame
  elsewhere hcontext := by
    have hran : f = ranOff ∧ t.machine.pc.val = 0xFFE ∧ i.transfersControl = false := by
      rcases execute_eq_error hplaced h with heffect | ⟨hstays, -, hran, hlast⟩
      · have hshort := effect_stoppedShort hplaced heffect
        obtain ⟨hskip, hran, hlast⟩ := hshort.context hcontext
        have hstays := transfersControl_of_isSkip hskip
        exact ⟨hran, by rw [hshort.pc, hlast], hstays⟩
      · exact ⟨hran, hlast, hstays⟩
    obtain ⟨rfl, hlast, hstays⟩ := hran
    refine ⟨rfl, hlast, ⟨_, exists_execute_ok_of_ranOff hplaced h⟩, ?_⟩
    intro pc u hu
    have hsame := sameData_execute_moved s hstays now pc
    rwa [h, hu] at hsame

/-- What a failure leaves behind, of an instruction and of a cycle whose display fails; a span that
does not fit leaves everything as it was. -/
theorem remains_of_failure (hplaced : s.machine.Placed) (now : Nat) :
    (∀ i f t, s.perform (execute i now) = (.error f, t) → Remains i now f s t) ∧
    (∀ (i : Instruction) (length : Nat), i.spanLength? = some length →
      0x1000 < s.machine.index.val + length → s.perform (execute i now) =
        (.error ⟨.outOfRange (s.machine.index.val + length - 1), some (.executing i)⟩, s)) ∧
    (∀ fault, (Display.poll s.display).1 = .error fault →
      ∃ t, s.perform (cycle now) = (.error ⟨fault, some .refreshing⟩, t) ∧
        t.machine = s.machine ∧ t.delay = s.delay.poll now ∧ t.sound = s.sound.poll now) := by
  refine ⟨fun _ _ _ ↦ execute_eq_error_remains hplaced, ?_, ?_⟩
  · intro i length hspan hover
    obtain ⟨t, ht, -⟩ := perform_effect_of_span s hspan now
    rw [perform_execute, ht, if_neg (Nat.not_le.mpr hover)]
  · intro fault hpoll
    refine ⟨s.polled now, ?_, rfl, rfl, rfl⟩
    rw [perform_cycle, hpoll]

/-- An interpreter for examples: it is at the last entry, with a return address that no jump
accepts, hardly any room at the index register, and a display that cannot be painted. -/
def stranded : Interpreter (Console Sink) KeyScript Mute StdGen :=
  { ofOptions {} { out := { room := some 0 } } {} {} ⟨1, 1⟩ with
    machine := { Machine.initial with
      index := Address.wrapping 0xFFF
      pc := lastEntry
      stack := [Address.wrapping 0x100] } }

set_option maxRecDepth 20000 in
/-- Here a return, an addition, a store and a cycle all fail. -/
theorem remains_of_failure_stranded :
    stranded.machine.Placed ∧
    (∃ f t, stranded.perform (execute .ret 0) = (.error f, t) ∧ Remains .ret 0 f stranded t) ∧
    (∃ t, stranded.perform (execute (.addImm Register.zero 1) 0) = (.error ranOff, t) ∧
      Remains (.addImm Register.zero 1) 0 ranOff stranded t) ∧
    0x1000 < stranded.machine.index.val + 2 ∧
    stranded.perform (execute (.store (Register.ofNat 1)) 0) =
      (.error ⟨.outOfRange 0x1000, some (.executing (.store (Register.ofNat 1)))⟩, stranded) ∧
    (Display.poll stranded.display).1 = .error (.device "writer is full") ∧
    ∃ t, stranded.perform (cycle 0) = (.error ⟨.device "writer is full", some .refreshing⟩, t) ∧
      t.machine = stranded.machine := by
  have hplaced : stranded.machine.Placed := ⟨⟨rfl, by decide, by decide⟩, by decide⟩
  obtain ⟨hfailed, hspan, hcycle⟩ := remains_of_failure hplaced 0
  have hret : ∃ f t, stranded.perform (execute .ret 0) = (.error f, t) := ⟨_, _, rfl⟩
  have hadd : ∃ t, stranded.perform (execute (.addImm Register.zero 1) 0) = (.error ranOff, t) :=
    ⟨_, rfl⟩
  obtain ⟨f, t, ht⟩ := hret
  obtain ⟨u, hu⟩ := hadd
  have hover : 0x1000 < stranded.machine.index.val + 2 := by decide
  have hpoll : (Display.poll stranded.display).1 = .error (.device "writer is full") := by rfl
  obtain ⟨v, hv, hmachine, -, -⟩ := hcycle _ hpoll
  exact ⟨hplaced, ⟨f, t, ht, hfailed _ _ _ ht⟩, ⟨u, hu, hfailed _ _ _ hu⟩, hover,
    hspan (.store (Register.ofNat 1)) 2 rfl hover, hpoll, v, hv, hmachine⟩

end Interpreter

end ChipEight
