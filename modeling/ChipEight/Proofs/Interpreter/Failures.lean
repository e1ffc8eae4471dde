import ChipEight.Display
import ChipEight.Keyboard
import ChipEight.Proofs.Interpreter.Operation

/-!
# When an instruction fails

Every failure of an instruction is that of the first of a list of tests on the state before it, and
an instruction none of whose tests holds succeeds.  The tests of its own come first: of the stack,
of the target of a jump, of a span of memory.  A key that is waited for is tested next, and moving
on comes last.  A return tests nothing but whether there is an address to return to, since those
that calls have left are accepted by the jump.
-/

namespace ChipEight

/-- The first test that holds decides; if none does there is no failure. -/
def Failure.verdict : List (Bool × Failure) → Except Failure Unit
  | [] => .ok ()
  | (holds, failure) :: rest => if holds then .error failure else verdict rest

namespace Interpreter

open Command Machine Failure

variable {D K S G : Type}

/-- An instruction may start at even places from `0x200` to `0xFFE`. -/
def targetTests (i : Instruction) (target : Address) : List (Bool × Failure) := [
  (target.val < 0x200 ∨ 0xFFE < target.val, ⟨.outOfRange target.val, some (.executing i)⟩),
  (target.val % 2 = 1, ⟨.misaligned target, some (.executing i)⟩)]

/-- A span of bytes at the index register has to end within memory. -/
def spanTests (i : Instruction) (m : Machine) (length : Nat) : List (Bool × Failure) := [
  (0x1000 < m.index.val + length,
    ⟨.outOfRange (m.index.val + length - 1), some (.executing i)⟩)]

/-- From `limit` on there is no place to move on to. -/
def runOffTest (m : Machine) (limit : Nat) : Bool × Failure :=
  (limit ≤ m.pc.val, ⟨.outOfRange 0x1000, some .movingOn⟩)

/-- The tests of the stack, of jumps and of spans. -/
def ownTests (i : Instruction) (m : Machine) : List (Bool × Failure) :=
  match i with
  | .ret => [(m.stack.length = 0, ⟨.stackUnderflow, some (.executing i)⟩)]
  | .call target =>
    (m.pc.val = 0xFFE, ⟨.outOfRange 0x1000, some (.executing i)⟩) ::
      (m.stack.length = 16, ⟨.stackOverflow 16, some (.executing i)⟩) :: targetTests i target
  | .jump target => targetTests i target
  | .jumpOffset base =>
    let place := base.val + (m.reg Register.zero).toNat
    (0xFFF < place, ⟨.outOfRange place, some .offsettingJump⟩) ::
      targetTests i (Address.wrapping place)
  | .draw _ _ rows => spanTests i m rows.toNat
  | .decimal _ => spanTests i m 3
  | .store last | .load last => spanTests i m (last.val + 1)
  | _ => []

variable [Keyboard K]

/-- The test of the key that is waited for. -/
def keyTests (i : Instruction) (s : Interpreter D K S G) : List (Bool × Failure) :=
  match i with
  | .awaitKey _ =>
    let index := (Keyboard.await s.keyboard).1
    [(16 ≤ index.toNat, ⟨.invalidKey index, none⟩)]
  | _ => []

/-- Moving on needs a place two further on, and a skip that is taken one four further on. -/
def moveTests (i : Instruction) (s : Interpreter D K S G) : List (Bool × Failure) :=
  if i.transfersControl then [] else [runOffTest s.machine (if s.skips i then 0xFFC else 0xFFE)]

/-- All tests of an instruction, in the order in which they are made. -/
def tests (i : Instruction) (s : Interpreter D K S G) : List (Bool × Failure) :=
  ownTests i s.machine ++ keyTests i s ++ moveTests i s

/-- A transfer of control neither waits for a key nor moves on. -/
theorem tests_of_transfersControl {i : Instruction} (h : i.transfersControl = true)
    (s : Interpreter D K S G) : tests i s = ownTests i s.machine := by
  have hkey : keyTests i s = [] := by
    cases i with
    | awaitKey x => cases h
    | _ => rfl
  have hmove : moveTests i s = [] := if_pos h
  rw [tests, hkey, hmove, List.append_nil, List.append_nil]

/-! ## Outcomes of the parts -/

section Parts

omit [Keyboard K]

theorem outcome_attempt_jump (s : Interpreter D K S G) (i : Instruction) (target : Address) :
    (s.perform (attempt (some (.executing i)) (·.jump target))).1 =
      verdict (targetTests i target) := by
  rw [perform_attempt, jump_eq]
  simp only [targetTests, verdict, decide_eq_true_eq]
  by_cases hrange : target.val < 0x200 ∨ 0xFFE < target.val
  · simp only [if_pos hrange]
  · by_cases hodd : target.val % 2 = 1
    · simp only [if_neg hrange, if_pos hodd]
    · simp only [if_neg hrange, if_neg hodd]

theorem outcome_moveOn {s : Interpreter D K S G} (h : s.machine.pc.IsEntry) :
    (s.perform moveOn).1 = verdict [runOffTest s.machine 0xFFE] := by
  have hle := h.le
  have hlast : 0xFFE ≤ s.machine.pc.val ↔ s.machine.pc.val = 0xFFE := by omega
  rw [perform_moveOn_of_isEntry h]
  simp only [runOffTest, verdict, decide_eq_true_eq, hlast]
  split <;> rfl

/-- A skip that is taken moves on twice. -/
theorem outcome_moveOn_twice {s : Interpreter D K S G} (h : s.machine.pc.IsEntry) :
    (match s.perform moveOn with
      | (.error f, _) => .error f
      | (.ok (), t) => (t.perform moveOn).1) =
      verdict [runOffTest s.machine 0xFFC] := by
  have hle := h.le
  have heven := h.even
  rw [perform_moveOn_of_isEntry h]
  by_cases hlast : s.machine.pc.val = 0xFFE
  · rw [if_pos hlast]
    simp [runOffTest, verdict, hlast]
  · rw [if_neg hlast]
    have hval := Address.val_following h hlast
    have hnext : 0xFFE ≤ s.machine.pc.following.val ↔ 0xFFC ≤ s.machine.pc.val := by omega
    dsimp only
    rw [outcome_moveOn (Address.following_isEntry h hlast)]
    simp only [runOffTest, verdict, decide_eq_true_eq, hnext]

end Parts

/-! ## Outcomes of instructions -/

variable [Display D] [Speaker S] [Entropy G]
variable {s : Interpreter D K S G} {i : Instruction} {now : Nat}

theorem outcome_execute_of_transfersControl (h : i.transfersControl = true) :
    (s.perform (execute i now)).1 = (s.perform (effect i now)).1 := by
  rw [perform_execute, h]
  rcases s.perform (effect i now) with ⟨_ | _, _⟩ <;> rfl

/-- An effect that leaves control alone is followed by the usual move. -/
theorem outcome_execute_of_sameControl {t : Interpreter D K S G} (hentry : s.machine.pc.IsEntry)
    (hmoves : i.transfersControl = false) (heffect : s.perform (effect i now) = (.ok (), t))
    (hsame : s.machine.SameControl t.machine) :
    (s.perform (execute i now)).1 = verdict [runOffTest s.machine 0xFFE] := by
  have hpc : t.machine.pc = s.machine.pc := hsame.1
  rw [perform_execute, heffect, hmoves]
  calc
    (t.perform moveOn).1 = verdict [runOffTest t.machine 0xFFE] := outcome_moveOn (hpc ▸ hentry)
    _ = verdict [runOffTest s.machine 0xFFE] := by simp only [runOffTest, hpc]

theorem outcome_plain (hentry : s.machine.pc.IsEntry) (h : i.isPlain) :
    (s.perform (execute i now)).1 = verdict (tests i s) := by
  obtain ⟨t, ht, hsame⟩ := perform_effect_of_isPlain s h now
  have hmoves : i.transfersControl = false := by cases i <;> first | rfl | cases h
  have htests : tests i s = [runOffTest s.machine 0xFFE] := by cases i <;> first | rfl | cases h
  rw [outcome_execute_of_sameControl hentry hmoves ht hsame, htests]

theorem outcome_skip (hentry : s.machine.pc.IsEntry) (h : i.isSkip) :
    (s.perform (execute i now)).1 = verdict (tests i s) := by
  have hmoves : i.transfersControl = false := by cases i <;> first | rfl | cases h
  have htests : tests i s = moveTests i s := by cases i <;> first | rfl | cases h
  rw [perform_execute, perform_effect_of_isSkip s h, perform_skipIf, htests, moveTests, hmoves]
  cases s.skips i with
  | false => exact outcome_moveOn hentry
  | true =>
    calc
      _ = (match s.perform moveOn with
          | (.error f, _) => .error f
          | (.ok (), t) => (t.perform moveOn).1) := by
        rcases s.perform moveOn with ⟨_ | _, _⟩ <;> rfl
      _ = _ := outcome_moveOn_twice hentry

theorem outcome_span (hentry : s.machine.pc.IsEntry) {length : Nat}
    (h : i.spanLength? = some length) :
    (s.perform (execute i now)).1 = verdict (tests i s) := by
  obtain ⟨t, ht, hsame⟩ := perform_effect_of_span s h now
  have hmoves : i.transfersControl = false := by cases i <;> first | rfl | cases h
  have htests : tests i s = spanTests i s.machine length ++ [runOffTest s.machine 0xFFE] := by
    cases i <;> cases h <;> rfl
  rw [htests]
  by_cases hfit : s.machine.index.val + length ≤ 0x1000
  · rw [if_pos hfit] at ht
    rw [outcome_execute_of_sameControl hentry hmoves ht hsame]
    simp [spanTests, verdict, Nat.not_lt.mpr hfit]
  · rw [if_neg hfit] at ht
    rw [perform_execute, ht]
    simp [spanTests, verdict, Nat.lt_of_not_le hfit]

theorem outcome_awaitKey (hentry : s.machine.pc.IsEntry) (x : Register) :
    (s.perform (execute (.awaitKey x) now)).1 = verdict (tests (.awaitKey x) s) := by
  have heffect : s.perform (effect (.awaitKey x) now) = s.perform (awaitKeyInto x) := rfl
  rw [perform_awaitKeyInto] at heffect
  dsimp only at heffect
  by_cases hkey : (Keyboard.await s.keyboard).1.toNat < 16
  · have hindex : Key.ofIndex? (Keyboard.await s.keyboard).1 = some ⟨_, hkey⟩ := dif_pos hkey
    rw [hindex] at heffect
    rw [outcome_execute_of_sameControl hentry rfl heffect ⟨rfl, rfl⟩]
    simp [tests, ownTests, keyTests, moveTests, skips, verdict, Nat.not_le.mpr hkey,
      Instruction.transfersControl]
  · have hindex : Key.ofIndex? (Keyboard.await s.keyboard).1 = none := dif_neg hkey
    rw [hindex] at heffect
    rw [perform_execute, heffect]
    simp [tests, ownTests, keyTests, verdict, Nat.le_of_not_lt hkey]

theorem outcome_ret (h : s.machine.Returnable) :
    (s.perform (execute .ret now)).1 = verdict (tests .ret s) := by
  rw [outcome_execute_of_transfersControl rfl]
  have heffect : s.perform (effect .ret now) = s.perform (comeBack (some (.executing .ret))) := rfl
  rw [heffect, perform_comeBack, tests_of_transfersControl rfl]
  cases hstack : s.machine.stack with
  | nil => simp [ownTests, verdict, hstack]
  | cons back rest =>
    have hback : back.IsEntry := h.returns back (hstack ▸ List.mem_cons_self)
    dsimp only
    rw [perform_attempt, jump_of_isEntry _ hback]
    simp [ownTests, verdict, hstack]

theorem outcome_call (h : s.machine.Placed) (target : Address) :
    (s.perform (execute (.call target) now)).1 = verdict (tests (.call target) s) := by
  rw [outcome_execute_of_transfersControl rfl]
  have heffect : s.perform (effect (.call target) now) =
      s.perform (callTo (some (.executing (.call target))) target) := rfl
  rw [heffect, perform_callTo, Address.offset_two h.entry, tests_of_transfersControl rfl]
  by_cases hlast : s.machine.pc.val = 0xFFE
  · rw [if_pos hlast]
    simp [ownTests, verdict, hlast]
  · rw [if_neg hlast]
    dsimp only
    have hle := h.depth_le
    by_cases hfull : s.machine.stack.length = 16
    · rw [if_neg (by rw [hfull]; decide)]
      simp [ownTests, verdict, hlast, hfull]
    · have hroom : s.machine.stack.length < stackRoom := Nat.lt_of_le_of_ne hle hfull
      rw [if_pos hroom, outcome_attempt_jump]
      simp [ownTests, verdict, hlast, hfull]

theorem outcome_jumpOffset (base : Address) :
    (s.perform (execute (.jumpOffset base) now)).1 = verdict (tests (.jumpOffset base) s) := by
  rw [outcome_execute_of_transfersControl rfl]
  have heffect : s.perform (effect (.jumpOffset base) now) =
      s.perform (jumpFrom (some (.executing (.jumpOffset base))) base) := rfl
  rw [heffect, perform_jumpFrom, tests_of_transfersControl rfl, Address.offset, Address.checked]
  by_cases hplace : base.val + (s.machine.reg Register.zero).toNat < 0x1000
  · have hwrapping : Address.wrapping (base.val + (s.machine.reg Register.zero).toNat) =
        ⟨_, hplace⟩ := Fin.ext (Nat.mod_eq_of_lt hplace)
    rw [dif_pos hplace]
    dsimp only
    rw [outcome_attempt_jump]
    simp [ownTests, verdict, hwrapping, Nat.not_lt.mpr (Nat.le_of_lt_succ hplace)]
  · rw [dif_neg hplace]
    simp [ownTests, verdict, Nat.lt_of_succ_le (Nat.le_of_not_lt hplace)]

theorem outcome_jump (target : Address) :
    (s.perform (execute (.jump target) now)).1 = verdict (tests (.jump target) s) := by
  rw [outcome_execute_of_transfersControl rfl, tests_of_transfersControl rfl]
  exact outcome_attempt_jump s (.jump target) target

/-- Of a machine whose return addresses come from calls, an instruction fails exactly if one of its
tests holds, and then with the failure of the first. -/
theorem outcome_execute (h : s.machine.Returnable) (i : Instruction) (now : Nat) :
    (s.perform (execute i now)).1 = verdict (tests i s) := by
  by_cases hplain : i.isPlain
  · exact outcome_plain h.entry hplain
  · cases i with
    | ret => exact outcome_ret h
    | call target => exact outcome_call h.toPlaced target
    | jump target => exact outcome_jump target
    | jumpOffset base => exact outcome_jumpOffset base
    | skipEqImm | skipNeImm | skipEq | skipNe | skipHeld | skipFree => exact outcome_skip h.entry rfl
    | draw | decimal | store | load => exact outcome_span h.entry rfl
    | awaitKey x => exact outcome_awaitKey h.entry x
    | _ => exact absurd rfl hplain

/-- So it is after any operations that push no return address besides those of calls. -/
theorem after_outcome_execute (o : Options) (display : D) (keyboard : K) (speaker : S) (entropy : G)
    (operations : List (Operation D K))
    (hcalls : ∀ operation ∈ operations, operation.pushes = false) (i : Instruction) (now : Nat) :
    let s := (ofOptions o display keyboard speaker entropy).after operations
    (s.perform (execute i now)).1 = verdict (tests i s) := by
  intro s
  have hfresh : (ofOptions o display keyboard speaker entropy).machine.Returnable :=
    initial_returnable
  apply outcome_execute
  exact after_stable returnable_controlStable hcalls hfresh

/-- Returning from a call that was made before. -/
theorem after_outcome_execute_ret :
    let operations : List (Operation Frame KeyScript) :=
      [.execute (.call Address.programStart) 0]
    let s : Interpreter Frame KeyScript Mute StdGen :=
      (ofOptions {} {} {} {} ⟨1, 1⟩).after operations
    (∀ operation ∈ operations, operation.pushes = false) ∧
      (s.perform (execute .ret 0)).1 = verdict (tests .ret s) := by
  intro operations s
  have hcalls : ∀ operation ∈ operations, operation.pushes = false := by decide
  exact ⟨hcalls, after_outcome_execute _ _ _ _ _ operations hcalls .ret 0⟩

/-- The tests of the stack, of jumps and of spans are not all.  An answer that is no key passes
them, and so does moving on from the last entry. -/
theorem ownTests_incomplete :
    let s : Interpreter Frame KeyScript Mute StdGen :=
      ofOptions {} {} { answers := [(16, 0)] } {} ⟨1, 1⟩
    let t := s.after [.execute (.jump lastEntry) 0]
    (s.perform (execute (.awaitKey Register.zero) 0)).1 ≠
        verdict (ownTests (.awaitKey Register.zero) s.machine) ∧
      (t.perform (execute .cls 0)).1 ≠ verdict (ownTests .cls t.machine) := by
  intro s t
  constructor
  · have houtcome : (s.perform (execute (.awaitKey Register.zero) 0)).1 =
        .error ⟨.invalidKey 16, none⟩ := rfl
    rw [houtcome]
    nofun
  · have houtcome : (t.perform (execute .cls 0)).1 =
        .error ⟨.outOfRange 0x1000, some .movingOn⟩ := rfl
    rw [houtcome]
    nofun

end Interpreter

end ChipEight
