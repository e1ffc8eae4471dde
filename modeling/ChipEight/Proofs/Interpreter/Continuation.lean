import ChipEight.Proofs.Interpreter.Remains

/-!
# Where execution continues

An instruction that succeeds says where execution continues: a transfer of control at its target, a
skip whose condition holds at the second instruction after it, and anything else at the next one.
The skips come in pairs of opposite conditions, and so of each pair exactly one skips.
-/

namespace ChipEight

/-- Two skips on the same operands with opposite conditions. -/
inductive Instruction.Opposite : Instruction → Instruction → Prop where
  | imm (x : Register) (value : UInt8) : Opposite (.skipEqImm x value) (.skipNeImm x value)
  | register (x y : Register) : Opposite (.skipEq x y) (.skipNe x y)
  | key (x : Register) : Opposite (.skipHeld x) (.skipFree x)

theorem Instruction.Opposite.isSkip {i j : Instruction} (h : Opposite i j) :
    i.isSkip = true ∧ j.isSkip = true := by
  cases h <;> exact ⟨rfl, rfl⟩

namespace Interpreter

open Command Machine Instruction

variable {D K S G : Type} {s t : Interpreter D K S G} {i j : Instruction} {now : Nat}

/-- The place at which execution continues if the instruction succeeds. -/
def continuation? [Keyboard K] (s : Interpreter D K S G) (i : Instruction) : Option Nat :=
  match i with
  | .ret => s.machine.stack.head?.map (·.val)
  | .jump target | .call target => some target.val
  | .jumpOffset base => some (base.val + (s.machine.reg Register.zero).toNat)
  | i => some (s.machine.pc.val + if s.skips i then 4 else 2)

theorem continuation?_of_stays [Keyboard K] (s : Interpreter D K S G)
    (h : i.transfersControl = false) :
    s.continuation? i = some (s.machine.pc.val + if s.skips i then 4 else 2) := by
  cases i with
  | ret | jump | call | jumpOffset => cases h
  | _ => rfl

theorem pc_of_attempt_jump {context : Option Context} {target : Address}
    (h : s.perform (attempt context (·.jump target)) = (.ok (), t)) :
    t.machine.pc = target := by
  rw [perform_attempt] at h
  cases hjump : s.machine.jump target with
  | error fault =>
    rw [hjump] at h
    cases h
  | ok m =>
    obtain ⟨-, rfl⟩ := (jump_eq_ok_iff _ _ _).mp hjump
    rw [hjump] at h
    cases h
    rfl

theorem pc_of_moveOn (hentry : s.machine.pc.IsEntry) (h : s.perform moveOn = (.ok (), t)) :
    t.machine.pc.val = s.machine.pc.val + 2 := by
  rw [perform_moveOn_of_isEntry hentry] at h
  by_cases hlast : s.machine.pc.val = 0xFFE
  · rw [if_pos hlast] at h
    cases h
  · rw [if_neg hlast] at h
    cases h
    exact Address.val_following hentry hlast

/-! ## Skips -/

variable [Keyboard K]

theorem skips_of_opposite (s : Interpreter D K S G) (h : Opposite i j) :
    s.skips j = !s.skips i := by
  cases h <;> rfl

variable [Display D] [Speaker S] [Entropy G]

/-- With two instructions after it, a skip succeeds whether or not its condition holds. -/
theorem exists_execute_of_isSkip (hentry : s.machine.pc.IsEntry) (hroom : s.machine.pc.val ≤ 0xFFA)
    (hskip : i.isSkip = true) (now : Nat) : ∃ t, s.perform (execute i now) = (.ok (), t) := by
  have hhere : s.machine.pc.val ≠ 0xFFE := by omega
  have hfirst : s.perform moveOn = (.ok (), s.moved s.machine.pc.following) :=
    perform_moveOn_moved s hentry hhere
  rw [perform_execute, perform_effect_of_isSkip s hskip, perform_skipIf,
    transfersControl_of_isSkip hskip]
  cases s.skips i with
  | false => exact ⟨_, hfirst⟩
  | true =>
    have hnext := Address.following_isEntry hentry hhere
    have hthere : s.machine.pc.following.val ≠ 0xFFE := by
      rw [Address.val_following hentry hhere]
      omega
    rw [if_pos rfl, hfirst]
    exact ⟨_, perform_moveOn_moved s hnext hthere⟩

/-! ## Whole instructions -/

theorem pc_of_stays (hentry : s.machine.pc.IsEntry) (hstays : i.transfersControl = false)
    (h : s.perform (execute i now) = (.ok (), t)) :
    t.machine.pc.val = s.machine.pc.val + if s.skips i then 4 else 2 := by
  rw [perform_execute] at h
  rcases heffect : s.perform (effect i now) with ⟨_ | _, u⟩
  · rw [heffect] at h
    cases h
  · rw [heffect, hstays] at h
    have hpc := pc_effect hentry hstays heffect
    have heven := hentry.even
    have hge := hentry.ge
    have hlt : u.machine.pc.val < 0x1000 := u.machine.pc.isLt
    have hmoved : u.machine.pc.IsEntry := by
      split at hpc <;> exact ⟨by omega, by omega, by omega⟩
    have hlast := pc_of_moveOn hmoved h
    cases hskips : s.skips i with
    | true =>
      rw [hskips, if_pos rfl] at hpc
      rw [if_pos rfl]
      omega
    | false =>
      rw [hskips, if_neg (by decide)] at hpc
      rw [if_neg (by decide)]
      omega

/-- A transfer of control is nothing but its effect. -/
theorem effect_of_transfersControl (htransfers : i.transfersControl = true)
    (h : s.perform (execute i now) = (.ok (), t)) : s.perform (effect i now) = (.ok (), t) := by
  rw [perform_execute] at h
  rcases heffect : s.perform (effect i now) with ⟨_ | _, u⟩
  · rw [heffect] at h
    cases h
  · rw [heffect, htransfers] at h
    exact h

theorem pc_of_jump {target : Address} (h : s.perform (execute (.jump target) now) = (.ok (), t)) :
    t.machine.pc = target :=
  pc_of_attempt_jump (effect_of_transfersControl rfl h)

theorem pc_of_call {target : Address} (h : s.perform (execute (.call target) now) = (.ok (), t)) :
    t.machine.pc = target := by
  have heffect := effect_of_transfersControl rfl h
  rw [perform_effect_call, perform_callTo] at heffect
  cases hback : s.machine.pc.offset 2 with
  | error fault =>
    rw [hback] at heffect
    cases heffect
  | ok back =>
    rw [hback] at heffect
    dsimp only at heffect
    by_cases hroom : s.machine.stack.length < stackRoom
    · rw [if_pos hroom] at heffect
      exact pc_of_attempt_jump heffect
    · rw [if_neg hroom] at heffect
      cases heffect

theorem pc_of_jumpOffset {base : Address}
    (h : s.perform (execute (.jumpOffset base) now) = (.ok (), t)) :
    t.machine.pc.val = base.val + (s.machine.reg Register.zero).toNat := by
  have heffect : s.perform (jumpFrom (some (.executing (.jumpOffset base))) base) = (.ok (), t) :=
    effect_of_transfersControl rfl h
  rw [perform_jumpFrom] at heffect
  cases htarget : base.offset (s.machine.reg Register.zero).toNat with
  | error fault =>
    rw [htarget] at heffect
    cases heffect
  | ok target =>
    rw [htarget] at heffect
    rw [pc_of_attempt_jump heffect]
    exact Address.val_of_offset htarget

theorem continuation?_of_execute (hentry : s.machine.pc.IsEntry)
    (h : s.perform (execute i now) = (.ok (), t)) :
    s.continuation? i = some t.machine.pc.val := by
  cases i with
  | ret => rw [continuation?, stack_of_ret h, List.head?_cons, Option.map_some]
  | jump target => rw [continuation?, pc_of_jump h]
  | call target => rw [continuation?, pc_of_call h]
  | jumpOffset base => rw [continuation?, pc_of_jumpOffset h]
  | _ => rw [continuation?_of_stays s rfl, pc_of_stays hentry rfl h]

/-- The instruction succeeds, and execution continues at the place with this number. -/
def ContinuesAt (s : Interpreter D K S G) (i : Instruction) (now place : Nat) : Prop :=
  ∃ t, s.perform (execute i now) = (.ok (), t) ∧ t.machine.pc.val = place

theorem continuesAt_iff_of_isSkip (hentry : s.machine.pc.IsEntry)
    (hroom : s.machine.pc.val ≤ 0xFFA) (hskip : i.isSkip = true) (place : Nat) :
    s.ContinuesAt i now place ↔ place = s.machine.pc.val + if s.skips i then 4 else 2 := by
  have hstays := transfersControl_of_isSkip hskip
  obtain ⟨t, ht⟩ := exists_execute_of_isSkip hentry hroom hskip now
  have hpc := pc_of_stays hentry hstays ht
  constructor
  · rintro ⟨u, hu, rfl⟩
    exact pc_of_stays hentry hstays hu
  · rintro rfl
    exact ⟨t, ht, hpc⟩

theorem skipsAt_iff (hentry : s.machine.pc.IsEntry) (hroom : s.machine.pc.val ≤ 0xFFA)
    (hskip : i.isSkip = true) :
    s.ContinuesAt i now (s.machine.pc.val + 4) ↔ s.skips i = true := by
  rw [continuesAt_iff_of_isSkip hentry hroom hskip]
  cases s.skips i <;> simp

/-- An instruction that succeeds continues at its continuation.  Of two opposite skips, with two
instructions after them, exactly one skips, and a skip on a key asks for that of the low nibble. -/
theorem pc_law (hentry : s.machine.pc.IsEntry) (now : Nat) :
    (∀ i t, s.perform (execute i now) = (.ok (), t) →
      s.continuation? i = some t.machine.pc.val) ∧
    (s.machine.pc.val ≤ 0xFFA →
      (∀ i j, Opposite i j →
        s.ContinuesAt i now (s.machine.pc.val + 4) ∧ s.ContinuesAt j now (s.machine.pc.val + 2) ∨
        s.ContinuesAt i now (s.machine.pc.val + 2) ∧ s.ContinuesAt j now (s.machine.pc.val + 4)) ∧
      ∀ (x : Register) (key : Key), key.val = (s.machine.reg x).toNat % 16 →
        (s.ContinuesAt (.skipHeld x) now (s.machine.pc.val + 4) ↔
          Keyboard.isHeld s.keyboard key = true) ∧
        (s.ContinuesAt (.skipFree x) now (s.machine.pc.val + 4) ↔
          Keyboard.isHeld s.keyboard key = false)) := by
  refine ⟨fun i t ↦ continuation?_of_execute hentry, fun hroom ↦ ⟨?_, ?_⟩⟩
  · intro i j hopposite
    obtain ⟨hi, hj⟩ := hopposite.isSkip
    simp only [continuesAt_iff_of_isSkip hentry hroom hi,
      continuesAt_iff_of_isSkip hentry hroom hj, skips_of_opposite s hopposite]
    cases s.skips i <;> simp
  · intro x key hkey
    have hnamed : Key.ofByte (s.machine.reg x) = key := Fin.ext hkey.symm
    rw [skipsAt_iff hentry hroom rfl, skipsAt_iff hentry hroom rfl, skips, skips, hnamed,
      Bool.not_eq_true']
    exact ⟨Iff.rfl, Iff.rfl⟩

/-- An interpreter for examples: key six is held, and `V0` names it by its low nibble alone. -/
def holding : Interpreter Frame KeyScript Mute StdGen :=
  { ofOptions {} {} { keys := Keys.released.press (Register.ofNat 6) } {} ⟨1, 1⟩ with
    machine := Machine.initial.setReg Register.zero 0x26 }

set_option maxRecDepth 20000 in
/-- A jump by `V0`, and the skips on `V0` and on the key that it names. -/
theorem pc_law_holding :
    holding.machine.pc.IsEntry ∧ holding.machine.pc.val ≤ 0xFFA ∧
    (∃ t, holding.perform (execute (.jumpOffset Address.programStart) 0) = (.ok (), t) ∧
      holding.continuation? (.jumpOffset Address.programStart) = some t.machine.pc.val ∧
      t.machine.pc.val = 0x226) ∧
    Opposite (.skipEqImm Register.zero 0x26) (.skipNeImm Register.zero 0x26) ∧
    (holding.ContinuesAt (.skipEqImm Register.zero 0x26) 0 0x204 ∧
      holding.ContinuesAt (.skipNeImm Register.zero 0x26) 0 0x202 ∨
      holding.ContinuesAt (.skipEqImm Register.zero 0x26) 0 0x202 ∧
      holding.ContinuesAt (.skipNeImm Register.zero 0x26) 0 0x204) ∧
    (Register.ofNat 6).val = (holding.machine.reg Register.zero).toNat % 16 ∧
    holding.ContinuesAt (.skipHeld Register.zero) 0 0x204 := by
  have hentry : holding.machine.pc.IsEntry := Address.programStart_isEntry
  have hroom : holding.machine.pc.val ≤ 0xFFA := by decide
  have hkey : (Register.ofNat 6).val = (holding.machine.reg Register.zero).toNat % 16 := by rfl
  have hopposite : Opposite (.skipEqImm Register.zero 0x26) (.skipNeImm Register.zero 0x26) :=
    .imm Register.zero 0x26
  obtain ⟨t, ht, hpc⟩ : ∃ t,
      holding.perform (execute (.jumpOffset Address.programStart) 0) = (.ok (), t) ∧
        t.machine.pc.val = 0x226 := ⟨_, rfl, rfl⟩
  obtain ⟨hcontinues, hskips⟩ := pc_law hentry 0
  obtain ⟨hopposites, hkeys⟩ := hskips hroom
  obtain ⟨hheld, -⟩ := hkeys Register.zero (Register.ofNat 6) hkey
  exact ⟨hentry, hroom, ⟨t, ht, hcontinues _ _ ht, hpc⟩, hopposite, hopposites _ _ hopposite, hkey,
    hheld.mpr rfl⟩

end Interpreter

end ChipEight
