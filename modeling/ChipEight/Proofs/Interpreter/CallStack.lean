import ChipEight.Display
import ChipEight.Keyboard
import ChipEight.Proofs.Interpreter.Effect

/-!
# Calls and returns

Only a call and a return change the call stack, the one by leaving the place after it on top and the
other by taking the top off.  So from a call on, as long as the stack is deeper than before it, the
return address of the call and all that was below it stay where they are; and the instruction that
brings the depth back is the return that uses this address.
-/

namespace ChipEight

/-- The call stack after an instruction, whether or not it fails. -/
def Machine.stackAfter (m : Machine) : Instruction → List Address
  | .ret => m.stack.tail
  | .call _ =>
    match m.pc.offset 2 with
    | .ok back => if m.stack.length < stackRoom then back :: m.stack else m.stack
    | .error _ => m.stack
  | _ => m.stack

theorem Address.val_of_offset {a b : Address} {n : Nat} (h : a.offset n = .ok b) :
    b.val = a.val + n := by
  unfold offset checked at h
  split at h
  · cases h
    rfl
  · contradiction

namespace Interpreter

open Command Machine

variable {D K S G : Type} {s t u : Interpreter D K S G}

/-- The same interpreter with another program counter and another call stack. -/
def redirected (s : Interpreter D K S G) (pc : Address) (stack : List Address) :
    Interpreter D K S G :=
  { s with machine := { s.machine with pc, stack } }

/-! ## The stack after one instruction -/

theorem exists_comeBack_eq_redirected (s : Interpreter D K S G) (context : Option Context) :
    ∃ pc, (s.perform (comeBack context)).2 = s.redirected pc s.machine.stack.tail := by
  rw [perform_comeBack]
  cases hstack : s.machine.stack with
  | nil =>
    have hsame : s = s.redirected s.machine.pc [] := by
      rw [← hstack]
      rfl
    exact ⟨s.machine.pc, hsame⟩
  | cons back rest =>
    exact exists_attempt_jump_eq_moved { s with machine := { s.machine with stack := rest } }
      context back

theorem exists_callTo_eq_redirected (s : Interpreter D K S G) (context : Option Context)
    (target : Address) : ∃ pc, (s.perform (callTo context target)).2 =
      s.redirected pc (s.machine.stackAfter (.call target)) := by
  rw [perform_callTo, stackAfter]
  cases s.machine.pc.offset 2 with
  | error fault => exact ⟨s.machine.pc, rfl⟩
  | ok back =>
    dsimp only
    split
    · exact exists_attempt_jump_eq_moved
        { s with machine := { s.machine with stack := back :: s.machine.stack } } context target
    · exact ⟨s.machine.pc, rfl⟩

theorem exists_jumpFrom_eq_moved (s : Interpreter D K S G) (context : Option Context)
    (base : Address) : ∃ pc, (s.perform (jumpFrom context base)).2 = s.moved pc := by
  rw [perform_jumpFrom]
  cases base.offset (s.machine.reg Register.zero).toNat with
  | error fault => exact ⟨s.machine.pc, rfl⟩
  | ok target => exact s.exists_attempt_jump_eq_moved context target

theorem exists_skipIf_eq_moved (s : Interpreter D K S G) (condition : Bool) :
    ∃ pc, (s.perform (skipIf condition)).2 = s.moved pc := by
  cases condition with
  | true => exact s.exists_moveOn_eq_moved
  | false => exact ⟨s.machine.pc, rfl⟩

theorem stack_awaitKeyInto [Keyboard K] (s : Interpreter D K S G) (x : Register) :
    (s.perform (awaitKeyInto x)).2.machine.stack = s.machine.stack := by
  rw [perform_awaitKeyInto]
  dsimp only
  cases Key.ofIndex? (Keyboard.await s.keyboard).1 <;> rfl

variable [Display D] [Keyboard K] [Speaker S] [Entropy G]

/-- Transfers of control and skips change the program counter and the stack at most. -/
theorem exists_effect_eq_redirected (s : Interpreter D K S G) {i : Instruction}
    (h : i.transfersControl = true ∨ i.isSkip = true) (now : Nat) :
    ∃ pc, (s.perform (effect i now)).2 = s.redirected pc (s.machine.stackAfter i) := by
  cases i with
  | ret => exact exists_comeBack_eq_redirected s _
  | jump target => exact s.exists_attempt_jump_eq_moved (some (.executing (.jump target))) target
  | call target => exact exists_callTo_eq_redirected s _ target
  | jumpOffset base => exact exists_jumpFrom_eq_moved s _ base
  | skipEqImm | skipNeImm | skipEq | skipNe | skipHeld | skipFree =>
    exact exists_skipIf_eq_moved s _
  | _ => rcases h with h | h <;> cases h

theorem stack_effect_of_control (s : Interpreter D K S G) {i : Instruction}
    (h : i.transfersControl = true ∨ i.isSkip = true) (now : Nat) :
    (s.perform (effect i now)).2.machine.stack = s.machine.stackAfter i := by
  obtain ⟨pc, hredirected⟩ := s.exists_effect_eq_redirected h now
  rw [hredirected, redirected]

theorem stack_effect_of_span (s : Interpreter D K S G) {i : Instruction} {length : Nat}
    (h : i.spanLength? = some length) (now : Nat) :
    (s.perform (effect i now)).2.machine.stack = s.machine.stack := by
  obtain ⟨t, ht, hsame⟩ := perform_effect_of_span s h now
  rw [ht]
  split
  · exact hsame.2
  · rfl

theorem stack_effect (s : Interpreter D K S G) (i : Instruction) (now : Nat) :
    (s.perform (effect i now)).2.machine.stack = s.machine.stackAfter i := by
  by_cases hplain : i.isPlain
  · obtain ⟨t, ht, hsame⟩ := perform_effect_of_isPlain s hplain now
    have hafter : s.machine.stackAfter i = s.machine.stack := by
      cases i <;> first | rfl | cases hplain
    rw [ht, hafter]
    exact hsame.2
  · cases i with
    | ret | jump | call | jumpOffset => exact stack_effect_of_control s (.inl rfl) now
    | skipEqImm | skipNeImm | skipEq | skipNe | skipHeld | skipFree =>
      exact stack_effect_of_control s (.inr rfl) now
    | awaitKey x => exact stack_awaitKeyInto s x
    | draw | decimal | store | load => exact stack_effect_of_span s rfl now
    | _ => exact absurd rfl hplain

theorem stack_execute (s : Interpreter D K S G) (i : Instruction) (now : Nat) :
    (s.perform (execute i now)).2.machine.stack = s.machine.stackAfter i := by
  obtain ⟨pc, hmoved⟩ := s.exists_execute_eq_moved i now
  rw [hmoved]
  exact stack_effect s i now

/-- A call that succeeds leaves the place after it on top of the stack. -/
theorem stack_of_call {target : Address} {now : Nat}
    (h : s.perform (execute (.call target) now) = (.ok (), t)) :
    ∃ back : Address, back.val = s.machine.pc.val + 2 ∧
      t.machine.stack = back :: s.machine.stack := by
  have hstack : t.machine.stack = s.machine.stackAfter (.call target) := by
    rw [← stack_execute s (.call target) now, h]
  rw [perform_execute, perform_effect_call, perform_callTo] at h
  rw [stackAfter] at hstack
  cases hback : s.machine.pc.offset 2 with
  | error fault =>
    rw [hback] at h
    cases h
  | ok back =>
    rw [hback] at h hstack
    by_cases hroom : s.machine.stack.length < stackRoom
    · simp only [if_pos hroom] at hstack
      exact ⟨back, Address.val_of_offset hback, hstack⟩
    · simp only [if_neg hroom] at h
      cases h

/-- A return that succeeds continues at the address that it takes off the stack. -/
theorem stack_of_ret {now : Nat} (h : s.perform (execute .ret now) = (.ok (), t)) :
    s.machine.stack = t.machine.pc :: t.machine.stack := by
  rw [perform_execute, perform_effect_ret, perform_comeBack] at h
  cases hstack : s.machine.stack with
  | nil =>
    rw [hstack] at h
    cases h
  | cons back rest =>
    rw [hstack] at h
    dsimp only at h
    rw [perform_attempt] at h
    cases hjump : Machine.jump { s.machine with stack := rest } back with
    | error fault =>
      rw [hjump] at h
      cases h
    | ok m =>
      rw [hjump] at h
      obtain ⟨-, rfl⟩ := (jump_eq_ok_iff _ _ _).mp hjump
      cases h
      rfl

/-! ## Runs -/

/-- A step or a cycle leads from `s` to `t`, and does not fail. -/
inductive Proceeds (s t : Interpreter D K S G) : Prop where
  | step (now : Nat) : s.perform (step now) = (.ok (), t) → Proceeds s t
  | cycle (now : Nat) : s.perform (cycle now) = (.ok (), t) → Proceeds s t

/-- A step that succeeds has executed the instruction at the program counter. -/
theorem exists_execute_of_step {now : Nat} (h : s.perform (step now) = (.ok (), t)) :
    ∃ (i : Instruction) (journal : Journal), s.machine.current = .ok i ∧
      { s with journal }.perform (execute i now) = (.ok (), t) := by
  rw [perform_step] at h
  cases hcurrent : s.machine.current with
  | error fault =>
    rw [hcurrent] at h
    cases h
  | ok i =>
    rw [hcurrent] at h
    exact ⟨i, _, rfl, h⟩

theorem exists_execute_of_cycle {now : Nat} (h : s.perform (cycle now) = (.ok (), t)) :
    ∃ (i : Instruction) (journal : Journal), s.machine.current = .ok i ∧ s.executed? = some i ∧
      { s.polled now with journal }.perform (execute i now) = (.ok (), t) := by
  rw [perform_cycle] at h
  unfold executed?
  cases hpoll : (Display.poll s.display).1 with
  | error fault =>
    rw [hpoll] at h
    cases h
  | ok =>
    rw [hpoll] at h
    obtain ⟨i, journal, hcurrent, hexecute⟩ := exists_execute_of_step h
    have hthere : s.machine.current = .ok i := hcurrent
    exact ⟨i, journal, hthere, by rw [hthere]; rfl, hexecute⟩

theorem Proceeds.exists_execute (h : s.Proceeds t) :
    ∃ (i : Instruction) (u : Interpreter D K S G) (now : Nat), s.machine.current = .ok i ∧
      u.machine = s.machine ∧ u.perform (execute i now) = (.ok (), t) := by
  cases h with
  | step now h =>
    obtain ⟨i, journal, hcurrent, hexecute⟩ := exists_execute_of_step h
    exact ⟨i, { s with journal }, now, hcurrent, rfl, hexecute⟩
  | cycle now h =>
    obtain ⟨i, journal, hcurrent, -, hexecute⟩ := exists_execute_of_cycle h
    exact ⟨i, { s.polled now with journal }, now, hcurrent, rfl, hexecute⟩

/-- The three things that can happen to the stack. -/
theorem Proceeds.stack_cases (h : s.Proceeds t) :
    t.machine.stack = s.machine.stack ∨
    (∃ target, s.machine.current = .ok (.call target) ∧ ∃ back : Address,
      back.val = s.machine.pc.val + 2 ∧ t.machine.stack = back :: s.machine.stack) ∨
    (s.machine.current = .ok .ret ∧ s.machine.stack = t.machine.pc :: t.machine.stack) := by
  obtain ⟨i, u, now, hcurrent, hmachine, hexecute⟩ := h.exists_execute
  have hstack : t.machine.stack = u.machine.stackAfter i := by
    rw [← stack_execute u i now, hexecute]
  rw [← hmachine] at hcurrent ⊢
  cases i with
  | call target => exact .inr (.inl ⟨target, hcurrent, stack_of_call hexecute⟩)
  | ret => exact .inr (.inr ⟨hcurrent, stack_of_ret hexecute⟩)
  | _ => exact .inl hstack

/-- What lies at the bottom of the stack stays there while the stack is at least as deep. -/
theorem Proceeds.suffix_stack {bottom : List Address} (h : s.Proceeds t)
    (hsuffix : bottom <:+ s.machine.stack) (hdeep : bottom.length ≤ t.machine.stack.length) :
    bottom <:+ t.machine.stack := by
  rcases h.stack_cases with hsame | ⟨target, -, back, -, hpush⟩ | ⟨-, hpop⟩
  · rwa [hsame]
  · rw [hpush]
    exact hsuffix.trans (List.suffix_cons back _)
  · rw [hpop] at hsuffix
    rcases List.suffix_cons_iff.mp hsuffix with hall | hrest
    · rw [hall, List.length_cons] at hdeep
      omega
    · exact hrest

variable {run : Nat → Interpreter D K S G} {n : Nat}

/-- From a call on, its return address and what is below stay in place while the stack is deeper
than before the call. -/
theorem suffix_stack_of_deeper (hrun : ∀ k < n, (run k).Proceeds (run (k + 1))) (hn : 1 < n)
    {target : Address} (hcall : (run 0).machine.current = .ok (.call target))
    (hdeeper : ∀ k, 0 < k → k < n →
      (run 0).machine.stack.length < (run k).machine.stack.length) :
    ∃ back : Address, back.val = (run 0).machine.pc.val + 2 ∧
      ∀ k, k + 1 < n → back :: (run 0).machine.stack <:+ (run (k + 1)).machine.stack := by
  obtain ⟨back, hback, hpush⟩ : ∃ back : Address, back.val = (run 0).machine.pc.val + 2 ∧
      (run 1).machine.stack = back :: (run 0).machine.stack := by
    rcases (hrun 0 (by omega)).stack_cases with hsame | ⟨_, _, hpush⟩ | ⟨hret, _⟩
    · have hlonger := hdeeper 1 Nat.one_pos hn
      rw [hsame] at hlonger
      exact absurd hlonger (Nat.lt_irrefl _)
    · exact hpush
    · rw [hcall] at hret
      cases hret
  refine ⟨back, hback, ?_⟩
  intro k hlt
  induction k with
  | zero => exact hpush ▸ List.suffix_refl _
  | succ k ih =>
    have hbefore := ih (Nat.lt_of_succ_lt hlt)
    apply (hrun (k + 1) (Nat.lt_of_succ_lt hlt)).suffix_stack hbefore
    exact hdeeper (k + 2) (Nat.succ_pos _) hlt

/-- A call whose depth is reached again for the first time is left by a return to the place after
it, with the stack that it found; and in the meantime the whole of this stack stayed in place. -/
theorem matching_return (hrun : ∀ k < n, (run k).Proceeds (run (k + 1))) (hn : 2 ≤ n)
    {target : Address} (hcall : (run 0).machine.current = .ok (.call target))
    (hdeeper : ∀ k, 0 < k → k < n →
      (run 0).machine.stack.length < (run k).machine.stack.length)
    (hdepth : (run n).machine.stack.length = (run 0).machine.stack.length) :
    (run (n - 1)).machine.current = .ok .ret ∧
      (run n).machine.pc.val = (run 0).machine.pc.val + 2 ∧
      (run n).machine.stack = (run 0).machine.stack ∧
      ∀ k, 0 < k → k < n → (run 0).machine.stack <:+ (run k).machine.stack := by
  obtain ⟨back, hback, hsuffix⟩ := suffix_stack_of_deeper hrun hn hcall hdeeper
  obtain ⟨last, rfl⟩ : ∃ last, n = last + 2 := ⟨n - 2, by omega⟩
  have hbottom := hsuffix last (Nat.lt_succ_self _)
  have hlonger := hdeeper (last + 1) (Nat.succ_pos last) (Nat.lt_succ_self _)
  rcases (hrun (last + 1) (Nat.lt_succ_self _)).stack_cases with hsame |
    ⟨_, _, _, _, hpush⟩ | ⟨hret, hpop⟩
  · rw [← hsame, hdepth] at hlonger
    exact absurd hlonger (Nat.lt_irrefl _)
  · rw [hpush, List.length_cons] at hdepth
    omega
  · rw [hpop] at hbottom
    have hwhole : back :: (run 0).machine.stack =
        (run (last + 2)).machine.pc :: (run (last + 2)).machine.stack := by
      apply hbottom.eq_of_length
      rw [List.length_cons, List.length_cons, hdepth]
    obtain ⟨hpc, hstack⟩ := List.cons.inj hwhole
    refine ⟨hret, ?_, hstack.symm, ?_⟩
    · rw [← hpc, hback]
    · intro k hpos hlt
      obtain ⟨before, rfl⟩ := Nat.exists_eq_add_one.mpr hpos
      exact (List.suffix_cons back _).trans (hsuffix before hlt)

/-- An interpreter for examples: the routine that it calls at `0x204` calls another at `0x208`. -/
def nesting : Interpreter Frame KeyScript Mute StdGen :=
  { ofOptions {} {} {} {} ⟨1, 1⟩ with
    machine := Machine.initial.poke 0x200
      [0x22, 0x04, 0x00, 0x00, 0x22, 0x08, 0x00, 0xEE, 0x00, 0xEE] }

set_option maxRecDepth 20000 in
/-- The outer call comes back to the place after it, past the inner one. -/
theorem matching_return_nested :
    ∃ run : Nat → Interpreter Frame KeyScript Mute StdGen, run 0 = nesting ∧
      (∀ k < 4, (run k).Proceeds (run (k + 1))) ∧ 2 ≤ 4 ∧
      (run 0).machine.current = .ok (.call (Address.wrapping 0x204)) ∧
      (∀ k, 0 < k → k < 4 → (run 0).machine.stack.length < (run k).machine.stack.length) ∧
      (run 4).machine.stack.length = (run 0).machine.stack.length ∧
      (run 3).machine.current = .ok .ret ∧ (run 4).machine.pc.val = 0x200 + 2 ∧
      (run 4).machine.stack = [] ∧ (run 2).machine.stack.length = 2 := by
  obtain ⟨t₁, t₂, t₃, t₄, h₁, h₂, h₃, h₄, hd₁, hd₂, hd₃, hd₄, htwice⟩ :
      ∃ t₁ t₂ t₃ t₄ : Interpreter Frame KeyScript Mute StdGen,
        nesting.perform (step 0) = (.ok (), t₁) ∧ t₁.perform (step 0) = (.ok (), t₂) ∧
        t₂.perform (step 0) = (.ok (), t₃) ∧ t₃.perform (step 0) = (.ok (), t₄) ∧
        nesting.machine.stack.length < t₁.machine.stack.length ∧
        nesting.machine.stack.length < t₂.machine.stack.length ∧
        nesting.machine.stack.length < t₃.machine.stack.length ∧
        t₄.machine.stack.length = nesting.machine.stack.length ∧ t₂.machine.stack.length = 2 :=
    ⟨_, _, _, _, rfl, rfl, rfl, rfl, Nat.one_pos, Nat.two_pos, Nat.one_pos, rfl, rfl⟩
  have hcall : nesting.machine.current = .ok (.call (Address.wrapping 0x204)) := by rfl
  let run : Nat → Interpreter Frame KeyScript Mute StdGen
    | 0 => nesting
    | 1 => t₁
    | 2 => t₂
    | 3 => t₃
    | _ => t₄
  have hrun : ∀ k < 4, (run k).Proceeds (run (k + 1)) := by
    intro k hk
    match k, hk with
    | 0, _ => exact .step 0 h₁
    | 1, _ => exact .step 0 h₂
    | 2, _ => exact .step 0 h₃
    | 3, _ => exact .step 0 h₄
  have hdeeper : ∀ k, 0 < k → k < 4 →
      (run 0).machine.stack.length < (run k).machine.stack.length := by
    intro k hpos hk
    match k, hpos, hk with
    | 1, _, _ => exact hd₁
    | 2, _, _ => exact hd₂
    | 3, _, _ => exact hd₃
  have htwo : 2 ≤ 4 := by decide
  obtain ⟨hret, hpc, hstack, -⟩ := matching_return hrun htwo hcall hdeeper hd₄
  exact ⟨run, rfl, hrun, htwo, hcall, hdeeper, hd₄, hret, hpc, hstack, htwice⟩

end Interpreter

end ChipEight
