import ChipEight.Proofs.Interpreter.Effect

/-!
# Stable properties of running interpreters

A property of the machine that is `ControlStable` is kept by every instruction at every time, by
steps, cycles and loads, and no less by those that fail.
-/

namespace ChipEight.Interpreter

open Command Machine

variable {D K S G : Type}
variable {s : Interpreter D K S G} {P : Machine → Prop}

theorem attempt_keeps (context : Option Context) {f : Machine → Except Fault Machine}
    (h : P s.machine) (hf : ∀ m, f s.machine = .ok m → P m) :
    P (s.perform (attempt context f)).2.machine := by
  rw [perform_attempt]
  cases hresult : f s.machine with
  | error fault => exact h
  | ok m => exact hf m hresult

variable (hP : ControlStable P) (h : P s.machine)

include hP h

theorem attempt_jump_stable (context : Option Context) (target : Address) :
    P (s.perform (attempt context (·.jump target))).2.machine := by
  apply attempt_keeps context h
  intro m hm
  obtain ⟨hentry, rfl⟩ := (jump_eq_ok_iff _ _ _).mp hm
  exact hP.jump h hentry

theorem attempt_advance_stable (context : Option Context) :
    P (s.perform (attempt context advance)).2.machine := by
  apply attempt_keeps context h
  intro m hm
  obtain ⟨hlast, rfl⟩ := (advance_eq_ok_iff (hP.entry h) m).mp hm
  exact hP.jump h (Address.following_isEntry (hP.entry h) hlast)

theorem moveOn_stable : P (s.perform moveOn).2.machine := attempt_advance_stable hP h _

theorem skipIf_stable (condition : Bool) : P (s.perform (skipIf condition)).2.machine := by
  rw [perform_skipIf]
  split
  · exact moveOn_stable hP h
  · exact h

theorem comeBack_stable (context : Option Context) :
    P (s.perform (comeBack context)).2.machine := by
  rw [perform_comeBack]
  cases hstack : s.machine.stack with
  | nil => exact h
  | cons back rest =>
    have hpop : P { s.machine with stack := rest } := hP.pop h hstack
    exact attempt_jump_stable (s := { s with machine := _ }) hP hpop context back

theorem callTo_stable (context : Option Context) (target : Address) :
    P (s.perform (callTo context target)).2.machine := by
  rw [perform_callTo, Address.offset_two (hP.entry h)]
  by_cases hlast : s.machine.pc.val = 0xFFE
  · rw [if_pos hlast]
    exact h
  · rw [if_neg hlast]
    dsimp only
    split
    · have hpush : P { s.machine with stack := s.machine.pc.following :: s.machine.stack } :=
        hP.call h hlast ‹_›
      exact attempt_jump_stable (s := { s with machine := _ }) hP hpush context target
    · exact h

theorem jumpFrom_stable (context : Option Context) (base : Address) :
    P (s.perform (jumpFrom context base)).2.machine := by
  rw [perform_jumpFrom]
  cases base.offset (s.machine.reg Register.zero).toNat with
  | error fault => exact h
  | ok target => exact attempt_jump_stable hP h context target

theorem loadProgram_stable (source : List Read) :
    P (s.perform (loadProgram source)).2.machine := by
  rw [perform_loadProgram]
  dsimp only
  cases (Read.intake (Address.programRoom + 1) source).fault? with
  | some text => exact h
  | none =>
    dsimp only
    cases hload : s.machine.loadProgram (Read.intake (Address.programRoom + 1) source).bytes with
    | error fault => exact h
    | ok m => exact hP.same h (loadProgram_sameControl hload)

theorem awaitKeyInto_stable [Keyboard K] (x : Register) :
    P (s.perform (awaitKeyInto x)).2.machine := by
  rw [perform_awaitKeyInto]
  dsimp only
  cases Key.ofIndex? (Keyboard.await s.keyboard).1 with
  | none => exact h
  | some key => exact hP.same h ⟨rfl, rfl⟩

variable [Display D] [Keyboard K] [Speaker S] [Entropy G]

theorem effect_of_span_stable {i : Instruction} {length : Nat}
    (hspan : i.spanLength? = some length) (now : Nat) :
    P (s.perform (effect i now)).2.machine := by
  obtain ⟨t, ht, hsame⟩ := perform_effect_of_span s hspan now
  rw [ht]
  split
  · exact hP.same h hsame
  · exact h

theorem effect_stable (i : Instruction) (now : Nat) : P (s.perform (effect i now)).2.machine := by
  by_cases hplain : i.isPlain
  · obtain ⟨t, ht, hsame⟩ := perform_effect_of_isPlain s hplain now
    rw [ht]
    exact hP.same h hsame
  · cases i with
    | ret => exact comeBack_stable hP h _
    | jump target => exact attempt_jump_stable hP h _ target
    | call target => exact callTo_stable hP h _ target
    | jumpOffset base => exact jumpFrom_stable hP h _ base
    | skipEqImm | skipNeImm | skipEq | skipNe | skipHeld | skipFree => exact skipIf_stable hP h _
    | awaitKey x => exact awaitKeyInto_stable hP h x
    | draw | decimal | store | load => exact effect_of_span_stable hP h rfl now
    | _ => exact absurd rfl hplain

theorem execute_stable (i : Instruction) (now : Nat) :
    P (s.perform (execute i now)).2.machine := by
  have heffect := effect_stable hP h i now
  rw [perform_execute]
  generalize s.perform (effect i now) = result at heffect ⊢
  rcases result with ⟨_ | _, t⟩
  · exact heffect
  · cases i.transfersControl
    · exact moveOn_stable hP heffect
    · exact heffect

theorem step_stable (now : Nat) : P (s.perform (step now)).2.machine := by
  rw [perform_step]
  cases s.machine.current with
  | error fault => exact h
  | ok i =>
    let noted := { s with journal := s.journal.note (.stepping s.machine.pc i) }
    exact execute_stable (s := noted) hP h i now

theorem cycle_stable (now : Nat) : P (s.perform (cycle now)).2.machine := by
  rw [perform_cycle]
  cases (Display.poll s.display).1 with
  | error fault => exact h
  | ok => exact step_stable (s := s.polled now) hP h now

end ChipEight.Interpreter
