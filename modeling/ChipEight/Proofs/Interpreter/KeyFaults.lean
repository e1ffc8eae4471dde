import ChipEight.Proofs.Interpreter.Operation

/-!
# Whose key was invalid

Of all that an interpreter does, only waiting for a key rejects a key.  So an operation that fails
for a key that does not exist has been given it by the keyboard, or else the display has failed with
that fault of its own accord.
-/

namespace ChipEight

theorem Key.ofIndex?_eq_none_iff {index : UInt8} : ofIndex? index = none ↔ 16 ≤ index.toNat := by
  unfold ofIndex?
  split <;> simp <;> omega

/-! ## Machines -/

/-- The result rejects no key. -/
def RejectsNoKey {α : Type} (result : Except Fault α) : Prop :=
  ∀ index, result ≠ .error (.invalidKey index)

theorem rejectsNoKey_error {α : Type} {fault : Fault} (h : ∀ index, fault ≠ .invalidKey index) :
    RejectsNoKey (.error fault : Except Fault α) :=
  fun index hfault ↦ h index (Except.error.inj hfault)

theorem RejectsNoKey.fault_ne {α : Type} {result : Except Fault α} {fault : Fault}
    (h : RejectsNoKey result) (hfault : result = .error fault) (index : UInt8) :
    fault ≠ .invalidKey index := by
  rintro rfl
  exact h index hfault

theorem RejectsNoKey.map {α β : Type} {result : Except Fault α} (h : RejectsNoKey result)
    (f : α → β) : RejectsNoKey (result.map f) := by
  cases result with
  | error fault => exact rejectsNoKey_error (h.fault_ne rfl)
  | ok a => nofun

theorem rejectsNoKey_ite {α : Type} {c : Prop} [Decidable c] {a : α} {fault : Fault}
    (h : ∀ index, fault ≠ .invalidKey index) :
    RejectsNoKey (if c then .ok a else .error fault) := by
  split
  · nofun
  · exact rejectsNoKey_error h

namespace Address

theorem rejectsNoKey_offset (a : Address) (n : Nat) : RejectsNoKey (a.offset n) := by
  intro index
  unfold offset checked
  split <;> nofun

theorem rejectsNoKey_aligned (a : Address) : RejectsNoKey a.aligned := rejectsNoKey_ite (by nofun)

theorem rejectsNoKey_spanEnd (start : Address) (length : Nat) :
    RejectsNoKey (start.spanEnd length) := rejectsNoKey_ite (by nofun)

end Address

namespace Machine

variable (m : Machine)

theorem rejectsNoKey_slice (start : Address) (length : Nat) : RejectsNoKey (m.slice start length) :=
  (start.rejectsNoKey_spanEnd length).map _

theorem rejectsNoKey_overwrite (start : Address) (bytes : List UInt8) :
    RejectsNoKey (m.overwrite start bytes) := (start.rejectsNoKey_spanEnd bytes.length).map _

theorem rejectsNoKey_loadRegisters (last : Register) : RejectsNoKey (m.loadRegisters last) :=
  (m.rejectsNoKey_slice m.index (last.val + 1)).map _

theorem rejectsNoKey_loadProgram (program : List UInt8) : RejectsNoKey (m.loadProgram program) :=
  rejectsNoKey_ite (by nofun)

theorem rejectsNoKey_current : RejectsNoKey m.current := by
  intro index
  unfold current
  split <;> nofun

theorem rejectsNoKey_jump (target : Address) : RejectsNoKey (m.jump target) := by
  unfold jump
  split
  · nofun
  · exact target.rejectsNoKey_aligned.map _

theorem rejectsNoKey_advance : RejectsNoKey m.advance := by
  unfold advance
  cases hnext : m.pc.offset 2 with
  | error fault => exact rejectsNoKey_error ((m.pc.rejectsNoKey_offset 2).fault_ne hnext)
  | ok next => exact m.rejectsNoKey_jump next

theorem rejectsNoKey_push (back : Address) : RejectsNoKey (m.push back) :=
  rejectsNoKey_ite (by nofun)

theorem rejectsNoKey_pop : RejectsNoKey m.pop := by
  intro index
  unfold pop
  split <;> nofun

end Machine

/-! ## Commands -/

namespace Command

variable {D K S G α β : Type}

/-- The command rejects no key, whatever the interpreter. -/
def KeyFree (command : Command D K S G α) : Prop :=
  ∀ (s : Interpreter D K S G) (f : Failure) (index : UInt8),
    (s.perform command).1 = .error f → f.fault ≠ .invalidKey index

theorem keyFree_of_ok {command : Command D K S G α}
    (h : ∀ s : Interpreter D K S G, ∃ a, (s.perform command).1 = .ok a) : command.KeyFree := by
  intro s f index hfailed
  obtain ⟨a, ha⟩ := h s
  rw [ha] at hfailed
  cases hfailed

theorem KeyFree.bind {command : Command D K S G α} {next : α → Command D K S G β}
    (h : command.KeyFree) (hnext : ∀ a, (next a).KeyFree) : (command >>= next).KeyFree := by
  intro s f index hfailed
  rw [Interpreter.perform_bind] at hfailed
  rcases hresult : s.perform command with ⟨_ | a, t⟩ <;> rw [hresult] at hfailed
  · cases hfailed
    exact h s f index (congrArg Prod.fst hresult)
  · exact hnext a t f index hfailed

theorem keyFree_modify (g : Interpreter D K S G → Interpreter D K S G) :
    (modify g : Command D K S G Unit).KeyFree := keyFree_of_ok fun _ ↦ ⟨(), rfl⟩

theorem keyFree_alter (g : Machine → Machine) : (alter g : Command D K S G Unit).KeyFree :=
  keyFree_modify _

theorem keyFree_get_bind {next : Interpreter D K S G → Command D K S G β}
    (hnext : ∀ s, (next s).KeyFree) : ((get : Command D K S G _) >>= next).KeyFree :=
  KeyFree.bind (keyFree_of_ok fun s ↦ ⟨s, rfl⟩) hnext

theorem keyFree_stop {context : Option Context} {fault : Fault}
    (h : ∀ index, fault ≠ .invalidKey index) :
    (stop context fault : Command D K S G α).KeyFree := by
  intro s f index hfailed
  rw [Interpreter.perform_stop] at hfailed
  cases hfailed
  exact h index

theorem keyFree_attempt {context : Option Context} {f : Machine → Except Fault Machine}
    (h : ∀ m, RejectsNoKey (f m)) : (attempt context f : Command D K S G Unit).KeyFree := by
  unfold attempt
  apply keyFree_get_bind
  intro s
  cases hresult : f s.machine with
  | error fault => exact keyFree_stop ((h s.machine).fault_ne hresult)
  | ok m => exact keyFree_alter _

end Command

/-- Whether the operation may execute an instruction. -/
def Operation.executes {D K : Type} : Operation D K → Bool
  | execute _ _ | step _ | cycle _ => true
  | _ => false

namespace Interpreter

open Command Machine

variable {D K S G : Type}

theorem keyFree_moveOn : (moveOn : Command D K S G Unit).KeyFree :=
  keyFree_attempt rejectsNoKey_advance

theorem keyFree_skipIf (condition : Bool) : (skipIf condition : Command D K S G Unit).KeyFree := by
  unfold skipIf
  split
  · exact keyFree_moveOn
  · exact keyFree_of_ok fun _ ↦ ⟨(), rfl⟩

theorem keyFree_comeBack (context : Option Context) :
    (comeBack context : Command D K S G Unit).KeyFree := by
  unfold comeBack
  apply keyFree_get_bind
  intro s
  cases hpop : s.machine.pop with
  | error fault => exact keyFree_stop (s.machine.rejectsNoKey_pop.fault_ne hpop)
  | ok popped =>
    exact (keyFree_alter _).bind fun _ ↦ keyFree_attempt fun m ↦ m.rejectsNoKey_jump _

theorem keyFree_callTo (context : Option Context) (target : Address) :
    (callTo context target : Command D K S G Unit).KeyFree := by
  unfold callTo
  apply keyFree_get_bind
  intro s
  cases hback : s.machine.pc.offset 2 with
  | error fault => exact keyFree_stop ((s.machine.pc.rejectsNoKey_offset 2).fault_ne hback)
  | ok back =>
    apply KeyFree.bind
    · exact keyFree_attempt fun m ↦ m.rejectsNoKey_push back
    · exact fun _ ↦ keyFree_attempt fun m ↦ m.rejectsNoKey_jump target

theorem keyFree_jumpFrom (context : Option Context) (base : Address) :
    (jumpFrom context base : Command D K S G Unit).KeyFree := by
  unfold jumpFrom
  apply keyFree_get_bind
  intro s
  cases htarget : base.offset (s.machine.reg Register.zero).toNat with
  | error fault => exact keyFree_stop ((base.rejectsNoKey_offset _).fault_ne htarget)
  | ok target => exact keyFree_attempt fun m ↦ m.rejectsNoKey_jump target

theorem keyFree_drawSprite [Display D] (context : Option Context) (x y : Register) (rows : Nat) :
    (drawSprite context x y rows : Command D K S G Unit).KeyFree := by
  unfold drawSprite
  apply keyFree_get_bind
  intro s
  cases hsprite : s.machine.slice s.machine.index rows with
  | error fault => exact keyFree_stop ((s.machine.rejectsNoKey_slice _ rows).fault_ne hsprite)
  | ok sprite => exact keyFree_of_ok fun _ ↦ ⟨_, rfl⟩

theorem keyFree_loadProgram (source : List Read) :
    (loadProgram source : Command D K S G Unit).KeyFree := by
  unfold loadProgram
  dsimp only
  split
  · exact keyFree_stop (by nofun)
  · apply KeyFree.bind
    · exact keyFree_attempt fun m ↦ m.rejectsNoKey_loadProgram _
    · exact fun _ ↦ keyFree_of_ok fun _ ↦ ⟨(), rfl⟩

variable [Display D] [Keyboard K] [Speaker S] [Entropy G]

/-- Only a wait for a key may reject one. -/
theorem keyFree_effect {i : Instruction} (h : ∀ x, i ≠ .awaitKey x) (now : Nat) :
    (effect i now : Command D K S G Unit).KeyFree := by
  unfold effect
  apply keyFree_get_bind
  intro s
  cases i with
  | awaitKey x => exact absurd rfl (h x)
  | ret => exact keyFree_comeBack _
  | jump target => exact keyFree_attempt fun m ↦ m.rejectsNoKey_jump target
  | call target => exact keyFree_callTo _ target
  | jumpOffset base => exact keyFree_jumpFrom _ base
  | skipEqImm | skipNeImm | skipEq | skipNe => exact keyFree_skipIf _
  | skipHeld | skipFree => exact keyFree_get_bind fun _ ↦ keyFree_skipIf _
  | draw x y rows => exact keyFree_drawSprite _ x y rows.toNat
  | decimal | store => exact keyFree_attempt fun m ↦ m.rejectsNoKey_overwrite m.index _
  | load last => exact keyFree_attempt fun m ↦ m.rejectsNoKey_loadRegisters last
  | _ => exact keyFree_of_ok fun _ ↦ ⟨_, rfl⟩

/-- What does not execute an instruction rejects no key either. -/
theorem keyFree_command {operation : Operation D K} (h : operation.executes = false) :
    (operation.command : Command D K S G Unit).KeyFree := by
  unfold Operation.command
  cases operation with
  | execute | step | cycle => cases h
  | load source => exact keyFree_loadProgram source
  | jump target => exact keyFree_attempt fun m ↦ m.rejectsNoKey_jump target
  | advance => exact keyFree_attempt rejectsNoKey_advance
  | push back => exact keyFree_attempt fun m ↦ m.rejectsNoKey_push back
  | pop => exact keyFree_attempt fun m ↦ m.rejectsNoKey_pop.map _
  | storeRegisters last => exact keyFree_attempt fun m ↦ m.rejectsNoKey_overwrite m.index _
  | loadRegisters last => exact keyFree_attempt fun m ↦ m.rejectsNoKey_loadRegisters last
  | setRegister | setIndex | setMemory => exact keyFree_alter _
  | setDisplay | setKeyboard => exact keyFree_modify _

/-! ## Where an invalid key comes from -/

/-- A wait has failed because the keyboard has answered with a number that is no key. -/
structure AnsweredWrongly (s : Interpreter D K S G) (f : Failure) (index : UInt8) : Prop where
  answer_eq : (Keyboard.await s.keyboard).1 = index
  ge : 16 ≤ index.toNat
  context_eq : f.context = none

/-- The display has failed for an invalid key of its own. -/
structure DisplayedWrongly (s : Interpreter D K S G) (f : Failure) (index : UInt8) : Prop where
  poll_eq : (Display.poll s.display).1 = .error (.invalidKey index)
  context_eq : f.context = some .refreshing

variable {s : Interpreter D K S G} {f : Failure} {index : UInt8}

theorem answeredWrongly_of_effect {i : Instruction} {now : Nat}
    (h : (s.perform (effect i now)).1 = .error f) (hindex : f.fault = .invalidKey index) :
    s.AnsweredWrongly f index := by
  cases i with
  | awaitKey x =>
    rw [perform_effect_awaitKey, perform_awaitKeyInto] at h
    dsimp only at h
    cases hkey : Key.ofIndex? (Keyboard.await s.keyboard).1 with
    | none =>
      rw [hkey] at h
      cases h
      cases hindex
      exact ⟨rfl, Key.ofIndex?_eq_none_iff.mp hkey, rfl⟩
    | some key =>
      rw [hkey] at h
      cases h
  | _ =>
    refine absurd hindex (keyFree_effect ?_ now s f index h)
    nofun

theorem answeredWrongly_of_execute {i : Instruction} {now : Nat}
    (h : (s.perform (execute i now)).1 = .error f) (hindex : f.fault = .invalidKey index) :
    s.AnsweredWrongly f index := by
  rw [perform_execute] at h
  rcases heffect : s.perform (effect i now) with ⟨outcome, t⟩
  rw [heffect] at h
  cases outcome with
  | error g =>
    cases h
    exact answeredWrongly_of_effect (congrArg Prod.fst heffect) hindex
  | ok _ =>
    dsimp only at h
    split at h
    · cases h
    · exact absurd hindex (keyFree_moveOn t f index h)

theorem answeredWrongly_of_step {now : Nat} (h : (s.perform (step now)).1 = .error f)
    (hindex : f.fault = .invalidKey index) : s.AnsweredWrongly f index := by
  rw [perform_step] at h
  cases hcurrent : s.machine.current with
  | error fault =>
    rw [hcurrent] at h
    cases h
    cases hindex
    exact absurd hcurrent (s.machine.rejectsNoKey_current index)
  | ok i =>
    rw [hcurrent] at h
    -- noting the instruction leaves the keyboard alone
    have hnoted := answeredWrongly_of_execute h hindex
    exact ⟨hnoted.answer_eq, hnoted.ge, hnoted.context_eq⟩

theorem wrongly_of_cycle {now : Nat} (h : (s.perform (cycle now)).1 = .error f)
    (hindex : f.fault = .invalidKey index) :
    s.AnsweredWrongly f index ∨ s.DisplayedWrongly f index := by
  rw [perform_cycle] at h
  cases hpoll : (Display.poll s.display).1 with
  | error fault =>
    rw [hpoll] at h
    cases h
    cases hindex
    exact .inr ⟨hpoll, rfl⟩
  | ok _ =>
    rw [hpoll] at h
    -- and so do the polls
    have hpolled := answeredWrongly_of_step (s := s.polled now) h hindex
    exact .inl ⟨hpolled.answer_eq, hpolled.ge, hpolled.context_eq⟩

/-- An operation that fails for an invalid key has got it from the keyboard or from the display. -/
theorem wrongly_of_command {operation : Operation D K}
    (h : (s.perform operation.command).1 = .error f) (hindex : f.fault = .invalidKey index) :
    s.AnsweredWrongly f index ∨ s.DisplayedWrongly f index := by
  cases operation with
  | execute i now => exact .inl (answeredWrongly_of_execute h hindex)
  | step now => exact .inl (answeredWrongly_of_step h hindex)
  | cycle now => exact wrongly_of_cycle h hindex
  | _ => exact absurd hindex (keyFree_command rfl s f index h)

/-- No operation rejects a key.  If one fails for an invalid key all the same, it is the display
that does. -/
def AcceptsKeys (s : Interpreter D K S G) : Prop :=
  ∀ (operation : Operation D K) (f : Failure) (index : UInt8),
    (s.perform operation.command).1 = .error f → f.fault = .invalidKey index →
      s.DisplayedWrongly f index

theorem acceptsKeys_of_lt (h : (Keyboard.await s.keyboard).1.toNat < 16) : s.AcceptsKeys := by
  intro operation f index hfailed hindex
  rcases wrongly_of_command hfailed hindex with hanswer | hdisplay
  · have hge := hanswer.ge
    rw [← hanswer.answer_eq] at hge
    omega
  · exact hdisplay

end Interpreter

end ChipEight
