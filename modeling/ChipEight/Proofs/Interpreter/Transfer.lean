import ChipEight.Proofs.Interpreter.Continuation
import Mathlib.Data.List.GetD

/-!
# Registers in memory

A block of registers that is stored can be loaded again, whole or in part, as long as its bytes and
the index register stay as they are; and storing what has just been loaded changes nothing.  The
decimal digits of a register are three such bytes.  A span that does not fit is refused, and then
nothing is transferred at all.
-/

namespace ChipEight

/-! ## Blocks -/

namespace Machine

/-- Whether there is an instruction to move on to. -/
def CanAdvance (m : Machine) : Prop := ∃ t, m.advance = .ok t

/-- This is a matter of the program counter alone. -/
theorem canAdvance_iff (m : Machine) :
    m.CanAdvance ↔ ∃ next, m.pc.offset 2 = .ok next ∧ next.IsEntry := by
  unfold CanAdvance advance
  cases m.pc.offset 2 with
  | error fault => simp
  | ok next => simp [jump_eq_ok_iff]

theorem CanAdvance.of_pc_eq {m t : Machine} (h : m.CanAdvance) (hpc : t.pc = m.pc) :
    t.CanAdvance := by
  rw [canAdvance_iff] at h ⊢
  rwa [hpc]

theorem advance_sameData {m t : Machine} (h : m.advance = .ok t) : m.SameData t := by
  unfold advance at h
  cases hnext : m.pc.offset 2 with
  | error fault => simp only [hnext, reduceCtorEq] at h
  | ok next =>
    simp only [hnext, jump_eq_ok_iff] at h
    obtain ⟨-, rfl⟩ := h
    exact ⟨rfl, rfl, rfl⟩

theorem getElem?_poke (m : Machine) {start k : Nat} {bytes : List UInt8}
    (hfits : start + bytes.length ≤ 0x1000) (hk : k < bytes.length) :
    (m.poke start bytes).memory[start + k]? = some bytes[k] := by
  calc
    _ = if start ≤ start + k ∧ start + k < 0x1000 then
        bytes[start + k - start]?.or m.memory[start + k]? else m.memory[start + k]? :=
      Block.getElem?_write m.memory start bytes (start + k)
    _ = some bytes[k] := by
      rw [if_pos (by omega), Nat.add_sub_cancel_left, List.getElem?_eq_getElem hk, Option.some_or]

/-- The registers up to `last` filled with what stands in memory at the index register. -/
def filled (m : Machine) (last : Register) : Machine :=
  { m with registers := Block.write m.registers 0 (Block.read m.memory m.index (last.val + 1)) }

/-- The registers up to `last` copied to memory at the index register. -/
def stored (m : Machine) (last : Register) : Machine :=
  m.poke m.index (Block.read m.registers 0 (last.val + 1))

theorem reg_eq_iff (m : Machine) (r : Register) (value : UInt8) :
    m.reg r = value ↔ m.registers[r.val]? = some value := by
  rw [Vector.getElem?_eq_getElem r.isLt, Option.some_inj]
  rfl

theorem reg_filled_of_le (m : Machine) {last r : Register} {value : UInt8}
    (hfits : m.index.val + last.val ≤ 0xFFF) (hr : r ≤ last)
    (hthere : m.memory[m.index.val + r.val]? = some value) : (m.filled last).reg r = value := by
  have hspan : m.index.val + (last.val + 1) ≤ 0x1000 := by omega
  have hlt : r.val < last.val + 1 := Nat.lt_succ_of_le hr
  have hread : (Block.read m.memory m.index (last.val + 1))[r.val]? = some value := by
    rw [Block.getElem?_read m.memory hspan hlt, hthere]
  rw [reg_eq_iff]
  calc
    _ = if 0 ≤ r.val ∧ r.val < 16 then
        (Block.read m.memory m.index (last.val + 1))[r.val - 0]?.or m.registers[r.val]?
        else m.registers[r.val]? := Block.getElem?_write _ _ _ _
    _ = some value := by
      rw [if_pos ⟨Nat.zero_le _, r.isLt⟩, Nat.sub_zero, hread, Option.some_or]

theorem reg_filled_of_gt (m : Machine) {last r : Register}
    (hfits : m.index.val + last.val ≤ 0xFFF) (hr : last < r) :
    (m.filled last).reg r = m.reg r := by
  have hspan : m.index.val + (last.val + 1) ≤ 0x1000 := by omega
  have hlength : (Block.read m.memory m.index (last.val + 1)).length = last.val + 1 :=
    Block.length_read m.memory hspan
  have hlt : last.val < r.val := hr
  exact Block.getElem_write_of_outside _ _ _ r.isLt (by omega)

theorem getElem?_stored (m : Machine) {last r : Register}
    (hfits : m.index.val + last.val ≤ 0xFFF) (hr : r ≤ last) :
    (m.stored last).memory[m.index.val + r.val]? = some (m.reg r) := by
  have hlength : (Block.read m.registers 0 (last.val + 1)).length = last.val + 1 :=
    Block.length_read _ (by omega)
  have hlt : r.val < last.val + 1 := Nat.lt_succ_of_le hr
  have hread : (Block.read m.registers 0 (last.val + 1))[r.val]? = some (m.reg r) := by
    rw [Block.getElem?_read _ (by omega) hlt, Nat.zero_add, ← reg_eq_iff]
  rw [stored, getElem?_poke m (by omega) (by omega), ← hread, List.getElem?_eq_getElem]

/-- What has just been loaded is there already. -/
theorem stored_filled (m : Machine) {last : Register} (hfits : m.index.val + last.val ≤ 0xFFF) :
    ((m.filled last).stored last).memory = m.memory := by
  have hspan : m.index.val + (last.val + 1) ≤ 0x1000 := by omega
  have hlength : (Block.read (m.filled last).registers 0 (last.val + 1)).length = last.val + 1 :=
    Block.length_read _ (by omega)
  apply Vector.ext
  intro place hplace
  by_cases hinside : m.index.val ≤ place ∧ place < m.index.val + (last.val + 1)
  · obtain ⟨k, rfl⟩ := Nat.exists_eq_add_of_le hinside.1
    let r : Register := ⟨k, by omega⟩
    have hr : r ≤ last := Nat.le_of_lt_succ (Nat.lt_of_add_lt_add_left hinside.2)
    have hthere : m.memory[m.index.val + r.val]? = some m.memory[m.index.val + k] :=
      Vector.getElem?_eq_getElem hplace
    have hstored : ((m.filled last).stored last).memory[m.index.val + k]? =
        some ((m.filled last).reg r) := getElem?_stored (m.filled last) hfits hr
    rw [reg_filled_of_le m hfits hr hthere, Vector.getElem?_eq_getElem hplace] at hstored
    exact Option.some.inj hstored
  · have hindex : (m.filled last).index.val = m.index.val := rfl
    exact Block.getElem_write_of_outside _ _ _ hplace (by omega)

theorem SameData.memory_stored {m t : Machine} (h : m.SameData t) (last : Register) :
    (t.stored last).memory = (m.stored last).memory := by
  simp only [stored, poke, h.memory, h.registers, h.index]

/-! ## Decimal digits -/

theorem decimalDigits_value (b : UInt8) :
    100 * (b / 100).toNat + 10 * (b / 10 % 10).toNat + (b % 10).toNat = b.toNat := by
  simp only [UInt8.toNat_div, UInt8.toNat_mod, UInt8.reduceToNat]
  omega

theorem le_nine_of_mem_decimalDigits {b digit : UInt8} (h : digit ∈ decimalDigits b) :
    digit ≤ 9 := by
  have hlt := b.toNat_lt
  simp only [decimalDigits, List.mem_cons, List.not_mem_nil, or_false] at h
  rw [UInt8.le_iff_toNat_le]
  rcases h with rfl | rfl | rfl <;>
    simp only [UInt8.toNat_div, UInt8.toNat_mod, UInt8.reduceToNat] <;> omega

end Machine

/-- The index register and the bytes from it on, as many as `length`, are the same. -/
structure Machine.SameSpan (m t : Machine) (length : Nat) : Prop where
  index : t.index = m.index
  memory (k : Nat) : k < length → t.memory[m.index.val + k]? = m.memory[m.index.val + k]?

theorem Machine.SameSpan.refl (m : Machine) (length : Nat) : m.SameSpan m length :=
  ⟨rfl, fun _ _ ↦ rfl⟩

namespace Interpreter

open Machine

variable {D K S G : Type} [Display D] [Keyboard K] [Speaker S] [Entropy G]
variable {s t : Interpreter D K S G} {i : Instruction} {now : Nat}

/-! ## Instructions -/

/-- The instruction fails, and nothing has changed. -/
def Refuses (s : Interpreter D K S G) (i : Instruction) (now : Nat) : Prop :=
  ∃ f, s.perform (execute i now) = (.error f, s)

theorem refuses_of_span {length : Nat} (hspan : i.spanLength? = some length)
    (hlong : 0x1000 < s.machine.index.val + length) : s.Refuses i now := by
  obtain ⟨t, heffect, -⟩ := perform_effect_of_span s hspan now
  rw [if_neg (Nat.not_le_of_lt hlong)] at heffect
  unfold Refuses
  rw [perform_execute, heffect]
  exact ⟨_, rfl⟩

/-- An instruction that only changes data succeeds if there is an instruction after it. -/
theorem exists_execute_sameData {m : Machine} (hstays : i.transfersControl = false)
    (heffect : s.perform (effect i now) = (.ok (), { s with machine := m }))
    (hpc : m.pc = s.machine.pc) (hadvance : s.machine.CanAdvance) :
    ∃ t, s.perform (execute i now) = (.ok (), t) ∧ m.SameData t.machine := by
  obtain ⟨n, hn⟩ := hadvance.of_pc_eq hpc
  have hmoveOn : ({ s with machine := m } : Interpreter D K S G).perform moveOn =
      (.ok (), { s with machine := n }) := by
    rw [perform_moveOn]
    simp only [hn]
  refine ⟨{ s with machine := n }, ?_, advance_sameData hn⟩
  rw [perform_execute, heffect, hstays]
  exact hmoveOn

theorem exists_execute_store {x : Register} (hfits : s.machine.index.val + x.val ≤ 0xFFF)
    (hadvance : s.machine.CanAdvance) (now : Nat) :
    ∃ t, s.perform (execute (.store x) now) = (.ok (), t) ∧
      (s.machine.stored x).SameData t.machine := by
  have heffect : s.perform (effect (.store x) now) =
      (.ok (), { s with machine := s.machine.stored x }) := by
    rw [perform_effect_store, perform_attempt_ite s _ (storeRegisters_eq s.machine x),
      if_pos (by omega)]
    rfl
  exact exists_execute_sameData rfl heffect rfl hadvance

theorem exists_execute_load {x : Register} (hfits : s.machine.index.val + x.val ≤ 0xFFF)
    (hadvance : s.machine.CanAdvance) (now : Nat) :
    ∃ t, s.perform (execute (.load x) now) = (.ok (), t) ∧
      (s.machine.filled x).SameData t.machine := by
  have heffect : s.perform (effect (.load x) now) =
      (.ok (), { s with machine := s.machine.filled x }) := by
    rw [perform_effect_load, perform_attempt_ite s _ (loadRegisters_eq s.machine x),
      if_pos (by omega)]
    rfl
  exact exists_execute_sameData rfl heffect rfl hadvance

theorem exists_execute_decimal {x : Register} (hfits : s.machine.index.val + 2 ≤ 0xFFF)
    (hadvance : s.machine.CanAdvance) (now : Nat) :
    ∃ t, s.perform (execute (.decimal x) now) = (.ok (), t) ∧
      (s.machine.poke s.machine.index (decimalDigits (s.machine.reg x))).SameData t.machine := by
  have heffect : s.perform (effect (.decimal x) now) = (.ok (), { s with
      machine := s.machine.poke s.machine.index (decimalDigits (s.machine.reg x)) }) := by
    rw [perform_effect_decimal, perform_attempt_ite s _ (storeDecimal_eq s.machine x),
      if_pos (by omega)]
  exact exists_execute_sameData rfl heffect rfl hadvance

/-- A load takes each register from the span, as far as it reaches, and leaves the others. -/
theorem exists_load_of_span {y : Register} (hfits : s.machine.index.val + y.val ≤ 0xFFF)
    (hadvance : s.machine.CanAdvance) (now : Nat) {value : Register → UInt8}
    (hthere : ∀ r, r ≤ y → s.machine.memory[s.machine.index.val + r.val]? = some (value r)) :
    ∃ t, s.perform (execute (.load y) now) = (.ok (), t) ∧
      (∀ r, r ≤ y → t.machine.reg r = value r) ∧
      (∀ r, y < r → t.machine.reg r = s.machine.reg r) ∧ t.machine.index = s.machine.index := by
  obtain ⟨t, hload, hdata⟩ := exists_execute_load hfits hadvance now
  have hreg (r : Register) : t.machine.reg r = (s.machine.filled y).reg r := by
    rw [reg, hdata.registers, reg]
  refine ⟨t, hload, ?_, ?_, hdata.index⟩
  · intro r hr
    rw [hreg, reg_filled_of_le _ hfits hr (hthere r hr)]
  · intro r hr
    rw [hreg, reg_filled_of_gt _ hfits hr]

/-- Bytes that were written to the span can be loaded as long as they stay. -/
theorem exists_load_of_sameSpan {m n : Machine} {u : Interpreter D K S G} {y : Register}
    {length : Nat} (hfits : m.index.val + y.val ≤ 0xFFF) (hdata : m.SameData n)
    (hsame : n.SameSpan u.machine length) (hlength : y.val < length)
    (hadvance : u.machine.CanAdvance) (later : Nat) {value : Register → UInt8}
    (hthere : ∀ r, r ≤ y → m.memory[m.index.val + r.val]? = some (value r)) :
    ∃ v, u.perform (execute (.load y) later) = (.ok (), v) ∧
      (∀ r, r ≤ y → v.machine.reg r = value r) ∧
      (∀ r, y < r → v.machine.reg r = u.machine.reg r) ∧ v.machine.index = m.index := by
  have hindex : u.machine.index = m.index := hsame.index.trans hdata.index
  have hroom : u.machine.index.val + y.val ≤ 0xFFF := by rwa [hindex]
  have hkept : ∀ r, r ≤ y →
      u.machine.memory[u.machine.index.val + r.val]? = some (value r) := by
    intro r hr
    have hlt : r.val < length := Nat.lt_of_le_of_lt hr hlength
    rw [hsame.index, hsame.memory r.val hlt, hdata.memory, hdata.index]
    exact hthere r hr
  obtain ⟨v, hload, hloaded, hothers, hstays⟩ := exists_load_of_span hroom hadvance later hkept
  exact ⟨v, hload, hloaded, hothers, hstays.trans hindex⟩

/-- Registers that are stored are restored from the same bytes, however the rest of the machine and
its devices have changed, and storing what was loaded changes nothing.  The digits of a register are
loaded as digits of its value.  A span that does not fit is refused. -/
theorem transfer_round_trips (s : Interpreter D K S G) (now : Nat) :
    (∀ x : Register, s.machine.index.val + x.val ≤ 0xFFF → s.machine.CanAdvance →
      ∃ t, s.perform (execute (.store x) now) = (.ok (), t) ∧ t.machine.index = s.machine.index ∧
        ∀ (u : Interpreter D K S G) (y : Register) (later : Nat), y ≤ x →
          t.machine.SameSpan u.machine (x.val + 1) → u.machine.CanAdvance →
          ∃ v, u.perform (execute (.load y) later) = (.ok (), v) ∧
            (∀ r, r ≤ y → v.machine.reg r = s.machine.reg r) ∧
            (∀ r, y < r → v.machine.reg r = u.machine.reg r) ∧
            v.machine.index = s.machine.index) ∧
    (∀ x : Register, s.machine.index.val + x.val ≤ 0xFFF → s.machine.CanAdvance →
      ∃ t, s.perform (execute (.load x) now) = (.ok (), t) ∧
        ∀ later, t.machine.CanAdvance →
          ∃ u, t.perform (execute (.store x) later) = (.ok (), u) ∧
            u.machine.memory = s.machine.memory) ∧
    (∀ x : Register, s.machine.index.val + 2 ≤ 0xFFF → s.machine.CanAdvance →
      ∃ t, s.perform (execute (.decimal x) now) = (.ok (), t) ∧
        ∀ (u : Interpreter D K S G) (later : Nat), t.machine.SameSpan u.machine 3 →
          u.machine.CanAdvance →
          ∃ v, u.perform (execute (.load (Register.ofNat 2)) later) = (.ok (), v) ∧
            (∀ r, r ≤ Register.ofNat 2 → v.machine.reg r ≤ 9) ∧
            100 * (v.machine.reg (Register.ofNat 0)).toNat +
              10 * (v.machine.reg (Register.ofNat 1)).toNat +
              (v.machine.reg (Register.ofNat 2)).toNat = (s.machine.reg x).toNat) ∧
    (∀ x : Register, 0xFFF < s.machine.index.val + x.val →
      s.Refuses (.store x) now ∧ s.Refuses (.load x) now) ∧
    (0xFFF < s.machine.index.val + 2 → ∀ x, s.Refuses (.decimal x) now) := by
  refine ⟨?_, ?_, ?_, ?_, ?_⟩
  · intro x hfits hadvance
    obtain ⟨t, hstore, hdata⟩ := exists_execute_store hfits hadvance now
    refine ⟨t, hstore, hdata.index, ?_⟩
    intro u y later hy hsame hagain
    have hle : y.val ≤ x.val := hy
    have hroom : (s.machine.stored x).index.val + y.val ≤ 0xFFF :=
      Nat.le_trans (Nat.add_le_add_left hle _) hfits
    exact exists_load_of_sameSpan hroom hdata hsame (Nat.lt_succ_of_le hle) hagain later
      fun r hr ↦ getElem?_stored s.machine hfits (Nat.le_trans hr hy)
  · intro x hfits hadvance
    obtain ⟨t, hload, hfilled⟩ := exists_execute_load hfits hadvance now
    refine ⟨t, hload, ?_⟩
    intro later hagain
    have hroom : t.machine.index.val + x.val ≤ 0xFFF := by rwa [hfilled.index]
    obtain ⟨u, hstore, hstored⟩ := exists_execute_store hroom hagain later
    refine ⟨u, hstore, ?_⟩
    rw [hstored.memory, hfilled.memory_stored, stored_filled s.machine hfits]
  · intro x hfits hadvance
    obtain ⟨t, hdecimal, hdata⟩ := exists_execute_decimal hfits hadvance now
    refine ⟨t, hdecimal, ?_⟩
    intro u later hsame hagain
    let digits := decimalDigits (s.machine.reg x)
    have hthere : ∀ r, r ≤ Register.ofNat 2 →
        (s.machine.poke s.machine.index digits).memory[s.machine.index.val + r.val]? =
          some (digits.getD r.val 0) := by
      intro r hr
      have hlt : r.val < digits.length := Nat.lt_succ_of_le hr
      rw [List.getD_eq_getElem _ _ hlt]
      exact getElem?_poke s.machine (Nat.succ_le_succ hfits) hlt
    obtain ⟨v, hload, hdigits, -, -⟩ :=
      exists_load_of_sameSpan hfits hdata hsame (Nat.lt_succ_self 2) hagain later hthere
    refine ⟨v, hload, ?_, ?_⟩
    · intro r hr
      have hlt : r.val < (decimalDigits (s.machine.reg x)).length := Nat.lt_succ_of_le hr
      rw [hdigits r hr, List.getD_eq_getElem _ _ hlt]
      exact le_nine_of_mem_decimalDigits (List.getElem_mem hlt)
    · rw [hdigits _ (by decide), hdigits _ (by decide), hdigits _ (by decide)]
      exact decimalDigits_value (s.machine.reg x)
  · intro x hlong
    have hspan := Nat.succ_le_succ hlong
    exact ⟨refuses_of_span rfl hspan, refuses_of_span rfl hspan⟩
  · intro hlong x
    exact refuses_of_span rfl (Nat.succ_le_succ hlong)

/-- An interpreter for examples: the index register leaves room for three bytes. -/
def brimming : Interpreter Frame KeyScript Mute StdGen :=
  { ofOptions {} {} {} {} ⟨1, 1⟩ with
    machine := (Machine.initial.setReg (Register.ofNat 1) 157).setIndex (Address.wrapping 0xFFD) }

set_option maxRecDepth 20000 in
/-- Up to the last byte of memory, and not beyond: `V1` is changed between a store and a load, and
is itself overwritten by one of its digits. -/
theorem transfer_round_trips_brimming :
    let two := Register.ofNat 2
    let further : Interpreter Frame KeyScript Mute StdGen :=
      { brimming with machine := brimming.machine.setIndex (Address.wrapping 0xFFE) }
    brimming.machine.index.val + two.val ≤ 0xFFF ∧ brimming.machine.CanAdvance ∧
    (∃ t v, brimming.perform (execute (.store two) 0) = (.ok (), t) ∧
      let u := { t with machine := t.machine.setReg (Register.ofNat 1) 0 }
      t.machine.SameSpan u.machine (two.val + 1) ∧ u.machine.CanAdvance ∧
      u.perform (execute (.load (Register.ofNat 1)) 1) = (.ok (), v) ∧
      v.machine.reg (Register.ofNat 1) = 157) ∧
    (∃ t u, brimming.perform (execute (.load two) 0) = (.ok (), t) ∧ t.machine.CanAdvance ∧
      t.perform (execute (.store two) 1) = (.ok (), u) ∧
      u.machine.memory = brimming.machine.memory) ∧
    (∃ t v, brimming.perform (execute (.decimal (Register.ofNat 1)) 0) = (.ok (), t) ∧
      t.machine.SameSpan t.machine 3 ∧ t.machine.CanAdvance ∧
      t.perform (execute (.load two) 1) = (.ok (), v) ∧
      100 * (v.machine.reg (Register.ofNat 0)).toNat +
        10 * (v.machine.reg (Register.ofNat 1)).toNat +
        (v.machine.reg (Register.ofNat 2)).toNat = 157) ∧
    0xFFF < brimming.machine.index.val + 3 ∧ brimming.Refuses (.store (Register.ofNat 3)) 0 ∧
    0xFFF < further.machine.index.val + 2 ∧ further.Refuses (.decimal two) 0 := by
  intro two further
  have hfits : brimming.machine.index.val + two.val ≤ 0xFFF := by decide
  have hlong : 0xFFF < brimming.machine.index.val + (Register.ofNat 3).val := by decide
  have hlonger : 0xFFF < further.machine.index.val + 2 := by decide
  have hentry : brimming.machine.pc.IsEntry := Address.programStart_isEntry
  have hsecond : (Address.wrapping 0x202).IsEntry := by decide
  have hthird : (Address.wrapping 0x204).IsEntry := by decide
  have hadvance : brimming.machine.CanAdvance := (canAdvance_iff _).mpr ⟨_, rfl, hsecond⟩
  have hagain {m : Machine} (hpc : m.pc.val = 0x202) : m.CanAdvance := by
    have hplace : m.pc = Address.wrapping 0x202 := Fin.ext hpc
    exact (canAdvance_iff m).mpr ⟨_, by rw [hplace]; rfl, hthird⟩
  obtain ⟨hstores, hloads, hdecimals, hrefuses, -⟩ := transfer_round_trips brimming 0
  obtain ⟨-, -, -, -, hrefusesDecimal⟩ := transfer_round_trips further 0
  obtain ⟨t₁, ht₁, -, hrestores⟩ := hstores two hfits hadvance
  obtain ⟨t₂, ht₂, hkeeps⟩ := hloads two hfits hadvance
  obtain ⟨t₃, ht₃, hdigits⟩ := hdecimals (Register.ofNat 1) hfits hadvance
  have hpc₁ : t₁.machine.pc.val = 0x202 := pc_of_stays hentry rfl ht₁
  have hpc₂ : t₂.machine.pc.val = 0x202 := pc_of_stays hentry rfl ht₂
  have hpc₃ : t₃.machine.pc.val = 0x202 := pc_of_stays hentry rfl ht₃
  have hsame : t₁.machine.SameSpan (t₁.machine.setReg (Register.ofNat 1) 0) (two.val + 1) :=
    ⟨rfl, fun _ _ ↦ rfl⟩
  obtain ⟨v₁, hv₁, hrestored, -, -⟩ :=
    hrestores { t₁ with machine := t₁.machine.setReg (Register.ofNat 1) 0 } (Register.ofNat 1) 1
      (by decide) hsame (hagain hpc₁)
  obtain ⟨u₂, hu₂, hmemory⟩ := hkeeps 1 (hagain hpc₂)
  obtain ⟨v₃, hv₃, -, hvalue⟩ := hdigits t₃ 1 (.refl _ _) (hagain hpc₃)
  exact ⟨hfits, hadvance,
    ⟨t₁, v₁, ht₁, hsame, hagain hpc₁, hv₁, hrestored _ (Nat.le_refl _)⟩,
    ⟨t₂, u₂, ht₂, hagain hpc₂, hu₂, hmemory⟩,
    ⟨t₃, v₃, ht₃, .refl _ _, hagain hpc₃, hv₃, hvalue⟩,
    hlong, (hrefuses (Register.ofNat 3) hlong).1, hlonger, hrefusesDecimal hlonger two⟩

end Interpreter

end ChipEight
