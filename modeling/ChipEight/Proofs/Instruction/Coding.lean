import ChipEight.Instruction

/-!
# The instruction table

An opcode that the table has an instruction for is the word of that instruction, up to the bits at
which the table does not look; and the word of an instruction has that instruction.  So the table
confuses no two words, and it leaves out no instruction but those that no word can spell.
-/

namespace ChipEight

namespace Opcode

theorem toNat_lt (op : Opcode) : op.toNat < 0x10000 := op.word.toNat_lt

theorem family_lt (op : Opcode) : op.family < 16 := Nat.div_lt_of_lt_mul op.toNat_lt

theorem toNat_ofNat_of_lt {n : Nat} (h : n < 0x10000) : (ofNat n).toNat = n :=
  UInt16.toNat_ofNat_of_lt h

theorem ofNat_toNat (op : Opcode) : ofNat op.toNat = op :=
  congrArg Opcode.mk UInt16.ofNat_toNat

theorem toNat_kk (op : Opcode) : op.kk.toNat = op.toNat % 0x100 := UInt8.toNat_ofNat'

theorem n_lt (op : Opcode) : op.n < 16 := Nat.mod_lt _ (by decide)

/-- The table has no instruction for the opcode. -/
def Unassigned (op : Opcode) : Prop :=
  (op.family = 0x8 ∧ op.n ∈ [0x8, 0x9, 0xA, 0xB, 0xC, 0xD, 0xF]) ∨
  (op.family = 0xE ∧ op.kk.toNat ∉ [0x9E, 0xA1]) ∨
  (op.family = 0xF ∧ op.kk.toNat ∉ [0x07, 0x0A, 0x15, 0x18, 0x1E, 0x29, 0x33, 0x55, 0x65])

/-- The opcode without the bits at which the table does not look: the lowest nibble in the families
`5` and `9`, and the second register of the shifts. -/
def significant (op : Opcode) : Opcode :=
  match op.family with
  | 0x5 | 0x9 => ofNat (op.toNat - op.n)
  | 0x8 => if op.n = 0x6 ∨ op.n = 0xE then ofNat (op.toNat - op.y.val * 0x10) else op
  | _ => op

end Opcode

namespace Instruction

open Opcode

/-- Some opcode stands for the instruction. -/
def HasOpcode : Instruction → Prop
  | .sys a => a.val ≠ 0x0E0 ∧ a.val ≠ 0x0EE
  | .draw _ _ rows => rows.toNat ≤ 15
  | _ => True

/-! ## The fields of words -/

section Fields

variable {family : Nat} (h : family < 16)

include h

theorem toNat_wordOfAddress (a : Address) :
    (wordOfAddress family a).toNat = family * 0x1000 + a.val := by
  have ha : a.val < 0x1000 := a.isLt
  exact toNat_ofNat_of_lt (by omega)

theorem toNat_wordOfByte (x : Register) (b : UInt8) :
    (wordOfByte family x b).toNat = family * 0x1000 + x.val * 0x100 + b.toNat := by
  have hx := x.isLt
  have hb := b.toNat_lt
  exact toNat_ofNat_of_lt (by omega)

theorem toNat_wordOfNibbles (x y : Register) {n : Nat} (hn : n < 16) :
    (wordOfNibbles family x y n).toNat = family * 0x1000 + x.val * 0x100 + y.val * 0x10 + n := by
  have hx := x.isLt
  have hy := y.isLt
  exact toNat_ofNat_of_lt (by omega)

theorem family_wordOfAddress (a : Address) : (wordOfAddress family a).family = family := by
  have ha : a.val < 0x1000 := a.isLt
  rw [Opcode.family, toNat_wordOfAddress h]
  omega

theorem nnn_wordOfAddress (a : Address) : (wordOfAddress family a).nnn = a := by
  have ha : a.val < 0x1000 := a.isLt
  apply Fin.ext
  rw [nnn, Address.val_wrapping, toNat_wordOfAddress h]
  change (family * 0x1000 + a.val) % 0x1000 = a.val
  omega

theorem family_wordOfByte (x : Register) (b : UInt8) :
    (wordOfByte family x b).family = family := by
  have hx := x.isLt
  have hb := b.toNat_lt
  rw [Opcode.family, toNat_wordOfByte h]
  omega

theorem x_wordOfByte (x : Register) (b : UInt8) : (wordOfByte family x b).x = x := by
  have hx := x.isLt
  have hb := b.toNat_lt
  apply Fin.ext
  rw [Opcode.x, Register.val_ofNat, toNat_wordOfByte h]
  omega

theorem kk_wordOfByte (x : Register) (b : UInt8) : (wordOfByte family x b).kk = b := by
  have hb := b.toNat_lt
  apply UInt8.toNat_inj.mp
  rw [toNat_kk, toNat_wordOfByte h]
  omega

variable {n : Nat} (hn : n < 16)

include hn

theorem family_wordOfNibbles (x y : Register) : (wordOfNibbles family x y n).family = family := by
  have hx := x.isLt
  have hy := y.isLt
  rw [Opcode.family, toNat_wordOfNibbles h x y hn]
  omega

theorem x_wordOfNibbles (x y : Register) : (wordOfNibbles family x y n).x = x := by
  have hx := x.isLt
  have hy := y.isLt
  apply Fin.ext
  rw [Opcode.x, Register.val_ofNat, toNat_wordOfNibbles h x y hn]
  omega

theorem y_wordOfNibbles (x y : Register) : (wordOfNibbles family x y n).y = y := by
  have hy := y.isLt
  apply Fin.ext
  rw [Opcode.y, Register.val_ofNat, toNat_wordOfNibbles h x y hn]
  omega

theorem n_wordOfNibbles (x y : Register) : (wordOfNibbles family x y n).n = n := by
  rw [Opcode.n, toNat_wordOfNibbles h x y hn]
  omega

end Fields

/-! ## An opcode from its fields -/

section Parts

variable {op : Opcode} {family : Nat} (h : op.family = family)

include h

theorem wordOfAddress_eq : wordOfAddress family op.nnn = op := by
  subst h
  calc
    _ = ofNat (op.toNat / 0x1000 * 0x1000 + op.toNat % 0x1000) := rfl
    _ = ofNat op.toNat := by rw [Nat.div_add_mod']
    _ = op := ofNat_toNat op

theorem wordOfByte_eq {b : UInt8} (hkk : op.kk.toNat = b.toNat) :
    wordOfByte family op.x b = op := by
  subst h
  have hlt := op.toNat_lt
  have hb : b.toNat = op.toNat % 0x100 := by rw [← hkk, toNat_kk]
  calc
    _ = ofNat (op.toNat / 0x1000 * 0x1000 + op.toNat / 0x100 % 16 * 0x100 + b.toNat) := rfl
    _ = ofNat op.toNat := by
      congr 1
      omega
    _ = op := ofNat_toNat op

theorem wordOfNibbles_eq {n : Nat} (hn : op.n = n) : wordOfNibbles family op.x op.y n = op := by
  subst h hn
  have hlt := op.toNat_lt
  calc
    _ = ofNat (op.toNat / 0x1000 * 0x1000 + op.toNat / 0x100 % 16 * 0x100 +
          op.toNat / 0x10 % 16 * 0x10 + op.toNat % 0x10) := rfl
    _ = ofNat op.toNat := by
      congr 1
      omega
    _ = op := ofNat_toNat op

/-- Without its lowest nibble. -/
theorem wordOfNibbles_zero_eq :
    wordOfNibbles family op.x op.y 0x0 = ofNat (op.toNat - op.n) := by
  subst h
  have hlt := op.toNat_lt
  calc
    _ = ofNat (op.toNat / 0x1000 * 0x1000 + op.toNat / 0x100 % 16 * 0x100 +
          op.toNat / 0x10 % 16 * 0x10 + 0) := rfl
    _ = ofNat (op.toNat - op.toNat % 0x10) := by
      congr 1
      omega

/-- Without its second register. -/
theorem wordOfNibbles_register_zero_eq {n : Nat} (hn : op.n = n) :
    wordOfNibbles family op.x .zero n = ofNat (op.toNat - op.y.val * 0x10) := by
  subst h hn
  have hlt := op.toNat_lt
  calc
    _ = ofNat (op.toNat / 0x1000 * 0x1000 + op.toNat / 0x100 % 16 * 0x100 + 0 * 0x10 +
          op.toNat % 0x10) := rfl
    _ = ofNat (op.toNat - op.toNat / 0x10 % 16 * 0x10) := by
      congr 1
      omega

end Parts

/-! ## From instructions to opcodes and back -/

theorem decode_of_encode? {i : Instruction} {op : Opcode} (h : i.encode? = some op) :
    decode op = some i := by
  cases i with
  | sys a =>
    rw [encode?] at h
    split at h
    · contradiction
    · rename_i ha
      rw [not_or] at ha
      cases h
      rw [decode, family_wordOfAddress (by decide), nnn_wordOfAddress (by decide),
        toNat_wordOfAddress (by decide), Nat.zero_mul, Nat.zero_add, if_neg ha.1, if_neg ha.2]
      rfl
  | cls | ret =>
    cases h
    rfl
  | jump a | call a | setIndex a | jumpOffset a =>
    cases h
    rw [decode, family_wordOfAddress (by decide), nnn_wordOfAddress (by decide)]
    rfl
  | skipEqImm x | skipNeImm x | setImm x | addImm x | random x | skipHeld x | skipFree x
  | readDelay x | awaitKey x | setDelay x | setSound x | addIndex x | glyph x | decimal x | store x
  | load x =>
    cases h
    rw [decode, family_wordOfByte (by decide), x_wordOfByte (by decide), kk_wordOfByte (by decide)]
    rfl
  | draw x y rows =>
    rw [encode?] at h
    split at h
    · rename_i hrows
      cases h
      rw [decode, family_wordOfNibbles (by decide) hrows, x_wordOfNibbles (by decide) hrows,
        y_wordOfNibbles (by decide) hrows, n_wordOfNibbles (by decide) hrows, UInt8.ofNat_toNat]
      rfl
    · contradiction
  | skipEq x | copy x | or x | and x | xor x | add x | sub x | shiftRight x | subFrom x
  | shiftLeft x | skipNe x =>
    cases h
    rw [decode, family_wordOfNibbles (by decide) (by decide),
      x_wordOfNibbles (by decide) (by decide), y_wordOfNibbles (by decide) (by decide),
      n_wordOfNibbles (by decide) (by decide)]
    rfl

section Decode

variable {op : Opcode} {i : Instruction}

/-- Only the families `5`, `8` and `9` have bits that are ignored. -/
theorem significant_eq_self (h : op.family ∉ [0x5, 0x8, 0x9]) : op.significant = op := by
  unfold significant
  split <;> simp_all

theorem encode?_of_decodeArithmetic (hfamily : op.family = 0x8)
    (h : decodeArithmetic op.x op.y op.n = some i) : i.encode? = some op.significant := by
  unfold decodeArithmetic at h
  split at h
  case h_7 hn | h_9 hn =>
    have hsignificant : op.significant = ofNat (op.toNat - op.y.val * 0x10) := by
      simp [significant, hfamily, hn]
    cases h
    rw [encode?, wordOfNibbles_register_zero_eq hfamily hn, hsignificant]
  case h_10 => contradiction
  all_goals
    rename_i hn
    have hsignificant : op.significant = op := by simp [significant, hfamily, hn]
    cases h
    rw [encode?, wordOfNibbles_eq hfamily hn, hsignificant]

theorem encode?_of_decodeKeyTest (hfamily : op.family = 0xE)
    (h : decodeKeyTest op.x op.kk.toNat = some i) : i.encode? = some op := by
  unfold decodeKeyTest at h
  split at h
  case h_3 => contradiction
  all_goals
    rename_i hkk
    cases h
    exact congrArg some (wordOfByte_eq hfamily hkk)

theorem encode?_of_decodeTransfer (hfamily : op.family = 0xF)
    (h : decodeTransfer op.x op.kk.toNat = some i) : i.encode? = some op := by
  unfold decodeTransfer at h
  split at h
  case h_10 => contradiction
  all_goals
    rename_i hkk
    cases h
    exact congrArg some (wordOfByte_eq hfamily hkk)

/-- In family `0` the whole word decides. -/
theorem decode_of_family_zero (h : op.family = 0x0) :
    decode op =
      if op.toNat = 0x0E0 then some cls else if op.toNat = 0x0EE then some ret
      else some (sys op.nnn) := by
  rw [decode, h]
  rfl

theorem encode?_of_decode_of_family_zero (hfamily : op.family = 0x0) (h : decode op = some i) :
    i.encode? = some op := by
  rw [decode_of_family_zero hfamily] at h
  by_cases hcls : op.toNat = 0x0E0
  · rw [if_pos hcls] at h
    cases h
    rw [← ofNat_toNat op, hcls]
    rfl
  by_cases hret : op.toNat = 0x0EE
  · rw [if_neg hcls, if_pos hret] at h
    cases h
    rw [← ofNat_toNat op, hret]
    rfl
  · rw [if_neg hcls, if_neg hret] at h
    cases h
    have hword := congrArg toNat (wordOfAddress_eq hfamily)
    rw [toNat_wordOfAddress (by decide), Nat.zero_mul, Nat.zero_add] at hword
    rw [encode?, wordOfAddress_eq hfamily, hword, if_neg (not_or.mpr ⟨hcls, hret⟩)]

theorem encode?_of_decode (h : decode op = some i) : i.encode? = some op.significant := by
  match hfamily : op.family, op.family_lt with
  | 0x0, _ =>
    rw [significant_eq_self (by simp [hfamily])]
    exact encode?_of_decode_of_family_zero hfamily h
  | 0x1, _ | 0x2, _ | 0xA, _ | 0xB, _ =>
    rw [decode, hfamily] at h
    cases h
    rw [significant_eq_self (by simp [hfamily]), encode?, wordOfAddress_eq hfamily]
  | 0x3, _ | 0x4, _ | 0x6, _ | 0x7, _ | 0xC, _ =>
    rw [decode, hfamily] at h
    cases h
    rw [significant_eq_self (by simp [hfamily]), encode?, wordOfByte_eq hfamily rfl]
  | 0x5, _ | 0x9, _ =>
    have hsignificant : op.significant = ofNat (op.toNat - op.n) := by simp [significant, hfamily]
    rw [decode, hfamily] at h
    cases h
    rw [encode?, wordOfNibbles_zero_eq hfamily, hsignificant]
  | 0x8, _ =>
    rw [decode, hfamily] at h
    exact encode?_of_decodeArithmetic hfamily h
  | 0xD, _ =>
    have hn := op.n_lt
    have hrows : (UInt8.ofNat op.n).toNat = op.n :=
      UInt8.toNat_ofNat_of_lt (Nat.lt_trans hn (by decide))
    rw [decode, hfamily] at h
    cases h
    rw [significant_eq_self (by simp [hfamily]), encode?, hrows, if_pos hn,
      wordOfNibbles_eq hfamily rfl]
  | 0xE, _ =>
    rw [decode, hfamily] at h
    rw [significant_eq_self (by simp [hfamily])]
    exact encode?_of_decodeKeyTest hfamily h
  | 0xF, _ =>
    rw [decode, hfamily] at h
    rw [significant_eq_self (by simp [hfamily])]
    exact encode?_of_decodeTransfer hfamily h
  | _ + 16, hlt => omega

end Decode

/-! ## What the table leaves out -/

theorem decodeArithmetic_eq_none_iff (x y : Register) {n : Nat} (hn : n < 16) :
    decodeArithmetic x y n = none ↔ n ∈ [0x8, 0x9, 0xA, 0xB, 0xC, 0xD, 0xF] := by
  simp only [List.mem_cons, List.not_mem_nil, or_false]
  unfold decodeArithmetic
  split <;> grind

theorem decodeKeyTest_eq_none_iff (x : Register) (n : Nat) :
    decodeKeyTest x n = none ↔ n ∉ [0x9E, 0xA1] := by
  simp only [List.mem_cons, List.not_mem_nil, or_false]
  unfold decodeKeyTest
  split <;> grind

theorem decodeTransfer_eq_none_iff (x : Register) (n : Nat) :
    decodeTransfer x n = none ↔ n ∉ [0x07, 0x0A, 0x15, 0x18, 0x1E, 0x29, 0x33, 0x55, 0x65] := by
  simp only [List.mem_cons, List.not_mem_nil, or_false]
  unfold decodeTransfer
  split <;> grind

theorem decode_eq_none_iff (op : Opcode) : decode op = none ↔ op.Unassigned := by
  unfold Unassigned
  match hfamily : op.family, op.family_lt with
  | 0x0, _ =>
    rw [decode_of_family_zero hfamily]
    grind
  | 0x1, _ | 0x2, _ | 0x3, _ | 0x4, _ | 0x5, _ | 0x6, _ | 0x7, _ | 0x9, _ | 0xA, _ | 0xB, _
  | 0xC, _ | 0xD, _ => simp [decode, hfamily]
  | 0x8, _ =>
    have hdecode : decode op = decodeArithmetic op.x op.y op.n := by rw [decode, hfamily]; rfl
    rw [hdecode, decodeArithmetic_eq_none_iff _ _ op.n_lt]
    simp
  | 0xE, _ =>
    have hdecode : decode op = decodeKeyTest op.x op.kk.toNat := by rw [decode, hfamily]; rfl
    rw [hdecode, decodeKeyTest_eq_none_iff]
    simp
  | 0xF, _ =>
    have hdecode : decode op = decodeTransfer op.x op.kk.toNat := by rw [decode, hfamily]; rfl
    rw [hdecode, decodeTransfer_eq_none_iff]
    simp
  | _ + 16, hlt => omega

theorem exists_encode?_iff (i : Instruction) : (∃ op, i.encode? = some op) ↔ i.HasOpcode := by
  cases i with
  | sys a =>
    simp only [encode?, HasOpcode]
    split <;> simp <;> omega
  | draw x y rows =>
    simp only [encode?, HasOpcode]
    split <;> simp <;> omega
  | _ => simp [encode?, HasOpcode]

/-! ## The table as a whole -/

theorem exists_decode_iff (i : Instruction) : (∃ op, decode op = some i) ↔ i.HasOpcode := by
  rw [← exists_encode?_iff]
  constructor
  · rintro ⟨op, h⟩
    exact ⟨op.significant, encode?_of_decode h⟩
  · rintro ⟨op, h⟩
    exact ⟨op, decode_of_encode? h⟩

/-- Opcodes without an instruction have no bits that are ignored. -/
theorem significant_of_unassigned {op : Opcode} (h : op.Unassigned) : op.significant = op := by
  rcases h with ⟨hfamily, hn⟩ | ⟨hfamily, -⟩ | ⟨hfamily, -⟩
  · have hshift : ¬(op.n = 0x6 ∨ op.n = 0xE) := by
      simp only [List.mem_cons, List.not_mem_nil, or_false] at hn
      omega
    simp [significant, hfamily, hshift]
  · exact significant_eq_self (by simp [hfamily])
  · exact significant_eq_self (by simp [hfamily])

/-- The ignored bits are ignored. -/
theorem decode_significant (op : Opcode) : decode op.significant = decode op := by
  cases h : decode op with
  | none =>
    rw [significant_of_unassigned ((decode_eq_none_iff op).mp h), h]
  | some i => exact decode_of_encode? (encode?_of_decode h)

theorem decode_eq_some_iff (op : Opcode) (i : Instruction) :
    decode op = some i ↔ i.encode? = some op.significant := by
  constructor
  · exact encode?_of_decode
  · intro h
    rw [← decode_significant]
    exact decode_of_encode? h

theorem decode_eq_decode_iff {p q : Opcode} (hp : (decode p).isSome) (hq : (decode q).isSome) :
    decode p = decode q ↔ p.significant = q.significant := by
  obtain ⟨i, hp⟩ := Option.isSome_iff_exists.mp hp
  obtain ⟨j, hq⟩ := Option.isSome_iff_exists.mp hq
  constructor
  · intro h
    have hsame : i = j := Option.some.inj (hp.symm.trans (h.trans hq))
    apply Option.some.inj
    rw [← encode?_of_decode hp, ← encode?_of_decode hq, hsame]
  · intro h
    rw [← decode_significant p, ← decode_significant q, h]

/-- The table has an instruction for every opcode but the unassigned ones.  Two opcodes have the
same instruction just if they differ in ignored bits only.  The instructions of the table are all
that an opcode can spell, and each is decoded from its own word. -/
theorem decode_exact (p q : Opcode) (i : Instruction) :
    (decode p = none ↔ p.Unassigned) ∧
    ((decode p).isSome → (decode q).isSome →
      (decode p = decode q ↔ p.significant = q.significant)) ∧
    ((∃ op, decode op = some i) ↔ i.HasOpcode) ∧
    (decode p = some i ↔ i.encode? = some p.significant) :=
  ⟨decode_eq_none_iff p, decode_eq_decode_iff, exists_decode_iff i, decode_eq_some_iff p i⟩

/-- The second register of a shift is ignored. -/
theorem decode_exact_shift :
    (decode ⟨0x8AB6⟩).isSome ∧ (decode ⟨0x8AC6⟩).isSome ∧
      (decode ⟨0x8AB6⟩ = decode ⟨0x8AC6⟩ ↔
        significant ⟨0x8AB6⟩ = significant ⟨0x8AC6⟩) ∧
      significant ⟨0x8AB6⟩ = significant ⟨0x8AC6⟩ := by
  have hb : (decode ⟨0x8AB6⟩).isSome := rfl
  have hc : (decode ⟨0x8AC6⟩).isSome := rfl
  exact ⟨hb, hc, (decode_exact _ _ .cls).2.1 hb hc, rfl⟩

end Instruction

end ChipEight
