import ChipEight.Instruction
import ChipEight.Journal

/-!
# Reading mnemonics

The words of a mnemonic are its head and the texts of its operands.  Each kind of operand has texts
of its own, and head and operands together leave one instruction only.  So an instruction can be
read back from its mnemonic, and a line of the trace tells where which instruction was executed.
-/

namespace ChipEight

/-! ## Hexadecimal digits -/

/-- The value of a digit from `0` to `F`. -/
def digitValue (c : Char) : Nat := if c.toNat < 58 then c.toNat - 48 else c.toNat - 55

/-- The number with these digits. -/
def hexValue (digits : List Char) : Nat :=
  digits.foldl (fun value c ↦ 16 * value + digitValue c) 0

theorem digitValue_digitChar : ∀ d < 16, digitValue d.digitChar.toUpper = d := by decide

theorem hexValue_concat (digits : List Char) (c : Char) :
    hexValue (digits ++ [c]) = 16 * hexValue digits + digitValue c := by
  rw [hexValue, List.foldl_append]
  rfl

theorem hexValue_toDigits (n : Nat) : hexValue ((Nat.toDigits 16 n).map Char.toUpper) = n := by
  induction n using Nat.strongRecOn with
  | ind n ih =>
    rw [Nat.toDigits_eq_if (by decide)]
    split
    case isTrue hsmall =>
      calc
        _ = 16 * 0 + digitValue n.digitChar.toUpper := rfl
        _ = n := by rw [digitValue_digitChar n hsmall, Nat.mul_zero, Nat.zero_add]
    case isFalse hlarge =>
      have hshorter : n / 16 < n := by omega
      rw [List.map_append, List.map_singleton, hexValue_concat, ih _ hshorter,
        digitValue_digitChar _ (Nat.mod_lt n (by decide)), Nat.div_add_mod]

theorem hexValue_leftpad (width : Nat) (digits : List Char) :
    hexValue (digits.leftpad width '0') = hexValue digits := by
  have hzeros (k : Nat) : hexValue (List.replicate k '0') = 0 := by
    induction k with
    | zero => rfl
    | succ k ih => rw [List.replicate_succ', hexValue_concat, ih]; rfl
  rw [hexValue, List.leftpad, List.foldl_append]
  exact congrArg (fun start ↦ digits.foldl _ start) (hzeros _)

theorem hexValue_hexText (width n : Nat) : hexValue (hexText width n).toList = n := by
  rw [hexText, String.toList_ofList, hexValue_leftpad, hexValue_toDigits]

theorem mem_toDigits {n : Nat} {c : Char} (h : c ∈ Nat.toDigits 16 n) :
    ∃ d < 16, c = d.digitChar := by
  induction n using Nat.strongRecOn with
  | ind n ih =>
    rw [Nat.toDigits_eq_if (by decide)] at h
    split at h
    case isTrue hsmall => exact ⟨n, hsmall, List.mem_singleton.mp h⟩
    case isFalse hlarge =>
      rcases List.mem_append.mp h with h | h
      · have hshorter : n / 16 < n := by omega
        exact ih _ hshorter h
      · exact ⟨_, Nat.mod_lt n (by decide), List.mem_singleton.mp h⟩

theorem isAlphanum_digitChar : ∀ d < 16, d.digitChar.toUpper.isAlphanum := by decide

theorem isAlphanum_of_mem_hexText {width n : Nat} {c : Char} (h : c ∈ (hexText width n).toList) :
    c.isAlphanum := by
  rw [hexText, String.toList_ofList, List.leftpad, List.mem_append] at h
  rcases h with h | h
  · rw [List.eq_of_mem_replicate h]
    rfl
  · obtain ⟨digit, hdigit, rfl⟩ := List.mem_map.mp h
    obtain ⟨d, hd, rfl⟩ := mem_toDigits hdigit
    exact isAlphanum_digitChar d hd

/-! ## Words -/

/-- The pieces of a text between blanks, without commas. -/
def words (text : List Char) : List (List Char) := (text.filter (· ≠ ',')).splitOn ' '

def IsWord (text : List Char) : Prop := ',' ∉ text ∧ ' ' ∉ text

instance (text : List Char) : Decidable (IsWord text) := inferInstanceAs (Decidable (_ ∧ _))

theorem IsWord.cons {c : Char} {text : List Char} (hc : IsWord [c]) (h : IsWord text) :
    IsWord (c :: text) := by
  simp only [IsWord, List.mem_singleton] at hc
  simp only [IsWord, List.mem_cons, not_or]
  exact ⟨⟨hc.1, h.1⟩, hc.2, h.2⟩

theorem isWord_of_isAlphanum {text : List Char} (h : ∀ c ∈ text, c.isAlphanum) : IsWord text :=
  ⟨fun hcomma ↦ absurd (h _ hcomma) (by decide), fun hblank ↦ absurd (h _ hblank) (by decide)⟩

theorem IsWord.filter_eq {text : List Char} (h : IsWord text) : text.filter (· ≠ ',') = text := by
  rw [List.filter_eq_self]
  intro c hc
  exact decide_eq_true fun hcomma ↦ h.1 (hcomma ▸ hc)

theorem filter_intercalate {list : List (List Char)} (h : ∀ text ∈ list, IsWord text) :
    ([',', ' '].intercalate list).filter (· ≠ ',') = [' '].intercalate list := by
  induction list with
  | nil => rfl
  | cons text rest ih =>
    have htext := (h text List.mem_cons_self).filter_eq
    cases rest with
    | nil => rw [List.intercalate_singleton, List.intercalate_singleton, htext]
    | cons next rest =>
      rw [List.intercalate_cons_cons, List.intercalate_cons_cons, List.filter_append,
        List.filter_append, htext, ih]
      · rfl
      · intro other hother
        exact h other (List.mem_cons_of_mem _ hother)

/-! ## Operands -/

theorem Address.toList_text (a : Address) :
    a.text.toList = '0' :: 'x' :: (hexText 3 a.val).toList := by
  rw [text, textOf, String.toList_append]
  rfl

theorem Address.isAlphanum_of_mem_text {a : Address} {c : Char} (h : c ∈ a.text.toList) :
    c.isAlphanum := by
  rw [toList_text] at h
  rcases List.mem_cons.mp h with rfl | h
  · rfl
  rcases List.mem_cons.mp h with rfl | h
  · rfl
  · exact isAlphanum_of_mem_hexText h

namespace Instruction

/-- The operand that is written so, if there is one. -/
def Operand.read? (text : List Char) : Option Operand :=
  if text.all Char.isDigit then some (.count (UInt8.ofNat (Nat.ofDigitChars 10 text 0)))
  else
    match text with
    | 'V' :: digits => some (.register (Register.ofNat (hexValue digits)))
    | '0' :: 'x' :: digits => some (.address (Address.wrapping (hexValue digits)))
    | '#' :: digits => some (.byte (UInt8.ofNat (hexValue digits)))
    | ['I'] => some .index
    | ['[', 'I', ']'] => some .atIndex
    | ['D', 'T'] => some .delay
    | ['S', 'T'] => some .sound
    | ['K'] => some .key
    | ['F'] => some .glyph
    | ['B'] => some .decimal
    | _ => none

namespace Operand

theorem toList_text_register (r : Register) :
    (register r).text.toList = 'V' :: (hexText 1 r.val).toList := by
  rw [text, Register.text, String.toList_append]
  rfl

theorem toList_text_byte (b : UInt8) :
    (byte b).text.toList = '#' :: (hexText 2 b.toNat).toList := by
  rw [text, String.toList_append]
  rfl

theorem toList_text_count (n : UInt8) : (count n).text.toList = Nat.toDigits 10 n.toNat :=
  Nat.toList_repr

theorem isDigit_of_mem_text_count {n : UInt8} {c : Char} (h : c ∈ (count n).text.toList) :
    c.isDigit := by
  rw [toList_text_count] at h
  exact Nat.isDigit_of_mem_toDigits (by decide) (by decide) h

theorem read?_register (digits : List Char) :
    read? ('V' :: digits) = some (.register (Register.ofNat (hexValue digits))) := rfl

theorem read?_address (digits : List Char) :
    read? ('0' :: 'x' :: digits) = some (.address (Address.wrapping (hexValue digits))) := rfl

theorem read?_byte (digits : List Char) :
    read? ('#' :: digits) = some (.byte (UInt8.ofNat (hexValue digits))) := rfl

theorem read?_text (o : Operand) : read? o.text.toList = some o := by
  cases o with
  | register r =>
    have hr : Register.ofNat r.val = r := Fin.ext (Nat.mod_eq_of_lt r.isLt)
    rw [toList_text_register, read?_register, hexValue_hexText, hr]
  | address a =>
    have ha : Address.wrapping a.val = a := Fin.ext (Nat.mod_eq_of_lt a.isLt)
    rw [text, Address.toList_text, read?_address, hexValue_hexText, ha]
  | byte b => rw [toList_text_byte, read?_byte, hexValue_hexText, UInt8.ofNat_toNat]
  | count n =>
    have hdigits : (count n).text.toList.all Char.isDigit :=
      List.all_eq_true.mpr fun _ ↦ isDigit_of_mem_text_count
    unfold read?
    rw [if_pos hdigits, toList_text_count, Nat.ofDigitChars_ten_toDigits, UInt8.ofNat_toNat]
  | index | atIndex | delay | sound | key | glyph | decimal => rfl

theorem text_injective {o p : Operand} (h : o.text = p.text) : o = p := by
  apply Option.some.inj
  rw [← read?_text o, ← read?_text p, h]

theorem isWord_hexText (width n : Nat) : IsWord (hexText width n).toList :=
  isWord_of_isAlphanum fun _ ↦ isAlphanum_of_mem_hexText

theorem isWord_text (o : Operand) : IsWord o.text.toList := by
  cases o with
  | register r =>
    rw [toList_text_register]
    exact .cons (by decide) (isWord_hexText 1 r.val)
  | address a => exact isWord_of_isAlphanum fun _ ↦ Address.isAlphanum_of_mem_text
  | byte b =>
    rw [toList_text_byte]
    exact .cons (by decide) (isWord_hexText 2 b.toNat)
  | count n =>
    apply isWord_of_isAlphanum
    intro c hc
    rw [Char.isAlphanum, isDigit_of_mem_text_count hc, Bool.or_true]
  | index | atIndex | delay | sound | key | glyph | decimal => decide

end Operand

/-! ## Instructions -/

theorem isWord_head (i : Instruction) : IsWord i.head.toList := by
  unfold head
  split <;> decide

/-- Without its commas a mnemonic is its words with blanks between them. -/
theorem filter_mnemonic (i : Instruction) :
    i.mnemonic.toList.filter (· ≠ ',') =
      [' '].intercalate (i.head.toList :: i.operands.map fun o ↦ o.text.toList) := by
  have hhead := i.isWord_head.filter_eq
  unfold mnemonic
  split
  case h_1 hnone => rw [hnone, List.map_nil, List.intercalate_singleton, hhead]
  case h_2 o rest hsome =>
    have htexts : ∀ text ∈ (o :: rest).map (fun o ↦ o.text.toList), IsWord text := by
      intro text htext
      obtain ⟨o, -, rfl⟩ := List.mem_map.mp htext
      exact o.isWord_text
    rw [hsome, String.toList_append, String.toList_append, String.toList_intercalate, List.map_map,
      List.filter_append, List.filter_append, hhead]
    calc
      _ = i.head.toList ++ [' '] ++
            ([',', ' '].intercalate ((o :: rest).map fun o ↦ o.text.toList)).filter (· ≠ ',') :=
        rfl
      _ = _ := by rw [filter_intercalate htexts, List.map_cons, List.intercalate_cons_cons]

theorem words_mnemonic (i : Instruction) :
    words i.mnemonic.toList = i.head.toList :: i.operands.map fun o ↦ o.text.toList := by
  rw [words, filter_mnemonic, List.splitOn_intercalate]
  · intro text htext
    rcases List.mem_cons.mp htext with rfl | htext
    · exact i.isWord_head.2
    · obtain ⟨o, -, rfl⟩ := List.mem_map.mp htext
      exact o.isWord_text.2
  · exact List.cons_ne_nil _ _

/-- The instruction with this head and these operands, if there is one. -/
def assemble? : String → List Operand → Option Instruction
  | "SYS", [.address a] => some (.sys a)
  | "CLS", [] => some .cls
  | "RET", [] => some .ret
  | "JP", [.address a] => some (.jump a)
  | "JP", [.register _, .address a] => some (.jumpOffset a)
  | "CALL", [.address a] => some (.call a)
  | "SE", [.register x, .byte b] => some (.skipEqImm x b)
  | "SE", [.register x, .register y] => some (.skipEq x y)
  | "SNE", [.register x, .byte b] => some (.skipNeImm x b)
  | "SNE", [.register x, .register y] => some (.skipNe x y)
  | "LD", [.register x, .byte b] => some (.setImm x b)
  | "LD", [.register x, .register y] => some (.copy x y)
  | "LD", [.index, .address a] => some (.setIndex a)
  | "LD", [.register x, .delay] => some (.readDelay x)
  | "LD", [.register x, .key] => some (.awaitKey x)
  | "LD", [.delay, .register x] => some (.setDelay x)
  | "LD", [.sound, .register x] => some (.setSound x)
  | "LD", [.glyph, .register x] => some (.glyph x)
  | "LD", [.decimal, .register x] => some (.decimal x)
  | "LD", [.atIndex, .register x] => some (.store x)
  | "LD", [.register x, .atIndex] => some (.load x)
  | "ADD", [.register x, .byte b] => some (.addImm x b)
  | "ADD", [.register x, .register y] => some (.add x y)
  | "ADD", [.index, .register x] => some (.addIndex x)
  | "OR", [.register x, .register y] => some (.or x y)
  | "AND", [.register x, .register y] => some (.and x y)
  | "XOR", [.register x, .register y] => some (.xor x y)
  | "SUB", [.register x, .register y] => some (.sub x y)
  | "SUBN", [.register x, .register y] => some (.subFrom x y)
  | "SHR", [.register x] => some (.shiftRight x)
  | "SHL", [.register x] => some (.shiftLeft x)
  | "RND", [.register x, .byte b] => some (.random x b)
  | "DRW", [.register x, .register y, .count n] => some (.draw x y n)
  | "SKP", [.register x] => some (.skipHeld x)
  | "SKNP", [.register x] => some (.skipFree x)
  | _, _ => none

theorem assemble?_operands (i : Instruction) : assemble? i.head i.operands = some i := by
  cases i <;> rfl

/-- The instruction with this mnemonic, if there is one. -/
def read? (text : String) : Option Instruction :=
  match words text.toList with
  | [] => none
  | head :: texts => do
    let operands ← texts.mapM Operand.read?
    assemble? (String.ofList head) operands

theorem read?_mnemonic (i : Instruction) : read? i.mnemonic = some i := by
  have hoperands (list : List Operand) :
      (list.map fun o ↦ o.text.toList).mapM Operand.read? = some list := by
    induction list with
    | nil => rfl
    | cons o rest ih => simp [o.read?_text, ih]
  rw [read?, words_mnemonic]
  dsimp only
  rw [hoperands, String.ofList_toList]
  exact assemble?_operands i

theorem mnemonic_injective {i j : Instruction} (h : i.mnemonic = j.mnemonic) : i = j := by
  apply Option.some.inj
  rw [← read?_mnemonic i, ← read?_mnemonic j, h]

/-! ## Lines of the trace -/

theorem message_stepping (pc : Address) (i : Instruction) :
    (Event.stepping pc i).message = pc.text ++ ": " ++ i.mnemonic := rfl

theorem toList_message_stepping (pc : Address) (i : Instruction) :
    (Event.stepping pc i).message.toList = pc.text.toList ++ ':' :: ' ' :: i.mnemonic.toList := by
  rw [message_stepping, String.toList_append, String.toList_append, List.append_assoc]
  rfl

/-- The place stands before the first colon. -/
theorem takeWhile_message_stepping (pc : Address) (i : Instruction) :
    (Event.stepping pc i).message.toList.takeWhile (· ≠ ':') = pc.text.toList := by
  have hnone : ∀ c ∈ pc.text.toList, decide (c ≠ ':') := by
    intro c hc
    apply decide_eq_true
    rintro rfl
    exact absurd (Address.isAlphanum_of_mem_text hc) (by decide)
  rw [toList_message_stepping, List.takeWhile_append_of_pos hnone,
    List.takeWhile_cons_of_neg (by decide), List.append_nil]

theorem message_stepping_injective {a b : Address} {i j : Instruction}
    (h : (Event.stepping a i).message = (Event.stepping b j).message) : a = b ∧ i = j := by
  have htext : a.text = b.text := by
    apply String.toList_inj.mp
    calc
      a.text.toList = (Event.stepping a i).message.toList.takeWhile (· ≠ ':') :=
        (takeWhile_message_stepping a i).symm
      _ = (Event.stepping b j).message.toList.takeWhile (· ≠ ':') := by rw [h]
      _ = b.text.toList := takeWhile_message_stepping b j
  have hplace : Operand.address a = .address b := Operand.text_injective htext
  rw [message_stepping, message_stepping, htext, String.append_right_inj] at h
  exact ⟨Operand.address.inj hplace, mnemonic_injective h⟩

/-- No two instructions have one mnemonic.  So the trace shows the same text for two opcodes just
if they have the same instruction, and a line of it tells both the place and the instruction. -/
theorem mnemonic_unambiguous (i j : Instruction) (p q : Opcode) (a b : Address) :
    (i.mnemonic = j.mnemonic ↔ i = j) ∧
    ((decode p).map mnemonic = (decode q).map mnemonic ↔ decode p = decode q) ∧
    ((Event.stepping a i).message = (Event.stepping b j).message ↔ a = b ∧ i = j) := by
  have hinjective : Function.Injective mnemonic := fun _ _ ↦ mnemonic_injective
  refine ⟨hinjective.eq_iff, (Option.map_injective hinjective).eq_iff, ?_, ?_⟩
  · exact message_stepping_injective
  · rintro ⟨rfl, rfl⟩
    rfl

end Instruction

end ChipEight
