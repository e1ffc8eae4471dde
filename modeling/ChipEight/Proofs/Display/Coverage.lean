import ChipEight.Proofs.Display.Strokes
import Mathlib.Algebra.BigOperators.Fin
import Mathlib.Algebra.Ring.Parity
import Mathlib.Data.Fintype.Prod
import Mathlib.Data.Nat.Bitwise

/-!
# What a drawing covers

Each set bit of a sprite falls on one pixel, and wrapping around the edges lets several of them fall
on the same one if the sprite is taller than the display.  The number of bits that fall on a pixel
decides what becomes of it, and whether the drawing reports a pixel as unset; neither depends on the
order in which the bits are drawn.
-/

namespace ChipEight

theorem Cell.wrapping_eq_iff (x y : Nat) (px : Fin 64) (py : Fin 32) :
    Cell.wrapping x y = Cell.wrapping px py ↔ x % 64 = px ∧ y % 32 = py := by
  simp only [wrapping, Fin.mk.injEq]
  omega

theorem Cell.exists_eq_wrapping (c : Cell) :
    ∃ (px : Fin 64) (py : Fin 32), c = Cell.wrapping px py := by
  have hlt := c.isLt
  refine ⟨⟨c.val % 64, by omega⟩, ⟨c.val / 64, by omega⟩, Fin.ext ?_⟩
  simp only [wrapping]
  omega

namespace Bitmap

/-! ## Flipping cells -/

theorem get_flip (b : Bitmap) (c d : Cell) :
    (b.flip c).pixels.get d = if d = c then !b.pixels.get c else b.pixels.get d :=
  b.getElem_flip c d

theorem pixels_foldl_flipNoting (hit : Bool) (b : Bitmap) (cells : List Cell) (c : Cell) :
    (cells.foldl flipNoting (hit, b)).2.pixels.get c =
      (b.pixels.get c ^^ decide (Odd (cells.count c))) := by
  induction cells generalizing hit b with
  | nil => simp
  | cons d rest ih =>
    rw [List.foldl_cons, flipNoting, ih, get_flip, List.count_cons]
    by_cases hcd : c = d
    · rw [if_pos hcd, hcd, beq_self_eq_true, if_pos rfl]
      by_cases hodd : Odd (rest.count d)
      · simp [Nat.odd_add_one, hodd]
      · simp [Nat.odd_add_one, hodd]
    · simp [hcd, Ne.symm hcd]

/-- Whether the cell `c` is unset on the way when the given cells are flipped one by one. -/
def Unsets (b : Bitmap) (cells : List Cell) (c : Cell) : Prop :=
  b.pixels.get c = true ∧ 1 ≤ cells.count c ∨ b.pixels.get c = false ∧ 2 ≤ cells.count c

theorem unsets_cons (b : Bitmap) (d : Cell) (rest : List Cell) (c : Cell) :
    b.Unsets (d :: rest) c ↔ c = d ∧ b.pixels.get d = true ∨ (b.flip d).Unsets rest c := by
  unfold Unsets
  rw [get_flip, List.count_cons]
  by_cases hcd : c = d
  · subst hcd
    cases b.pixels.get c <;> simp
  · simp [hcd, Ne.symm hcd]

theorem hit_foldl_flipNoting (hit : Bool) (b : Bitmap) (cells : List Cell) :
    (cells.foldl flipNoting (hit, b)).1 = true ↔ hit = true ∨ ∃ c, b.Unsets cells c := by
  induction cells generalizing hit b with
  | nil => simp [Unsets]
  | cons d rest ih =>
    rw [List.foldl_cons, flipNoting, ih]
    change (hit || b.pixels.get d) = true ∨ _ ↔ _
    simp only [unsets_cons, exists_or, exists_eq_left, Bool.or_eq_true, or_assoc]

/-! ## Bits of a sprite -/

/-- Whether the bit in column `i` of a sprite's row is set; column 0 is the highest bit. -/
def inked (bits : UInt8) (i : Nat) : Bool := bits.toNat &&& (0x80 >>> i) != 0

theorem inked_eq_testBit (bits : UInt8) {i : Nat} (hi : i < 8) :
    inked bits i = bits.toNat.testBit (7 - i) := by
  have hmask : 0x80 >>> i = 2 ^ (7 - i) := by
    have hpow : 0x80 = 2 ^ (7 - i) * 2 ^ i := by
      rw [← Nat.pow_add, Nat.sub_add_cancel (by omega)]
    rw [Nat.shiftRight_eq_div_pow, hpow, Nat.mul_div_cancel _ (Nat.two_pow_pos i)]
  rw [inked, hmask, Nat.and_two_pow]
  cases bits.toNat.testBit (7 - i) <;> simp

theorem exists_inked_iff (bits : UInt8) : (∃ i : Fin 8, inked bits i = true) ↔ bits ≠ 0 := by
  constructor
  · rintro ⟨i, hi⟩ rfl
    rw [inked_eq_testBit 0 i.isLt] at hi
    simp at hi
  · intro hbits
    obtain ⟨k, hk⟩ := Nat.exists_testBit_of_ne_zero fun hzero ↦ hbits (UInt8.toNat_inj.mp hzero)
    have hlt : k < 8 := by
      by_contra hge
      rw [Nat.testBit_lt_two_pow] at hk
      · cases hk
      · calc
          bits.toNat < 2 ^ 8 := bits.toNat_lt
          _ ≤ 2 ^ k := Nat.pow_le_pow_right (by decide) (by omega)
    refine ⟨⟨7 - k, by omega⟩, ?_⟩
    rw [inked_eq_testBit bits (by omega), Nat.sub_sub_self (by omega), hk]

/-- How many set bits of a sprite fall on the pixel in column `px` and row `py` when its top left
corner is at (`x`, `y`). -/
def coverage (sprite : List UInt8) (x y px py : Nat) : Nat :=
  Finset.card {bit : Fin sprite.length × Fin 8 |
    inked sprite[bit.1] bit.2 ∧ (x + bit.2) % 64 = px ∧ (y + bit.1) % 32 = py}

/-- The bits of a sprite that is no taller than the display fall on different pixels. -/
theorem coverage_le_one {sprite : List UInt8} (h : sprite.length ≤ 32) (x y px py : Nat) :
    coverage sprite x y px py ≤ 1 := by
  apply Finset.card_le_one.mpr
  simp only [Finset.mem_filter]
  rintro ⟨j, i⟩ ⟨-, -, hi, hj⟩ ⟨j', i'⟩ ⟨-, -, hi', hj'⟩
  dsimp only at hi hj hi' hj'
  have hrow : j = j' := Fin.ext (by omega)
  have hcolumn : i = i' := Fin.ext (by omega)
  rw [hrow, hcolumn]

theorem count_row (bits : UInt8) (x y : Nat) (c : Cell) :
    ((setColumns bits).map fun i ↦ Cell.wrapping (x + i) y).count c =
      ∑ i : Fin 8, if inked bits i ∧ Cell.wrapping (x + i) y = c then 1 else 0 := by
  have hinked : setColumns bits = (List.range 8).filter (inked bits) :=
    List.filter_congr fun i hi ↦ (inked_eq_testBit bits (List.mem_range.mp hi)).symm
  calc
    _ = (List.range 8).countP fun i ↦ inked bits i ∧ Cell.wrapping (x + i) y = c := by
      rw [hinked, List.count, List.countP_map, List.countP_filter]
      congr 1
      funext i
      rw [Bool.and_comm, Function.comp, Bool.decide_and, Bool.decide_eq_true, Bool.beq_eq_decide_eq]
    _ = Finset.card {i ∈ Finset.range 8 | inked bits i ∧ Cell.wrapping (x + i) y = c} := by
      rw [List.countP_eq_length_filter]
      rfl
    _ = _ := by rw [Finset.card_filter, Finset.sum_range]

theorem count_cells (sprite : List UInt8) (x y : Nat) (c : Cell) :
    (cells sprite x y).count c = Finset.card {bit : Fin sprite.length × Fin 8 |
      inked sprite[bit.1] bit.2 ∧ Cell.wrapping (x + bit.2) (y + bit.1) = c} := by
  rw [Finset.card_filter, Fintype.sum_prod_type]
  induction sprite generalizing y with
  | nil => rfl
  | cons bits rest ih =>
    have hnext (j : Nat) : y + 1 + j = y + (j + 1) := by omega
    rw [cells, List.count_append, count_row, ih]
    simp only [hnext]
    exact (Fin.sum_univ_succ fun j : Fin (rest.length + 1) ↦ ∑ i : Fin 8,
      if inked (bits :: rest)[j] i ∧ Cell.wrapping (x + i) (y + j) = c then 1 else 0).symm

theorem count_cells_wrapping (sprite : List UInt8) (x y : Nat) (px : Fin 64) (py : Fin 32) :
    (cells sprite x y).count (Cell.wrapping px py) = coverage sprite x y px py := by
  simp only [count_cells, coverage, Cell.wrapping_eq_iff]

/-- Whether the sprite has a set bit. -/
def Inked (sprite : List UInt8) : Prop :=
  ∃ (j : Fin sprite.length) (i : Fin 8), inked sprite[j] i = true

instance (sprite : List UInt8) : Decidable (Inked sprite) :=
  inferInstanceAs (Decidable (∃ (j : Fin sprite.length) (i : Fin 8), inked sprite[j] i = true))

theorem any_ne_zero_iff (sprite : List UInt8) : sprite.any (· ≠ 0) = true ↔ Inked sprite := by
  simp only [Inked, exists_inked_iff, List.any_eq_true, decide_eq_true_eq]
  constructor
  · rintro ⟨bits, hmem, hbits⟩
    obtain ⟨j, hj, rfl⟩ := List.getElem_of_mem hmem
    exact ⟨⟨j, hj⟩, hbits⟩
  · rintro ⟨j, hbits⟩
    exact ⟨sprite[j], List.getElem_mem j.isLt, hbits⟩

/-- Whether a set bit of the sprite falls on the pixel in column `px` and row `py` when its top left
corner is at (`x`, `y`). -/
def Covers (sprite : List UInt8) (x y px py : Nat) : Prop :=
  ∃ (j : Fin sprite.length) (i : Fin 8),
    inked sprite[j] i = true ∧ (x + i) % 64 = px ∧ (y + j) % 32 = py

instance (sprite : List UInt8) (x y px py : Nat) : Decidable (Covers sprite x y px py) :=
  inferInstanceAs (Decidable (∃ (j : Fin sprite.length) (i : Fin 8),
    inked sprite[j] i = true ∧ (x + i) % 64 = px ∧ (y + j) % 32 = py))

theorem coverage_pos_iff (sprite : List UInt8) (x y px py : Nat) :
    0 < coverage sprite x y px py ↔ Covers sprite x y px py := by
  simp only [coverage, Finset.card_pos, Finset.Nonempty, Finset.mem_filter, Finset.mem_univ,
    true_and, Prod.exists, Covers]

theorem Inked.exists_covers {sprite : List UInt8} (h : Inked sprite) (x y : Nat) :
    ∃ (px : Fin 64) (py : Fin 32), Covers sprite x y px py := by
  obtain ⟨j, i, hinked⟩ := h
  exact ⟨⟨(x + i) % 64, Nat.mod_lt _ (by decide)⟩, ⟨(y + j) % 32, Nat.mod_lt _ (by decide)⟩,
    j, i, hinked, rfl, rfl⟩

end Bitmap

namespace Frame

open Bitmap

variable (f : Frame) (sprite : List UInt8) (x y : Nat)

theorem pixel_draw (px : Fin 64) (py : Fin 32) :
    (f.draw sprite x y).2.bitmap.pixel px py =
      (f.bitmap.pixel px py ^^ decide (Odd (coverage sprite x y px py))) := by
  rw [← count_cells_wrapping]
  exact pixels_foldl_flipNoting _ _ _ _

theorem hit_draw_iff :
    (f.draw sprite x y).1 = true ↔ ∃ (px : Fin 64) (py : Fin 32),
      f.bitmap.pixel px py = true ∧ 1 ≤ coverage sprite x y px py ∨
        f.bitmap.pixel px py = false ∧ 2 ≤ coverage sprite x y px py := by
  have hhit : (f.draw sprite x y).1 = true ↔ ∃ c, f.bitmap.Unsets (cells sprite x y) c :=
    (hit_foldl_flipNoting false f.bitmap (cells sprite x y)).trans (by simp)
  rw [hhit]
  constructor
  · rintro ⟨c, hc⟩
    obtain ⟨px, py, rfl⟩ := c.exists_eq_wrapping
    rw [Unsets, count_cells_wrapping] at hc
    exact ⟨px, py, hc⟩
  · rintro ⟨px, py, hc⟩
    rw [← count_cells_wrapping] at hc
    exact ⟨Cell.wrapping px py, hc⟩

theorem draw_of_not_inked (h : ¬ Inked sprite) : (f.draw sprite x y).2 = f := by
  have hmarks : (Stroke.draw sprite x y).marks = false := by
    rw [← any_ne_zero_iff, Bool.not_eq_true] at h
    exact h
  have hstroke := f.stroke_eq (.draw sprite x y)
  rw [Stroke.apply_of_not_marks hmarks, hmarks, Bool.or_false] at hstroke
  exact hstroke

/-- A drawing flips the pixels that it covers an odd number of times.  It reports that a pixel was
unset if it covers a set pixel, or covers another one twice; the latter takes a sprite that is
taller than the display.  A sprite without a set bit changes nothing, and any other marks the frame
as stale. -/
theorem draw_eq_coverage (f : Frame) (sprite : List UInt8) (x y : Nat) :
    let covered (px : Fin 64) (py : Fin 32) : Nat := coverage sprite x y px py
    let before (px : Fin 64) (py : Fin 32) : Bool := f.bitmap.pixel px py
    let after (px : Fin 64) (py : Fin 32) : Bool := (f.draw sprite x y).2.bitmap.pixel px py
    let unset : Bool := (f.draw sprite x y).1
    (∀ px py, after px py = (before px py ^^ decide (Odd (covered px py)))) ∧
      (unset = true ↔ ∃ px py, before px py = true ∧ 1 ≤ covered px py ∨
        before px py = false ∧ 2 ≤ covered px py) ∧
      (sprite.length ≤ 32 →
        (unset = true ↔ ∃ px py, before px py = true ∧ after px py = false)) ∧
      if Inked sprite then (f.draw sprite x y).2.stale = true
      else (f.draw sprite x y).2 = f := by
  intro covered before after unset
  have hafter : ∀ px py, after px py = (before px py ^^ decide (Odd (covered px py))) :=
    f.pixel_draw sprite x y
  have hunset : unset = true ↔ ∃ px py, before px py = true ∧ 1 ≤ covered px py ∨
      before px py = false ∧ 2 ≤ covered px py := f.hit_draw_iff sprite x y
  refine ⟨hafter, hunset, fun hlength ↦ ?_, ?_⟩
  · have honce (px py) : covered px py = 0 ∨ covered px py = 1 :=
      Nat.le_one_iff_eq_zero_or_eq_one.mp (coverage_le_one hlength x y px py)
    rw [hunset]
    apply exists₂_congr
    intro px py
    rw [hafter]
    rcases honce px py with h | h
    · simp [h]
    · simp [h]
  · split
    · change (f.stale || sprite.any (· ≠ 0)) = true
      rw [(any_ne_zero_iff sprite).mpr ‹_›, Bool.or_true]
    · exact f.draw_of_not_inked sprite x y ‹_›

set_option maxRecDepth 20000 in
/-- A sprite that wraps around both edges, drawn for a second time, unsets a pixel. -/
theorem draw_eq_coverage_corner :
    let sprite : List UInt8 := [0x81, 0x18]
    let f : Frame := (Frame.draw {} sprite 63 31).2
    sprite.length ≤ 32 ∧ (f.draw sprite 63 31).1 = true ∧
      ∃ (px : Fin 64) (py : Fin 32), f.bitmap.pixel px py = true ∧
        (f.draw sprite 63 31).2.bitmap.pixel px py = false := by
  intro sprite f
  have hlength : sprite.length ≤ 32 := by decide
  have hunset : (f.draw sprite 63 31).1 = true := by rfl
  exact ⟨hlength, hunset, ((f.draw_eq_coverage sprite 63 31).2.2.1 hlength).mp hunset⟩

end Frame

end ChipEight
