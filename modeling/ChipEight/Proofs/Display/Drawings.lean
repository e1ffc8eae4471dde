import ChipEight.Proofs.Display.Coverage

/-!
# Drawings in a row

Drawings form a commutative group of involutions on the picture: what several of them leave depends
on how often each was made, and on that up to parity, not on their order.  A place counts only as
far as it differs after wrapping around the edges; in this even the reports of unset pixels agree.
-/

namespace ChipEight

/-- A sprite and the place of its top left corner. -/
structure Drawing where
  sprite : List UInt8
  x : Nat
  y : Nat

namespace Drawing

def cells (d : Drawing) : List Cell := Bitmap.cells d.sprite d.x d.y

/-- The drawings are of one sprite at one place of the display. -/
structure Matches (d e : Drawing) : Prop where
  sprite : d.sprite = e.sprite
  x : d.x % 64 = e.x % 64
  y : d.y % 32 = e.y % 32

end Drawing

theorem Cell.wrapping_congr {x y x' y' : Nat} (hx : x % 64 = x' % 64) (hy : y % 32 = y' % 32) :
    Cell.wrapping x y = Cell.wrapping x' y' := by
  simp only [wrapping, hx, hy]

namespace Bitmap

theorem cells_congr (sprite : List UInt8) {x y x' y' : Nat} (hx : x % 64 = x' % 64)
    (hy : y % 32 = y' % 32) : cells sprite x y = cells sprite x' y' := by
  induction sprite generalizing y y' with
  | nil => rfl
  | cons bits rest ih =>
    have hrow (i : Nat) : Cell.wrapping (x + i) y = Cell.wrapping (x' + i) y' :=
      Cell.wrapping_congr (by omega) hy
    have hnext : cells rest x (y + 1) = cells rest x' (y' + 1) := ih (by omega)
    simp only [cells, hrow, hnext]

theorem ext_pixels {b b' : Bitmap} (h : ∀ c : Cell, b.pixels.get c = b'.pixels.get c) : b = b' := by
  obtain ⟨pixels⟩ := b
  obtain ⟨pixels'⟩ := b'
  congr
  exact Vector.ext fun i hi ↦ h ⟨i, hi⟩

theorem xor_odd (m n : Nat) : (decide (Odd m) ^^ decide (Odd n)) = decide (Odd (m + n)) := by
  simp only [Nat.odd_iff, Nat.add_mod m n]
  rcases Nat.mod_two_eq_zero_or_one m with hm | hm
  · rcases Nat.mod_two_eq_zero_or_one n with hn | hn <;> rw [hm, hn] <;> rfl
  · rcases Nat.mod_two_eq_zero_or_one n with hn | hn <;> rw [hm, hn] <;> rfl

end Bitmap

namespace Frame

theorem draw_congr (f : Frame) {d e : Drawing} (h : d.Matches e) :
    f.draw d.sprite d.x d.y = f.draw e.sprite e.x e.y := by
  simp only [draw, Bitmap.draw, h.sprite, Bitmap.cells_congr e.sprite h.x h.y]

/-- Make drawings in a row.  The first result says of each of them whether a pixel was unset. -/
def drawAll (f : Frame) : List Drawing → List Bool × Frame
  | [] => ([], f)
  | d :: rest =>
    let (unset, g) := f.draw d.sprite d.x d.y
    let (laterUnset, h) := g.drawAll rest
    (unset :: laterUnset, h)

/-- Drawings in a row flip a pixel as often as their cells have it. -/
theorem pixels_drawAll (f : Frame) (drawings : List Drawing) (c : Cell) :
    (f.drawAll drawings).2.bitmap.pixels.get c =
      (f.bitmap.pixels.get c ^^ decide (Odd ((drawings.flatMap Drawing.cells).count c))) := by
  induction drawings generalizing f with
  | nil => simp [drawAll]
  | cons d rest ih =>
    have hfirst : (f.draw d.sprite d.x d.y).2.bitmap.pixels.get c =
        (f.bitmap.pixels.get c ^^ decide (Odd (d.cells.count c))) :=
      Bitmap.pixels_foldl_flipNoting false f.bitmap d.cells c
    calc
      _ = ((f.draw d.sprite d.x d.y).2.bitmap.pixels.get c ^^
            decide (Odd ((rest.flatMap Drawing.cells).count c))) := ih _
      _ = (f.bitmap.pixels.get c ^^ decide (Odd (((d :: rest).flatMap Drawing.cells).count c))) := by
        rw [hfirst, Bool.xor_assoc, Bitmap.xor_odd, List.flatMap_cons, List.count_append]

theorem stale_drawAll (f : Frame) (drawings : List Drawing) :
    (f.drawAll drawings).2.stale =
      (f.stale || drawings.any fun d ↦ d.sprite.any (· ≠ 0)) := by
  induction drawings generalizing f with
  | nil => simp [drawAll]
  | cons d rest ih =>
    rw [List.any_cons, ← Bool.or_assoc]
    exact ih _

/-- Drawings leave the same picture if they flip each pixel as often, up to parity. -/
theorem bitmap_drawAll_congr (f : Frame) {drawings others : List Drawing}
    (h : ∀ c, Odd ((drawings.flatMap Drawing.cells).count c) ↔
      Odd ((others.flatMap Drawing.cells).count c)) :
    (f.drawAll drawings).2.bitmap = (f.drawAll others).2.bitmap := by
  apply Bitmap.ext_pixels
  intro c
  rw [pixels_drawAll, pixels_drawAll, decide_eq_decide.mpr (h c)]

theorem drawAll_perm (f : Frame) {drawings others : List Drawing} (h : drawings.Perm others) :
    (f.drawAll drawings).2 = (f.drawAll others).2 := by
  have hbitmap : (f.drawAll drawings).2.bitmap = (f.drawAll others).2.bitmap := by
    apply bitmap_drawAll_congr
    intro c
    rw [(h.flatMap_right Drawing.cells).count_eq]
  have hstale : (f.drawAll drawings).2.stale = (f.drawAll others).2.stale := by
    rw [stale_drawAll, stale_drawAll, h.any_eq]
  calc
    _ = Frame.mk (f.drawAll drawings).2.bitmap (f.drawAll drawings).2.stale := rfl
    _ = Frame.mk (f.drawAll others).2.bitmap (f.drawAll others).2.stale := by rw [hbitmap, hstale]
    _ = _ := rfl

theorem bitmap_drawAll_cancel (f : Frame) (d : Drawing) (before between after : List Drawing) :
    (f.drawAll (before ++ d :: between ++ d :: after)).2.bitmap =
      (f.drawAll (before ++ between ++ after)).2.bitmap := by
  apply bitmap_drawAll_congr
  intro c
  simp only [List.flatMap_append, List.flatMap_cons, List.count_append, Nat.odd_iff]
  omega

theorem drawAll_of_matches (f : Frame) {drawings others : List Drawing}
    (h : List.Forall₂ Drawing.Matches drawings others) : f.drawAll drawings = f.drawAll others := by
  induction h generalizing f with
  | nil => rfl
  | cons hd _ ih => simp only [drawAll, f.draw_congr hd, ih]

/-- Drawings may be made in any order, a drawing that is made twice may be left out both times, and
places may be exchanged for others that wrap around to them. -/
theorem drawings_commute_cancel_wrap (f : Frame) :
    (∀ drawings others : List Drawing, drawings.Perm others →
        (f.drawAll others).2 = (f.drawAll drawings).2) ∧
      (∀ (d : Drawing) (before between after : List Drawing),
        (f.drawAll (before ++ between ++ after)).2.bitmap =
          (f.drawAll (before ++ d :: between ++ d :: after)).2.bitmap) ∧
      ∀ drawings others : List Drawing, List.Forall₂ Drawing.Matches drawings others →
        f.drawAll others = f.drawAll drawings := by
  refine ⟨fun drawings others hperm ↦ ?_, fun d before between after ↦ ?_,
    fun drawings others hmatches ↦ ?_⟩
  · exact f.drawAll_perm hperm.symm
  · exact (f.bitmap_drawAll_cancel d before between after).symm
  · exact (f.drawAll_of_matches hmatches).symm

/-- Two drawings that have pixels in common, for examples. -/
def overlapping : List Drawing :=
  [{ sprite := [0x80], x := 60, y := 31 }, { sprite := [0x08, 0x20], x := 58, y := 30 }]

/-- The same drawings, the second of them named from the other side of the display. -/
def overlappingFromAfar : List Drawing :=
  [{ sprite := [0x80], x := 60, y := 31 }, { sprite := [0x08, 0x20], x := 122, y := 62 }]

/-- The second drawing collides with the first, also from afar, and their order does not count. -/
theorem drawings_commute_cancel_wrap_overlapping :
    overlapping.Perm overlapping.reverse ∧
      (drawAll {} overlapping.reverse).2 = (drawAll {} overlapping).2 ∧
      List.Forall₂ Drawing.Matches overlapping overlappingFromAfar ∧
      (drawAll {} overlappingFromAfar).1 = [false, true] := by
  have hperm : overlapping.Perm overlapping.reverse := (List.reverse_perm _).symm
  have hmatches : List.Forall₂ Drawing.Matches overlapping overlappingFromAfar :=
    .cons ⟨rfl, rfl, rfl⟩ (.cons ⟨rfl, rfl, rfl⟩ .nil)
  have hunset : (drawAll {} overlapping).1 = [false, true] := by decide +kernel
  obtain ⟨horder, -, hwrap⟩ := drawings_commute_cancel_wrap {}
  refine ⟨hperm, horder _ _ hperm, hmatches, ?_⟩
  rw [hwrap _ _ hmatches, hunset]

end Frame

end ChipEight
