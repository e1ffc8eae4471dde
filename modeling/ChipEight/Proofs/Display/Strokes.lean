import ChipEight.Display

/-!
# Strokes

A stroke is what changes a picture: it is wiped, or a sprite is drawn on it.  Frames are marked as
stale by every stroke but a drawing without a set bit, and such a drawing changes no picture.
-/

namespace ChipEight

inductive Stroke where
  | clear
  | draw (sprite : List UInt8) (x y : Nat)

namespace Stroke

def apply (b : Bitmap) : Stroke → Bitmap
  | clear => .blank
  | draw sprite x y => (b.draw sprite x y).2

/-- The picture that strokes leave on a blank bitmap. -/
def picture (strokes : List Stroke) : Bitmap := strokes.foldl apply .blank

/-- Whether the stroke counts as a change, also where it leaves the picture the same. -/
def marks : Stroke → Bool
  | clear => true
  | draw sprite _ _ => sprite.any (· ≠ 0)

end Stroke

theorem Bitmap.cells_eq_nil {sprite : List UInt8} (h : ∀ bits ∈ sprite, bits = 0) (x y : Nat) :
    cells sprite x y = [] := by
  induction sprite generalizing y with
  | nil => rfl
  | cons bits rest ih =>
    have hzero : bits = 0 := h bits List.mem_cons_self
    have hrest : ∀ bits ∈ rest, bits = 0 := fun bits hbits ↦ h bits (List.mem_cons_of_mem _ hbits)
    rw [cells, hzero, ih hrest, List.append_nil]
    rfl

theorem Stroke.apply_of_not_marks {s : Stroke} (h : s.marks = false) (b : Bitmap) :
    s.apply b = b := by
  cases s with
  | clear => cases h
  | draw sprite x y =>
    have hzero : ∀ bits ∈ sprite, bits = 0 := by
      intro bits hbits
      simpa using List.any_eq_false.mp h bits hbits
    rw [apply, Bitmap.draw, Bitmap.cells_eq_nil hzero]
    rfl

/-- The display after a stroke. -/
def Display.stroke {D : Type} [Display D] (d : D) : Stroke → D
  | .clear => Display.clear d
  | .draw sprite x y => (Display.draw d sprite x y).2

theorem Frame.stroke_eq (f : Frame) (s : Stroke) :
    Display.stroke f s = { bitmap := s.apply f.bitmap, stale := f.stale || s.marks } := by
  cases s with
  | clear => exact congrArg (Frame.mk .blank) (Bool.or_true _).symm
  | draw sprite x y => rfl

/-- A refresh paints a stale frame, which stays stale if that fails. -/
theorem Frame.refresh_eq {S : Type} (f : Frame) (paint : Bitmap → S → Except Fault Unit × S)
    (surface : S) :
    f.refresh paint surface =
      if f.stale then
        let result := paint f.bitmap surface
        (result.1, { f with stale := !result.1.isOk }, result.2)
      else (.ok (), f, surface) := by
  unfold refresh
  cases hstale : f.stale with
  | false => rfl
  | true =>
    rw [if_pos rfl, if_pos rfl]
    rcases paint f.bitmap surface with ⟨fault | _, after⟩
    · exact congrArg (fun stale ↦ (Except.error fault, { f with stale }, after)) hstale
    · rfl

theorem SharedFrame.stroke_eq (shared : SharedFrame) (s : Stroke) :
    Display.stroke shared s = { frame := Display.stroke shared.frame s } := by
  cases s <;> rfl

theorem Console.stroke_eq {W : Type} [Writer W] (c : Console W) (s : Stroke) :
    Display.stroke c s = { c with frame := Display.stroke c.frame s } := by
  cases s <;> rfl

end ChipEight
