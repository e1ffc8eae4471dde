import ChipEight.Proofs.Display.Strokes

/-!
# Displays that show a bitmap

A display is faithful if, seen from the interpreter, it is a bitmap: it reports of a drawing what
the bitmap would, and its polls neither fail nor take time nor change the picture.  Frames are
faithful, whether or not they are shared, and so are consoles on a writer that never fails.
-/

namespace ChipEight

namespace Writer

variable {W : Type} [Writer W]

/-- What may become of a writer by writing and flushing. -/
inductive Later (w : W) : W → Prop where
  | refl : Later w w
  | write {v : W} (text : String) : Later w v → Later w (Writer.write v text).2
  | flush {v : W} : Later w v → Later w (Writer.flush v).2

theorem Later.trans {u v w : W} (huv : Later u v) (hvw : Later v w) : Later u w := by
  induction hvw with
  | refl => exact huv
  | write text _ ih => exact ih.write text
  | flush _ ih => exact ih.flush

def NeverFails (w : W) : Prop :=
  ∀ v : W, Later w v → (∀ text, (write v text).1 = .ok ()) ∧ (flush v).1 = .ok ()

theorem NeverFails.later {v w : W} (h : NeverFails v) (hvw : Later v w) : NeverFails w := by
  intro u hu
  exact h u (hvw.trans hu)

end Writer

/-- A sink without a limit, of which the flush does not fail. -/
theorem Sink.neverFails {s : Sink} (hroom : s.room = none) (hflush : s.flushFails = false) :
    Writer.NeverFails s := by
  intro t ht
  have hsame : t.room = none ∧ t.flushFails = false := by
    induction ht with
    | refl => exact ⟨hroom, hflush⟩
    | @write v text _ ih =>
      change (v.write text).2.room = none ∧ (v.write text).2.flushFails = false
      rw [Sink.write, ih.1]
      exact ⟨rfl, ih.2⟩
    | flush _ ih => exact ih
  constructor
  · intro text
    change (t.write text).1 = .ok ()
    rw [Sink.write, hsame.1]
  · change (t.flush).1 = .ok ()
    rw [Sink.flush, hsame.2]
    rfl

namespace Console

variable {W : Type} [Writer W] {out : W}

theorem writeAll_of_neverFails (h : Writer.NeverFails out) (texts : List String) :
    (writeAll texts out).1 = .ok () ∧ Writer.Later out (writeAll texts out).2 := by
  induction texts generalizing out with
  | nil => exact ⟨(h out .refl).2, Writer.Later.refl.flush⟩
  | cons text rest ih =>
    have hwritten : Writer.Later out (Writer.write out text).2 := Writer.Later.refl.write text
    obtain ⟨hrest, hlater⟩ := ih (h.later hwritten)
    have hwrite : Writer.write out text = (.ok (), (Writer.write out text).2) :=
      Prod.ext ((h out .refl).1 text) rfl
    rw [writeAll, hwrite]
    exact ⟨hrest, hwritten.trans hlater⟩

end Console

namespace Display

variable {D : Type} [Display D]

/-- Displays that show a bitmap, `shows` telling which, do what is asked of them on the bitmap. -/
structure Faithful (shows : D → Bitmap → Prop) : Prop where
  clear {d : D} {b : Bitmap} : shows d b → shows (clear d) .blank
  draw {d : D} {b : Bitmap} (sprite : List UInt8) (x y : Nat) : shows d b →
    (draw d sprite x y).1 = (b.draw sprite x y).1 ∧
      shows (draw d sprite x y).2 (b.draw sprite x y).2
  poll {d : D} {b : Bitmap} : shows d b → (poll d).1 = .ok () ∧ shows (poll d).2 b
  pollTime {d : D} {b : Bitmap} : shows d b → pollTime d = 0

end Display

/-! ## Faithful displays -/

def Frame.Shows (f : Frame) (b : Bitmap) : Prop := f.bitmap = b

theorem Frame.faithful : Display.Faithful Frame.Shows where
  clear _ := rfl
  draw _ _ _ h := h ▸ ⟨rfl, rfl⟩
  poll h := ⟨rfl, h⟩
  pollTime _ := rfl

def SharedFrame.Shows (s : SharedFrame) (b : Bitmap) : Prop := s.frame.bitmap = b

theorem SharedFrame.faithful : Display.Faithful SharedFrame.Shows where
  clear _ := rfl
  draw _ _ _ h := h ▸ ⟨rfl, rfl⟩
  poll h := ⟨rfl, h⟩
  pollTime _ := rfl

/-- The console shows its bitmap also where it is still to be written. -/
def Console.Shows {W : Type} [Writer W] (c : Console W) (b : Bitmap) : Prop :=
  c.frame.bitmap = b ∧ Writer.NeverFails c.out

theorem Console.poll_of_neverFails {W : Type} [Writer W] {c : Console W}
    (h : Writer.NeverFails c.out) :
    c.poll.1 = .ok () ∧ c.poll.2.frame.bitmap = c.frame.bitmap ∧
      Writer.Later c.out c.poll.2.out := by
  obtain ⟨hok, hlater⟩ := writeAll_of_neverFails h (c.frame.bitmap.rows.map line)
  rw [poll, Frame.refresh_eq]
  cases c.frame.stale with
  | false => exact ⟨rfl, rfl, .refl⟩
  | true => exact ⟨hok, rfl, hlater⟩

theorem Console.faithful {W : Type} [Writer W] :
    Display.Faithful (Console.Shows : Console W → Bitmap → Prop) where
  clear h := ⟨rfl, h.2⟩
  draw sprite x y h := by
    obtain ⟨rfl, hout⟩ := h
    exact ⟨rfl, rfl, hout⟩
  poll h := by
    obtain ⟨hok, hsame, hlater⟩ := poll_of_neverFails h.2
    exact ⟨hok, hsame.trans h.1, h.2.later hlater⟩
  pollTime _ := rfl

end ChipEight
