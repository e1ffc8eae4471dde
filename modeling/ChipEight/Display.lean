import ChipEight.Devices

/-!
# Displays

The display has 32 rows of 64 pixels.  Coordinates wrap around at its edges.  A sprite is a list of
bytes, one for each of its rows from top to bottom, and the highest bit of a byte is the leftmost
pixel of the row.  Drawing a sprite flips the pixels under its set bits one by one, in the order of
`Bitmap.cells`, and reports whether any pixel was unset by that.

A frame is a bitmap with a mark that says whether it has changed since it was last painted.  A new
frame counts as changed.  A refresh runs the given paint function only on a stale frame, and takes
the mark away only if painting succeeds, so a failed refresh is made up for by the next one.

A console paints each changed frame as text: one line for each row, `#` for a set pixel and a blank
for an unset one.  The text goes to a writer, which may fail; the rest of the frame is then not
written, and the frame stays stale.
-/

namespace ChipEight

/-! ## Bitmaps -/

def displayWidth : Nat := 64

def displayHeight : Nat := 32

/-- The place of a pixel: the rows follow each other from top to bottom. -/
abbrev Cell := Fin 2048

/-- The cell at column `x` and row `y`, both wrapped around. -/
def Cell.wrapping (x y : Nat) : Cell := ⟨y % 32 * 64 + x % 64, by omega⟩

structure Bitmap where
  pixels : Vector Bool 2048
  deriving DecidableEq

namespace Bitmap

def blank : Bitmap := ⟨Vector.replicate 2048 false⟩

def pixel (b : Bitmap) (x y : Nat) : Bool := b.pixels[Cell.wrapping x y]

/-- The pixels of a row from left to right. -/
def row (b : Bitmap) (y : Nat) : List Bool := (List.range displayWidth).map fun x ↦ b.pixel x y

/-- All rows from top to bottom. -/
def rows (b : Bitmap) : List (List Bool) := (List.range displayHeight).map b.row

def flip (b : Bitmap) (c : Cell) : Bitmap := ⟨b.pixels.set c (!b.pixels[c])⟩

theorem getElem_flip (b : Bitmap) (c d : Cell) :
    (b.flip c).pixels[d] = if d = c then !b.pixels[c] else b.pixels[d] := by
  simp only [flip, Fin.getElem_fin, Vector.getElem_set, Fin.ext_iff, eq_comm]

/-- The columns of the set bits of a sprite's row, from left to right. -/
def setColumns (bits : UInt8) : List Nat :=
  (List.range 8).filter fun i ↦ bits.toNat.testBit (7 - i)

/-- The cells that a sprite covers with its top left corner at (`x`, `y`), row by row.  A sprite of
more than 32 rows can cover a cell more than once. -/
def cells : List UInt8 → Nat → Nat → List Cell
  | [], _, _ => []
  | bits :: rest, x, y =>
    (setColumns bits).map (fun i ↦ Cell.wrapping (x + i) y) ++ cells rest x (y + 1)

/-- Flip a cell, and note in the first component whether it was set. -/
def flipNoting (state : Bool × Bitmap) (c : Cell) : Bool × Bitmap :=
  (state.1 || state.2.pixels[c], state.2.flip c)

/-- Flip the given cells one after the other; the first result says whether a pixel was unset. -/
def flipAll (cells : List Cell) (b : Bitmap) : Bool × Bitmap := cells.foldl flipNoting (false, b)

/-- Flip the pixels under the set bits of a sprite. -/
def draw (b : Bitmap) (sprite : List UInt8) (x y : Nat) : Bool × Bitmap :=
  flipAll (cells sprite x y) b

end Bitmap

/-! ## Frames -/

structure Frame where
  bitmap : Bitmap := .blank
  /-- Whether the bitmap may differ from what was last painted. -/
  stale : Bool := true
  deriving DecidableEq

namespace Frame

def clear (_ : Frame) : Frame := {}

/-- Draw a sprite.  A sprite without a set bit leaves the frame as it is. -/
def draw (f : Frame) (sprite : List UInt8) (x y : Nat) : Bool × Frame :=
  let (hit, bitmap) := f.bitmap.draw sprite x y
  (hit, { bitmap, stale := f.stale || sprite.any (· ≠ 0) })

/-- Have the next refresh paint, whatever has changed. -/
def force (f : Frame) : Frame := { f with stale := true }

/-- Paint the frame if it is stale.  The paint function acts on a surface of its own. -/
def refresh {S : Type} (f : Frame) (paint : Bitmap → S → Except Fault Unit × S) (surface : S) :
    Except Fault Unit × Frame × S :=
  if f.stale then
    match paint f.bitmap surface with
    | (.ok (), surface) => (.ok (), { f with stale := false }, surface)
    | (.error fault, surface) => (.error fault, f, surface)
  else (.ok (), f, surface)

/-- A frame on its own is painted by someone else, at a time of their choosing. -/
instance : Display Frame where
  clear := clear
  draw := draw

end Frame

/-- A frame behind a lock.  Every operation holds the lock from its beginning to its end, so those
of several holders take effect one after the other, each on what the last one left. -/
structure SharedFrame where
  frame : Frame := {}
  deriving DecidableEq

instance : Display SharedFrame where
  clear s := ⟨s.frame.clear⟩
  draw s sprite x y :=
    let (hit, frame) := s.frame.draw sprite x y
    (hit, ⟨frame⟩)

/-! ## Text consoles -/

class Writer (W : Type) where
  /-- Write a text.  A writer that fails may have written a part of it. -/
  write : W → String → Except Fault Unit × W
  flush : W → Except Fault Unit × W

/-- A writer that keeps what it is given, up to a limit.  The text is taken to be ASCII, a byte for
each character.  A text that does not fit is written as far as there is room. -/
structure Sink where
  written : String := ""
  /-- How many more characters are accepted; `none` means any number. -/
  room : Option Nat := none
  flushFails : Bool := false

namespace Sink

def write (s : Sink) (text : String) : Except Fault Unit × Sink :=
  match s.room with
  | none => (.ok (), { s with written := s.written ++ text })
  | some room =>
    if text.length ≤ room then
      (.ok (), { s with written := s.written ++ text, room := some (room - text.length) })
    else
      (.error (.device "writer is full"),
        { s with written := s.written ++ String.ofList (text.toList.take room), room := some 0 })

def flush (s : Sink) : Except Fault Unit × Sink :=
  (if s.flushFails then .error (.device "flush failed") else .ok (), s)

/-- Take out what has been written so far. -/
def drain (s : Sink) : String × Sink := (s.written, { s with written := "" })

instance : Writer Sink where
  write := write
  flush := flush

end Sink

structure Console (W : Type) where
  frame : Frame := {}
  out : W

namespace Console

/-- The text of a row of pixels, with the end of the line. -/
def line (row : List Bool) : String :=
  String.ofList (row.map fun set ↦ if set then '#' else ' ') ++ "\n"

variable {W : Type} [Writer W]

/-- Write texts one after the other until one fails, and flush at the end. -/
def writeAll : List String → W → Except Fault Unit × W
  | [], out => Writer.flush out
  | text :: rest, out =>
    match Writer.write out text with
    | (.ok (), out) => writeAll rest out
    | (.error fault, out) => (.error fault, out)

def paint (b : Bitmap) (out : W) : Except Fault Unit × W := writeAll (b.rows.map line) out

def poll (c : Console W) : Except Fault Unit × Console W :=
  let (result, frame, out) := c.frame.refresh paint c.out
  (result, { frame, out })

instance : Display (Console W) where
  clear c := { c with frame := c.frame.clear }
  draw c sprite x y :=
    let (hit, frame) := c.frame.draw sprite x y
    (hit, { c with frame })
  poll := poll

end Console

end ChipEight
