/-!
# Programs and their sources

A source delivers the bytes of a program in reads of any size.  A read may also be interrupted, and
is then tried again, or fail.  A read of no bytes is the end of the source.  A `Delivery` is a way
in which a source may deliver given bytes: in chunks of a size, up to a place where a read fails,
and with an interrupted read before every other one.  A source with chunks of no bytes is taken to
be at its end by whoever reads it, unless it fails at its very beginning.
-/

namespace ChipEight

/-- The outcome of one read. -/
inductive Read where
  | bytes (chunk : List UInt8)
  | interrupted
  | failed (text : String)
  deriving DecidableEq

/-- What was taken from a source, and the fault that stopped it, if one did. -/
structure Intake where
  bytes : List UInt8 := []
  fault? : Option String := none
  deriving DecidableEq

/-- Read until the end of the source, a failed read, or `limit` bytes.  With `limit` bytes taken no
further read is made. -/
def Read.intake : Nat → List Read → Intake
  | 0, _ => {}
  | _, [] => {}
  | limit, .interrupted :: rest => intake limit rest
  | _, .failed text :: _ => { fault? := some text }
  | _, .bytes [] :: _ => {}
  | limit, .bytes (b :: chunk) :: rest =>
    let more := intake (limit - (b :: chunk).length) rest
    { more with bytes := (b :: chunk).take limit ++ more.bytes }

/-! ## Deliveries -/

/-- How a source delivers its bytes. -/
structure Delivery where
  /-- The most bytes of a read. -/
  chunkSize : Nat := 1048576
  /-- The place at which a read fails, and the text of the failure. -/
  failure? : Option (Nat × String) := none
  interrupts : Bool := false

namespace Delivery

/-- Cut a list into pieces of `size` elements, the last of which may be shorter.  Pieces of no
elements get nowhere: there is one of them. -/
def chunks {α : Type} (size : Nat) : List α → List (List α)
  | [] => []
  | a :: rest =>
    if size = 0 then [[]]
    else (a :: rest.take (size - 1)) :: chunks size (rest.drop (size - 1))
termination_by list => list.length
decreasing_by simp only [List.length_drop, List.length_cons]; omega

/-- The reads before the failing one, and that one if it lies within the source or at its end. -/
def attempts (d : Delivery) (data : List UInt8) : List Read :=
  match d.failure? with
  | none => (chunks d.chunkSize data).map .bytes
  | some (place, text) =>
    if place ≤ data.length then
      (chunks d.chunkSize (data.take place)).map .bytes ++ [.failed text]
    else (chunks d.chunkSize data).map .bytes

/-- All reads of a source with this data. -/
def reads (d : Delivery) (data : List UInt8) : List Read :=
  if d.interrupts then (d.attempts data).flatMap fun read ↦ [.interrupted, read]
  else d.attempts data

end Delivery

end ChipEight
