import Mathlib.Data.List.Basic
import Mathlib.Data.List.Induction
import ChipEight.Proofs.Display.Strokes

/-!
# What consoles print

A console prints its changed frames, each as it is when it is checked.  To a writer that accepts
only so many characters it prints that many of the same characters: checks that find the writer full
add nothing, and the frame stays stale for good.
-/

namespace ChipEight

/-! ## Writers with a limit -/

namespace Sink

variable {room : Option Nat} {before : List Char}

def fits (room : Option Nat) (text : List Char) : Bool := room.all fun room ↦ text.length ≤ room

/-- As much of a text as there is room for. -/
def accepted (room : Option Nat) (text : List Char) : List Char :=
  match room with
  | none => text
  | some room => text.take room

/-- The writer after a text, of which it has taken what it accepts. -/
def put (s : Sink) (text : List Char) : Sink :=
  { s with
    written := s.written ++ String.ofList (accepted s.room text)
    room := s.room.map (· - text.length) }

def full : Fault := .device "writer is full"

theorem write_eq (s : Sink) (text : String) :
    s.write text =
      (if fits s.room text.toList then .ok () else .error full, s.put text.toList) := by
  obtain ⟨written, room, flushFails⟩ := s
  have hlength : text.toList.length = text.length := String.length_toList
  cases room with
  | none => simp [write, fits, put, accepted]
  | some room =>
    by_cases hfits : text.length ≤ room
    · have hwhole : text.toList.take room = text.toList := List.take_of_length_le (hlength ▸ hfits)
      simp [write, fits, put, accepted, hlength, hfits, hwhole]
    · have hnone : room - text.length = 0 := by omega
      simp [write, fits, put, accepted, hlength, hfits, hnone, full]

theorem put_nil (s : Sink) : s.put [] = s := by
  obtain ⟨written, _ | room, flushFails⟩ := s <;> simp [put, accepted]

theorem put_append (s : Sink) (before after : List Char) :
    s.put (before ++ after) = (s.put before).put after := by
  obtain ⟨written, _ | room, flushFails⟩ := s
  · simp [put, accepted, String.append_assoc]
  · simp [put, accepted, List.take_append, String.append_assoc, Nat.sub_sub]

theorem fits_append (room : Option Nat) (before after : List Char) :
    fits room (before ++ after) =
      (fits room before && fits (room.map (· - before.length)) after) := by
  cases room with
  | none => rfl
  | some room =>
    rw [Bool.eq_iff_iff]
    simp only [fits, Option.all_some, Option.map_some, List.length_append, Bool.and_eq_true,
      decide_eq_true_eq]
    omega

/-- Nothing is accepted after a text that did not fit. -/
theorem put_put_of_not_fits {s : Sink} (h : fits s.room before = false) (after : List Char) :
    (s.put before).put after = s.put before := by
  obtain ⟨written, _ | room, flushFails⟩ := s
  · cases h
  · have hfull : room - before.length = 0 := by
      simp only [fits, Option.all_some, decide_eq_false_iff_not] at h
      omega
    simp [put, accepted, hfull]

theorem fits_rest_of_not_fits (h : fits room before = false) {after : List Char}
    (hafter : 0 < after.length) : fits (room.map (· - before.length)) after = false := by
  cases room with
  | none => cases h
  | some room =>
    simp only [fits, Option.all_some, Option.map_some, decide_eq_false_iff_not] at h ⊢
    omega

theorem not_fits_rest_iff (room : Option Nat) (before : List Char) {after : List Char}
    (hafter : 0 < after.length) :
    fits (room.map (· - before.length)) after = false ↔
      ∃ limit, room = some limit ∧ limit < (accepted room before).length + after.length := by
  cases room with
  | none => simp [fits]
  | some limit =>
    simp only [fits, Option.map_some, Option.all_some, decide_eq_false_iff_not, accepted,
      List.length_take, Option.some.injEq, exists_eq_left']
    omega

end Sink

/-! ## One frame -/

/-- A picture as text: its rows from top to bottom, each from left to right and with an end of the
line. -/
def Bitmap.text (b : Bitmap) : List Char :=
  (List.range 32).flatMap fun y ↦
    (List.range 64).map (fun x ↦ if b.pixel x y then '#' else ' ') ++ ['\n']

theorem Bitmap.text_eq (b : Bitmap) : (b.rows.map Console.line).flatMap String.toList = b.text := by
  simp [text, rows, row, Console.line, List.flatMap_map, Function.comp_def, displayWidth,
    displayHeight]

theorem Bitmap.length_text (b : Bitmap) : b.text.length = 2080 := by
  simp [text, List.length_flatMap, List.map_const']

theorem Bitmap.length_text_pos (b : Bitmap) : 0 < b.text.length := by
  rw [b.length_text]
  decide

theorem Bitmap.utf8Size_of_mem_text {b : Bitmap} {char : Char} (h : char ∈ b.text) :
    char.utf8Size = 1 := by
  simp only [text, List.mem_flatMap, List.mem_append, List.mem_map, List.mem_singleton] at h
  obtain ⟨y, -, ⟨x, -, rfl⟩ | rfl⟩ := h
  · split <;> rfl
  · rfl

namespace Console

theorem writeAll_eq (texts : List String) {out : Sink} (h : out.flushFails = false) :
    writeAll texts out =
      (if Sink.fits out.room (texts.flatMap String.toList) then .ok () else .error Sink.full,
        out.put (texts.flatMap String.toList)) := by
  induction texts generalizing out with
  | nil =>
    have hfits : Sink.fits out.room [] = true := by cases hroom : out.room <;> rfl
    rw [List.flatMap_nil, hfits, Sink.put_nil]
    simp [writeAll, Writer.flush, Sink.flush, h]
  | cons text rest ih =>
    rw [List.flatMap_cons, Sink.fits_append, Sink.put_append]
    simp only [writeAll, Writer.write, Sink.write_eq]
    cases hfits : Sink.fits out.room text.toList with
    | true => exact ih h
    | false => exact congrArg (Prod.mk _) (Sink.put_put_of_not_fits hfits _).symm

theorem paint_eq (b : Bitmap) {out : Sink} (h : out.flushFails = false) :
    paint b out =
      (if Sink.fits out.room b.text then .ok () else .error Sink.full, out.put b.text) := by
  rw [paint, writeAll_eq _ h, b.text_eq]

theorem poll_eq {c : Console Sink} (h : c.out.flushFails = false) :
    poll c =
      if c.frame.stale then
        let fits := Sink.fits c.out.room c.frame.bitmap.text
        (if fits then .ok () else .error Sink.full,
          { frame := { c.frame with stale := !fits }, out := c.out.put c.frame.bitmap.text })
      else (.ok (), c) := by
  rw [poll, Frame.refresh_eq, paint_eq _ h]
  cases c.frame.stale with
  | false => rfl
  | true => cases Sink.fits c.out.room c.frame.bitmap.text <;> rfl

theorem frame_poll_of_failed {W : Type} [Writer W] {c : Console W}
    (h : (poll c).1.isOk = false) : (poll c).2.frame = c.frame := by
  rw [poll, Frame.refresh_eq] at h ⊢
  obtain ⟨⟨b, stale⟩, out⟩ := c
  cases stale with
  | false => rfl
  | true =>
    have hfailed : (paint b out).1.isOk = false := h
    exact congrArg (fun ok ↦ Frame.mk b !ok) hfailed

/-- A new console after it was to print some text.  Its frame is stale where there is a change to
show, and for good once the writer had no room for all of the text. -/
def reached (room : Option Nat) (b : Bitmap) (changed : Bool) (text : List Char) : Console Sink where
  frame := { bitmap := b, stale := changed || !Sink.fits room text }
  out := Sink.put { room } text

theorem written_reached (room : Option Nat) (b : Bitmap) (changed : Bool) (text : List Char) :
    (reached room b changed text).out.written = String.ofList (Sink.accepted room text) :=
  String.empty_append

theorem stroke_reached (room : Option Nat) (b : Bitmap) (changed : Bool) (text : List Char)
    (s : Stroke) :
    Display.stroke (reached room b changed text) s =
      reached room (s.apply b) (changed || s.marks) text := by
  rw [stroke_eq, Frame.stroke_eq, reached, reached]
  simp only [Bool.or_right_comm]

theorem poll_reached (room : Option Nat) (b : Bitmap) (changed : Bool) (text : List Char) :
    poll (reached room b changed text) =
      if changed || !Sink.fits room text then
        let fits := Sink.fits (room.map (· - text.length)) b.text
        (if fits then .ok () else .error Sink.full,
          { frame := { bitmap := b, stale := !fits }, out := Sink.put { room } (text ++ b.text) })
      else (.ok (), reached room b changed text) := by
  rw [Sink.put_append]
  exact poll_eq rfl

theorem polled_reached (room : Option Nat) (b : Bitmap) (changed : Bool) (text : List Char) :
    (poll (reached room b changed text)).2 =
      reached room b false (text ++ if changed then b.text else []) := by
  rw [poll_reached]
  cases hfits : Sink.fits room text with
  | false =>
    -- The writer is full: nothing of the frame is printed, and the frame stays stale.
    have hrest : Sink.fits (room.map (· - text.length)) b.text = false :=
      Sink.fits_rest_of_not_fits hfits b.length_text_pos
    have hput (more : List Char) : Sink.put { room } (text ++ more) = Sink.put { room } text := by
      rw [Sink.put_append]
      exact Sink.put_put_of_not_fits hfits more
    have hmore (more : List Char) : Sink.fits room (text ++ more) = false := by
      rw [Sink.fits_append, hfits, Bool.false_and]
    rw [Bool.not_false, Bool.or_true, if_pos rfl, reached, hrest, hput, hput, hmore]
    rfl
  | true =>
    cases changed with
    | false => rw [Bool.not_true, Bool.or_false, if_neg Bool.false_ne_true,
        if_neg Bool.false_ne_true, List.append_nil]
    | true =>
      rw [Bool.true_or, if_pos rfl, if_pos rfl, reached, Sink.fits_append, hfits]
      rfl

/-! ## Any number of calls -/

inductive Call where
  | stroke (s : Stroke)
  | check

def Call.stroke? : Call → Option Stroke
  | stroke s => some s
  | check => none

def call {W : Type} [Writer W] (c : Console W) : Call → Except Fault Unit × Console W
  | .stroke s => (.ok (), Display.stroke c s)
  | .check => Display.poll c

def after {W : Type} [Writer W] (c : Console W) (calls : List Call) : Console W :=
  calls.foldl (fun c call ↦ (c.call call).2) c

/-- The picture after calls on a new console. -/
def pictureAfter (calls : List Call) : Bitmap := Stroke.picture (calls.filterMap Call.stroke?)

/-- Whether a new console has a change to show after calls, if no check fails. -/
def changedAfter (calls : List Call) : Bool :=
  calls.foldl (fun changed call ↦
    match call with
    | .stroke s => changed || s.marks
    | .check => false) true

/-- What a call prints after the ones before it, if no check fails. -/
def printedBy? (before : List Call) : Call → Option Bitmap
  | .stroke _ => none
  | .check => if changedAfter before then some (pictureAfter before) else none

/-- The pictures that calls on a new console print, if no check fails. -/
def printed (calls : List Call) : List Bitmap :=
  (List.range calls.length).filterMap fun n ↦ calls[n]?.bind (printedBy? (calls.take n))

/-- The text that calls on a new console print, if no check fails. -/
def output (calls : List Call) : List Char := (printed calls).flatMap Bitmap.text

/-- A new console, whose writer has room for so much. -/
def opened (room : Option Nat) : Console Sink where
  out := { room }

theorem after_snoc {W : Type} [Writer W] (c : Console W) (calls : List Call) (call : Call) :
    c.after (calls ++ [call]) = ((c.after calls).call call).2 := by
  rw [after, List.foldl_append]
  rfl

theorem printed_snoc (calls : List Call) (call : Call) :
    printed (calls ++ [call]) = printed calls ++ (printedBy? calls call).toList := by
  have hbefore : ∀ n ∈ List.range calls.length,
      (calls ++ [call])[n]?.bind (printedBy? ((calls ++ [call]).take n)) =
        calls[n]?.bind (printedBy? (calls.take n)) := by
    intro n hn
    have hlt : n < calls.length := List.mem_range.mp hn
    rw [List.getElem?_append_left hlt, List.take_append_of_le_length (Nat.le_of_lt hlt)]
  rw [printed, List.length_append, List.length_singleton, List.range_succ, List.filterMap_append,
    List.filterMap_congr hbefore, List.filterMap_cons, List.getElem?_concat_length, List.take_left,
    Option.bind_some, printed]
  cases printedBy? calls call <;> rfl

theorem changedAfter_snoc (calls : List Call) (call : Call) :
    changedAfter (calls ++ [call]) =
      match call with
      | .stroke s => changedAfter calls || s.marks
      | .check => false := by
  rw [changedAfter, List.foldl_append]
  rfl

theorem pictureAfter_snoc (calls : List Call) (call : Call) :
    pictureAfter (calls ++ [call]) =
      match call with
      | .stroke s => s.apply (pictureAfter calls)
      | .check => pictureAfter calls := by
  rw [pictureAfter, List.filterMap_append, Stroke.picture, List.foldl_append]
  cases call <;> rfl

theorem output_snoc (calls : List Call) (call : Call) :
    output (calls ++ [call]) =
      output calls ++ (printedBy? calls call).toList.flatMap Bitmap.text := by
  rw [output, printed_snoc, List.flatMap_append, output]

theorem after_opened (room : Option Nat) (calls : List Call) :
    (opened room).after calls =
      reached room (pictureAfter calls) (changedAfter calls) (output calls) := by
  induction calls using List.reverseRecOn with
  | nil => exact congrArg (Console.mk {}) (Sink.put_nil { room }).symm
  | append_singleton calls call ih =>
    rw [after_snoc, ih, pictureAfter_snoc, changedAfter_snoc, output_snoc]
    cases call with
    | stroke s =>
      rw [call, stroke_reached]
      simp only [printedBy?, Option.toList_none, List.flatMap_nil, List.append_nil]
    | check =>
      calc (poll (reached room (pictureAfter calls) (changedAfter calls) (output calls))).2
          = reached room (pictureAfter calls) false
              (output calls ++ if changedAfter calls then (pictureAfter calls).text else []) :=
            polled_reached ..
        _ = _ := by
            cases hchanged : changedAfter calls <;> simp [printedBy?, hchanged]

/-- A check of a console that was to print some text fails if there is a picture to print for which
the writer has no room. -/
theorem poll_reached_fails_iff (room : Option Nat) (b : Bitmap) (changed : Bool) (text : List Char) :
    let c := reached room b changed text
    (poll c).1.isOk = false ↔
      c.frame.stale = true ∧ ∃ limit, room = some limit ∧ limit < c.out.written.length + 2080 := by
  intro c
  have hlength : c.out.written.length = (Sink.accepted room text).length := by
    rw [written_reached, String.length_ofList]
  have hstale : c.frame.stale = (changed || !Sink.fits room text) := rfl
  rw [hlength, ← b.length_text, ← Sink.not_fits_rest_iff room text b.length_text_pos, hstale,
    poll_reached]
  cases changed || !Sink.fits room text with
  | false => simp [Except.isOk, Except.toBool]
  | true => cases Sink.fits (room.map (· - text.length)) b.text <;> simp [Except.isOk, Except.toBool]

/-- The changed frames are what a console prints, and with a limit to what can be written, as much
of that as the limit allows.  A check fails if its frame is to be printed and does not fit; the
frame is then still to be printed. -/
theorem prints_changed_frames (limit? : Option Nat) (calls : List Call) :
    let whole := (opened none).after calls
    let c := (opened limit?).after calls
    whole.out.written.toList = (printed calls).flatMap Bitmap.text ∧
      (∀ char ∈ whole.out.written.toList, char.utf8Size = 1) ∧
      whole.frame.stale = changedAfter calls ∧
      c.out.written.toList = Sink.accepted limit? whole.out.written.toList ∧
      c.frame.bitmap = pictureAfter calls ∧
      ((c.call .check).1.isOk = false ↔ c.frame.stale = true ∧
        ∃ limit, limit? = some limit ∧ limit < c.out.written.length + 2080) ∧
      ((c.call .check).1.isOk = false → (c.call .check).2.frame = c.frame) := by
  intro whole c
  have hwhole : whole = reached none (pictureAfter calls) (changedAfter calls) (output calls) :=
    after_opened none calls
  have hc : c = reached limit? (pictureAfter calls) (changedAfter calls) (output calls) :=
    after_opened limit? calls
  have houtput : whole.out.written.toList = output calls := by
    rw [hwhole, written_reached, String.toList_ofList, Sink.accepted]
  have hstale : whole.frame.stale = changedAfter calls := by
    rw [hwhole]
    exact Bool.or_false _
  have hcut : c.out.written.toList = Sink.accepted limit? (output calls) := by
    rw [hc, written_reached, String.toList_ofList]
  have hsize : ∀ char ∈ output calls, char.utf8Size = 1 := by
    intro char hchar
    obtain ⟨b, -, hb⟩ := List.mem_flatMap.mp hchar
    exact Bitmap.utf8Size_of_mem_text hb
  rw [houtput, hcut, hc]
  exact ⟨rfl, hsize, hstale, rfl, rfl, poll_reached_fails_iff .., frame_poll_of_failed⟩

/-- The writer stops in the second row. -/
theorem prints_changed_frames_cut :
    ((opened (some 100)).call .check).1.isOk = false ∧
      ((opened (some 100)).call .check).2.frame = (opened (some 100)).frame := by
  obtain ⟨-, -, -, -, -, hfails, hkeeps⟩ := prints_changed_frames (some 100) []
  have hnew : (opened (some 100)).after [] = opened (some 100) := rfl
  have hroom : ∃ limit, some 100 = some limit ∧
      limit < (opened (some 100)).out.written.length + 2080 :=
    ⟨100, rfl, Nat.lt_of_lt_of_le (by decide) (Nat.le_add_left ..)⟩
  rw [hnew] at hfails hkeeps
  have hfailed : ((opened (some 100)).call .check).1.isOk = false := hfails.mpr ⟨rfl, hroom⟩
  exact ⟨hfailed, hkeeps hfailed⟩

end Console

end ChipEight
