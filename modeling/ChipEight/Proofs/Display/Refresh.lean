import ChipEight.Proofs.Display.Strokes

/-!
# Frames and those who paint them

A frame may have many holders, who draw on it and have it painted, in any order and each for itself.
No change is lost on the way to whoever looks at what was painted: a frame that is not stale shows
what the last painting that succeeded has shown, and a painting that fails will be made up for.
-/

namespace ChipEight

/-- A display that keeps its picture in a frame, at which its holders can get. -/
class FrameHolder (D : Type) [Display D] where
  new : D
  frame : D → Frame
  setFrame : D → Frame → D
  frame_new : frame new = {}
  frame_setFrame (d : D) (f : Frame) : frame (setFrame d f) = f
  frame_stroke (d : D) (s : Stroke) : frame (Display.stroke d s) = Display.stroke (frame d) s

instance : FrameHolder Frame where
  new := {}
  frame f := f
  setFrame _ f := f
  frame_new := rfl
  frame_setFrame _ _ := rfl
  frame_stroke _ _ := rfl

instance : FrameHolder SharedFrame where
  new := {}
  frame s := s.frame
  setFrame _ frame := { frame }
  frame_new := rfl
  frame_setFrame _ _ := rfl
  frame_stroke s stroke := congrArg SharedFrame.frame (s.stroke_eq stroke)

/-- A run of a paint function: the bitmap that it was given, and whether it succeeded. -/
structure Painting where
  bitmap : Bitmap
  succeeded : Bool

/-- What a holder does.  The paint function of a refresh acts on a surface and may fail. -/
inductive Act (S : Type) where
  | stroke (s : Stroke)
  | force
  | refresh (paint : Bitmap → S → Except Fault Unit × S)

namespace Act

variable {H S : Type}

def stroke? : Act S → Option Stroke
  | stroke s => some s
  | _ => none

def isRefresh : Act S → Bool
  | refresh _ => true
  | _ => false

/-- The strokes among the acts, whoever has made them. -/
def strokes (acts : List (H × Act S)) : List Stroke := acts.filterMap (·.2.stroke?)

theorem strokes_cons (act : H × Act S) (rest : List (H × Act S)) :
    strokes (act :: rest) = act.2.stroke?.toList ++ strokes rest := by
  unfold strokes
  rw [List.filterMap_cons]
  cases act.2.stroke? <;> rfl

end Act

/-- A display with the surface that it is painted on, and a record of its paintings. -/
structure Studio (D S : Type) where
  display : D
  surface : S
  paintings : List Painting := []

namespace Studio

open FrameHolder

/-- Paint, and put the painting on record. -/
def recording {S : Type} (paint : Bitmap → S → Except Fault Unit × S) (b : Bitmap)
    (state : S × List Painting) : Except Fault Unit × S × List Painting :=
  let (result, surface) := paint b state.1
  (result, surface, state.2 ++ [{ bitmap := b, succeeded := result.isOk }])

variable {D H S : Type} [Display D] [FrameHolder D]

def frame (s : Studio D S) : Frame := FrameHolder.frame s.display

def opened (surface : S) : Studio D S where
  display := new
  surface := surface

def act (s : Studio D S) : Act S → Studio D S
  | .stroke stroke => { s with display := Display.stroke s.display stroke }
  | .force => { s with display := setFrame s.display s.frame.force }
  | .refresh paint =>
    let (_, frame, surface, paintings) :=
      s.frame.refresh (recording paint) (s.surface, s.paintings)
    { display := setFrame s.display frame, surface, paintings }

/-- The studio after acts of its holders, each of which has the display to itself while it acts. -/
def after (s : Studio D S) (acts : List (H × Act S)) : Studio D S :=
  acts.foldl (fun s act ↦ s.act act.2) s

/-! ## One act -/

theorem frame_act_stroke (s : Studio D S) (stroke : Stroke) :
    (s.act (.stroke stroke)).frame =
      { bitmap := stroke.apply s.frame.bitmap, stale := s.frame.stale || stroke.marks } :=
  (frame_stroke s.display stroke).trans (Frame.stroke_eq _ _)

theorem frame_act_force (s : Studio D S) :
    (s.act .force).frame = { s.frame with stale := true } := frame_setFrame _ _

/-- A refresh of a stale frame runs the paint function, and one of another frame does nothing. -/
theorem act_refresh (s : Studio D S) (paint : Bitmap → S → Except Fault Unit × S) :
    let result := paint s.frame.bitmap s.surface
    (s.act (.refresh paint)).frame = { s.frame with stale := s.frame.stale && !result.1.isOk } ∧
      (s.act (.refresh paint)).paintings = s.paintings ++
        if s.frame.stale then [{ bitmap := s.frame.bitmap, succeeded := result.1.isOk }]
        else [] := by
  intro result
  have hresult : recording paint s.frame.bitmap (s.surface, s.paintings) =
      (result.1, result.2,
        s.paintings ++ [{ bitmap := s.frame.bitmap, succeeded := result.1.isOk }]) := rfl
  have hframe (f : Frame) (surface : S) (paintings : List Painting) :
      frame { display := setFrame s.display f, surface, paintings } = f := frame_setFrame _ _
  simp only [act, Frame.refresh_eq, hresult]
  cases hstale : s.frame.stale with
  | true => exact ⟨hframe _ _ _, rfl⟩
  | false =>
    refine ⟨(hframe _ _ _).trans ?_, (List.append_nil _).symm⟩
    exact congrArg (Frame.mk _) hstale

theorem frame_refresh_failed {s : Studio D S} {paint : Bitmap → S → Except Fault Unit × S}
    (h : (paint s.frame.bitmap s.surface).1.isOk = false) :
    (s.act (.refresh paint)).frame = s.frame := by
  rw [(s.act_refresh paint).1, h, Bool.not_false, Bool.and_true]

/-- The bitmap is that of the last painting that has succeeded, unless the frame is stale. -/
def Shown (s : Studio D S) : Prop :=
  s.frame.stale = false → ∃ last, (s.paintings.filter (·.succeeded)).getLast? = some last ∧
    s.frame.bitmap = last.bitmap

theorem Shown.act {s : Studio D S} (h : s.Shown) (act : Act S) : (s.act act).Shown := by
  intro hfresh
  cases act with
  | stroke stroke =>
    rw [frame_act_stroke] at hfresh ⊢
    obtain ⟨hbefore, hblank⟩ := Bool.or_eq_false_iff.mp hfresh
    dsimp only
    rw [Stroke.apply_of_not_marks hblank]
    exact h hbefore
  | force =>
    rw [frame_act_force] at hfresh
    cases hfresh
  | refresh paint =>
    obtain ⟨hframe, hpaintings⟩ := s.act_refresh paint
    rw [hframe] at hfresh ⊢
    rw [hpaintings]
    cases hstale : s.frame.stale with
    | true =>
      have hok : (paint s.frame.bitmap s.surface).1.isOk = true := by simpa [hstale] using hfresh
      rw [if_pos rfl, hok, List.filter_append]
      exact ⟨_, List.getLast?_concat, rfl⟩
    | false =>
      rw [if_neg Bool.false_ne_true, List.append_nil]
      exact h hstale

theorem bitmap_act (s : Studio D S) (act : Act S) :
    (s.act act).frame.bitmap = act.stroke?.toList.foldl Stroke.apply s.frame.bitmap := by
  cases act with
  | stroke stroke => rw [frame_act_stroke]; rfl
  | force => rw [frame_act_force]; rfl
  | refresh paint => rw [(s.act_refresh paint).1]; rfl

/-- Only a refresh takes the mark away. -/
theorem stale_act {s : Studio D S} (h : s.frame.stale = true) {act : Act S}
    (hact : act.isRefresh = false) : (s.act act).frame.stale = true := by
  cases act with
  | stroke stroke => rw [frame_act_stroke, h]; rfl
  | force => rw [frame_act_force]
  | refresh paint => cases hact

/-! ## Any number of acts -/

theorem bitmap_after (s : Studio D S) (acts : List (H × Act S)) :
    (s.after acts).frame.bitmap = (Act.strokes acts).foldl Stroke.apply s.frame.bitmap := by
  induction acts generalizing s with
  | nil => rfl
  | cons act rest ih =>
    calc ((s.act act.2).after rest).frame.bitmap
        = (Act.strokes rest).foldl Stroke.apply (s.act act.2).frame.bitmap := ih _
      _ = (Act.strokes rest).foldl Stroke.apply
            (act.2.stroke?.toList.foldl Stroke.apply s.frame.bitmap) := by rw [bitmap_act]
      _ = (Act.strokes (act :: rest)).foldl Stroke.apply s.frame.bitmap := by
          rw [← List.foldl_append, Act.strokes_cons]

theorem shown_after {s : Studio D S} (h : s.Shown) (acts : List (H × Act S)) :
    (s.after acts).Shown := by
  induction acts generalizing s with
  | nil => exact h
  | cons act rest ih => exact ih (h.act act.2)

theorem stale_after {s : Studio D S} (h : s.frame.stale = true) {acts : List (H × Act S)}
    (hacts : ∀ act ∈ acts, act.2.isRefresh = false) : (s.after acts).frame.stale = true := by
  induction acts generalizing s with
  | nil => exact h
  | cons act rest ih =>
    apply ih (stale_act h (hacts act List.mem_cons_self))
    intro later hlater
    exact hacts later (List.mem_cons_of_mem _ hlater)

/-- Whatever the holders of a new frame do, it bears all their strokes, and shows them if it is not
stale; a refresh paints it exactly if it is.  A refresh that fails changes nothing, so that the next
one paints again, with all the strokes made in between. -/
theorem no_frame_lost (surface : S) (acts : List (H × Act S)) :
    let s : Studio D S := (opened surface).after acts
    s.frame.bitmap = Stroke.picture (Act.strokes acts) ∧ s.Shown ∧
      ∀ paint : Bitmap → S → Except Fault Unit × S,
        let succeeded := (paint s.frame.bitmap s.surface).1.isOk
        let t := s.act (.refresh paint)
        t.paintings = s.paintings ++
            (if s.frame.stale then [{ bitmap := s.frame.bitmap, succeeded }] else []) ∧
          (s.frame.stale = true → succeeded = false →
            t.frame = s.frame ∧
              ∀ more : List (H × Act S), (∀ act ∈ more, act.2.isRefresh = false) →
                ∀ again : Bitmap → S → Except Fault Unit × S,
                  let bitmap := (Act.strokes more).foldl Stroke.apply s.frame.bitmap
                  let u := t.after more
                  (u.act (.refresh again)).paintings = u.paintings ++
                    [{ bitmap, succeeded := (again bitmap u.surface).1.isOk }]) := by
  intro s
  have hopened : (opened surface : Studio D S).frame = {} := frame_new
  have hshown : (opened surface : Studio D S).Shown := by
    intro hfresh
    rw [hopened] at hfresh
    cases hfresh
  have hbitmap : s.frame.bitmap = Stroke.picture (Act.strokes acts) := by
    rw [bitmap_after, hopened]
    rfl
  refine ⟨hbitmap, shown_after hshown acts, fun paint ↦ ?_⟩
  intro succeeded t
  refine ⟨(s.act_refresh paint).2, fun hstale hfailed ↦ ?_⟩
  have hsame : t.frame = s.frame := frame_refresh_failed hfailed
  refine ⟨hsame, fun more hmore again ↦ ?_⟩
  intro bitmap u
  have hu : u.frame.bitmap = bitmap := by rw [bitmap_after, hsame]
  have hstill : u.frame.stale = true := stale_after (hsame ▸ hstale) hmore
  rw [(u.act_refresh again).2, if_pos hstill, hu]

/-- A failed painting, in the middle of what two holders of a shared frame do, is made up for. -/
theorem no_frame_lost_blackout :
    let s : Studio SharedFrame Unit :=
      (opened ()).after [(true, .stroke (.draw [0xC0] 1 1)), (false, .force)]
    let t := s.act (.refresh fun _ _ ↦ (.error (.device "no light"), ()))
    let u := t.after [(true, .stroke .clear)]
    s.frame.stale = true ∧ t.frame = s.frame ∧
      (u.act (.refresh fun _ _ ↦ (.ok (), ()))).paintings =
        u.paintings ++ [{ bitmap := .blank, succeeded := true }] := by
  intro s t u
  have hstale : s.frame.stale = true := rfl
  have hlost := (no_frame_lost (D := SharedFrame) ()
    [(true, .stroke (.draw [0xC0] 1 1)), (false, .force)]).2.2
    fun _ _ ↦ (.error (.device "no light"), ())
  obtain ⟨hsame, hnext⟩ := hlost.2 hstale rfl
  refine ⟨hstale, hsame, ?_⟩
  apply hnext [(true, .stroke .clear)] _ fun _ _ ↦ (.ok (), ())
  intro act hact
  cases List.mem_singleton.mp hact
  rfl

end Studio

end ChipEight
