import ChipEight.Display
import ChipEight.Proofs.Display.Drawings
import ChipEight.Proofs.Interpreter.Writes

/-!
# Drawing glyphs

As long as nothing is stored over the font, pointing the index register at a glyph and drawing five
rows draws that glyph: its pixels are flipped, and the flag tells whether one of them was set.
Drawing it once more takes it away, and then the flag tells whether one of them was unset before.
A glyph has pixels, so one of the two drawings sets the flag.
-/

namespace ChipEight

/-! ## Sprites that cover each pixel at most once -/

namespace Bitmap

theorem ext_pixel {b b' : Bitmap}
    (h : ∀ (px : Fin 64) (py : Fin 32), b.pixel px py = b'.pixel px py) : b = b' := by
  apply ext_pixels
  intro c
  obtain ⟨px, py, rfl⟩ := c.exists_eq_wrapping
  exact h px py

section Short

variable (b : Bitmap) {sprite : List UInt8} (hshort : sprite.length ≤ 32) (x y : Nat)

include hshort

/-- A sprite that is no taller than the display flips the pixels that it covers. -/
theorem pixel_draw_of_short (px : Fin 64) (py : Fin 32) :
    (b.draw sprite x y).2.pixel px py = (b.pixel px py ^^ decide (Covers sprite x y px py)) := by
  have honce := coverage_le_one hshort x y px py
  have hodd : Odd (coverage sprite x y px py) ↔ Covers sprite x y px py := by
    rw [← coverage_pos_iff, Nat.odd_iff]
    omega
  rw [← decide_eq_decide.mpr hodd]
  exact Frame.pixel_draw { bitmap := b } sprite x y px py

theorem hit_draw_of_short :
    (b.draw sprite x y).1 = true ↔
      ∃ (px : Fin 64) (py : Fin 32), Covers sprite x y px py ∧ b.pixel px py = true := by
  apply (Frame.hit_draw_iff { bitmap := b } sprite x y).trans
  apply exists₂_congr
  intro px py
  have honce := coverage_le_one hshort x y px py
  have htwice : ¬ 2 ≤ coverage sprite x y px py := by omega
  rw [← coverage_pos_iff, Nat.succ_le_iff, and_comm, eq_false htwice, and_false, or_false]

/-- A second drawing takes the first one back. -/
theorem draw_draw_of_short : ((b.draw sprite x y).2.draw sprite x y).2 = b := by
  apply ext_pixel
  intro px py
  rw [pixel_draw_of_short _ hshort, pixel_draw_of_short _ hshort, Bool.xor_assoc, Bool.xor_self,
    Bool.xor_false]

theorem hit_draw_draw_of_short :
    ((b.draw sprite x y).2.draw sprite x y).1 = true ↔
      ∃ (px : Fin 64) (py : Fin 32), Covers sprite x y px py ∧ b.pixel px py = false := by
  rw [hit_draw_of_short _ hshort]
  apply exists₂_congr
  intro px py
  apply and_congr_right
  intro hcovers
  rw [pixel_draw_of_short _ hshort, decide_eq_true hcovers, Bool.xor_true, Bool.not_eq_true']

/-- A pixel that the sprite covers is unset by the first drawing or by the second. -/
theorem hit_draw_or_hit_draw_draw (hinked : Inked sprite) :
    (b.draw sprite x y).1 = true ∨ ((b.draw sprite x y).2.draw sprite x y).1 = true := by
  rw [hit_draw_of_short b hshort, hit_draw_draw_of_short b hshort]
  obtain ⟨px, py, hcovers⟩ := hinked.exists_covers x y
  cases hpixel : b.pixel px py with
  | true => exact .inl ⟨px, py, hcovers, hpixel⟩
  | false => exact .inr ⟨px, py, hcovers, hpixel⟩

end Short

end Bitmap

/-- Drawing on the display is drawing on the bitmap that it is for, and says the same. -/
structure Display.DrawsOn {D : Type} [Display D] (picture : D → Bitmap) : Prop where
  hit (d : D) (sprite : List UInt8) (x y : Nat) :
    (draw d sprite x y).1 = ((picture d).draw sprite x y).1
  picture (d : D) (sprite : List UInt8) (x y : Nat) :
    picture (draw d sprite x y).2 = ((picture d).draw sprite x y).2

theorem Frame.drawsOn : Display.DrawsOn Frame.bitmap := ⟨fun _ _ _ _ ↦ rfl, fun _ _ _ _ ↦ rfl⟩

theorem SharedFrame.drawsOn : Display.DrawsOn fun s : SharedFrame ↦ s.frame.bitmap :=
  ⟨fun _ _ _ _ ↦ rfl, fun _ _ _ _ ↦ rfl⟩

theorem Console.drawsOn {W : Type} [Writer W] :
    Display.DrawsOn fun c : Console W ↦ c.frame.bitmap :=
  ⟨fun _ _ _ _ ↦ rfl, fun _ _ _ _ ↦ rfl⟩

theorem Delayed.drawsOn {D : Type} [Display D] {picture : D → Bitmap}
    (h : Display.DrawsOn picture) : Display.DrawsOn fun d : Delayed D ↦ picture d.inner :=
  ⟨fun d ↦ h.hit d.inner, fun d ↦ h.picture d.inner⟩

/-! ## The font in memory -/

theorem Font.glyph_inked (digit : Fin 16) : Bitmap.Inked (Font.glyph digit) := by
  revert digit
  decide

theorem Font.getElem?_bytes (digit : Fin 16) {k : Nat} (hk : k < 5) :
    Font.bytes[5 * digit.val + k]? = (Font.glyph digit)[k]? := by
  have hall : ∀ (digit : Fin 16) (k : Fin 5),
      Font.bytes[5 * digit.val + k.val]? = (Font.glyph digit)[k.val]? := by decide
  exact hall digit ⟨k, hk⟩

namespace Machine

/-- The font is in low memory, as it is when the machine is switched on. -/
def FontIntact (m : Machine) : Prop := ∀ place < 0x50, m.memory[place]? = Font.bytes[place]?

theorem initial_fontIntact : initial.FontIntact := by
  intro place hplace
  have hlength : Font.bytes.length = 0x50 := rfl
  have hinside : Address.fontStart.val ≤ place ∧ place < memorySize := by
    have hstart : Address.fontStart.val = 0 := rfl
    have hsize : memorySize = 0x1000 := rfl
    omega
  have hthere : place < Font.bytes.length := by omega
  calc
    _ = if Address.fontStart.val ≤ place ∧ place < memorySize then
        Font.bytes[place - 0]?.or (Vector.replicate memorySize 0)[place]?
        else (Vector.replicate memorySize 0)[place]? := Block.getElem?_write _ _ _ _
    _ = Font.bytes[place]? := by
      rw [if_pos hinside, Nat.sub_zero, List.getElem?_eq_getElem hthere, Option.some_or]

theorem FontIntact.of_same {m t : Machine} (h : m.FontIntact)
    (hsame : ∀ place < 0x50, t.memory[place]? = m.memory[place]?) : t.FontIntact :=
  fun place hplace ↦ (hsame place hplace).trans (h place hplace)

theorem FontIntact.read_glyph {m : Machine} (h : m.FontIntact) (digit : Fin 16) :
    Block.read m.memory (5 * digit.val) 5 = Font.glyph digit := by
  have hlt := digit.isLt
  have hfits : 5 * digit.val + 5 ≤ 0x1000 := by omega
  have hlength : (Block.read m.memory (5 * digit.val) 5).length = 5 :=
    Block.length_read m.memory hfits
  apply List.ext_getElem?
  intro k
  by_cases hk : k < 5
  · rw [Block.getElem?_read m.memory hfits hk, h _ (by omega), Font.getElem?_bytes digit hk]
  · have hglyph : (Font.glyph digit).length = 5 := Font.length_glyph digit
    rw [List.getElem?_eq_none (by omega), List.getElem?_eq_none (by omega)]

end Machine

theorem toUInt8_eq_ite {b : Bool} {p : Prop} [Decidable p] (h : b = true ↔ p) :
    b.toUInt8 = if p then 1 else 0 := by
  cases b with
  | false => exact (if_neg fun hp ↦ nomatch h.mpr hp).symm
  | true => exact (if_pos (h.mp rfl)).symm

namespace Interpreter

open Machine Bitmap

variable {D K S G : Type}

/-- The index register points at the glyph of a digit, and the glyph is there. -/
structure PointsAt (s : Interpreter D K S G) (digit : Fin 16) : Prop where
  index : s.machine.index.val = 5 * digit.val
  font : s.machine.FontIntact

variable [Display D] [Keyboard K] [Speaker S] [Entropy G]

/-! ## Pointing and drawing -/

/-- At the last entry the instruction cannot move on; anywhere else it succeeds and does. -/
def Continues (s : Interpreter D K S G) (i : Instruction) (now : Nat) : Prop :=
  s.machine.pc.IsEntry → s.machine.pc.val ≠ 0xFFE →
    (s.perform (execute i now)).1 = .ok () ∧
      (s.perform (execute i now)).2.machine.pc.IsEntry ∧
      (s.perform (execute i now)).2.machine.pc.val = s.machine.pc.val + 2

/-- An instruction whose effect succeeds leaves the effect behind, whether or not it can move on. -/
theorem execute_of_effect {s t : Interpreter D K S G} {i : Instruction} {now : Nat}
    (hstays : i.transfersControl = false) (heffect : s.perform (effect i now) = (.ok (), t))
    (hpc : t.machine.pc = s.machine.pc) :
    (∃ pc, (s.perform (execute i now)).2 = t.moved pc) ∧ s.Continues i now := by
  have hexecute : s.perform (execute i now) = t.perform moveOn := by
    rw [perform_execute, heffect, hstays]
    rfl
  unfold Continues
  rw [hexecute, ← hpc]
  refine ⟨t.exists_moveOn_eq_moved, ?_⟩
  intro hentry hlast
  have hmoves : t.perform moveOn = (.ok (), t.moved t.machine.pc.following) :=
    perform_moveOn_moved t hentry hlast
  rw [hmoves]
  exact ⟨rfl, Address.following_isEntry hentry hlast, Address.val_following hentry hlast⟩

theorem execute_glyph_pointsAt {s : Interpreter D K S G} (h : s.machine.FontIntact) (r : Register)
    (now : Nat) :
    let t := (s.perform (execute (.glyph r) now)).2
    t.PointsAt (Register.ofByte (s.machine.reg r)) ∧
      t.machine.registers = s.machine.registers ∧ t.display = s.display ∧
      s.Continues (.glyph r) now := by
  intro t
  have heffect : s.perform (effect (.glyph r) now) =
      (.ok (), { s with machine := s.machine.pointAtGlyph r }) := rfl
  obtain ⟨⟨pc, ht⟩, hcontinues⟩ := execute_of_effect rfl heffect rfl
  have hindex : (0 + 5 * ((s.machine.reg r).toNat % 16)) % 0x1000 =
      5 * ((s.machine.reg r).toNat % 16) := by omega
  change t = _ at ht
  rw [ht]
  exact ⟨⟨hindex, h⟩, rfl, rfl, hcontinues⟩

/-- Drawing where the index register points at a glyph draws the glyph. -/
theorem execute_draw_of_pointsAt {picture : D → Bitmap} (hpicture : Display.DrawsOn picture)
    {s : Interpreter D K S G} {digit : Fin 16} (h : s.PointsAt digit) (x y : Register)
    (now : Nat) :
    let t := (s.perform (execute (.draw x y 5) now)).2
    let drawing := (picture s.display).draw (Font.glyph digit) (s.machine.reg x).toNat
      (s.machine.reg y).toNat
    picture t.display = drawing.2 ∧ t.machine.reg Register.flag = drawing.1.toUInt8 ∧
      (∀ q, q ≠ Register.flag → t.machine.reg q = s.machine.reg q) ∧ t.PointsAt digit ∧
      s.Continues (.draw x y 5) now := by
  intro t drawing
  have hlt := digit.isLt
  have hindex := h.index
  have hfits : s.machine.index.val + 5 ≤ 0x1000 := by omega
  have heffect : s.perform (effect (.draw x y 5) now) = (.ok (), s.drawn x y 5) := by
    rw [perform_effect_draw, perform_drawSprite]
    exact if_pos hfits
  have hsprite : Block.read s.machine.memory s.machine.index 5 = Font.glyph digit := by
    rw [hindex, h.font.read_glyph]
  obtain ⟨⟨pc, ht⟩, hcontinues⟩ := execute_of_effect rfl heffect rfl
  change t = _ at ht
  rw [ht]
  refine ⟨?_, ?_, ?_, ⟨hindex, h.font⟩, hcontinues⟩
  · simp only [moved, drawn, hsprite]
    exact hpicture.picture _ _ _ _
  · simp only [moved, drawn, hsprite, hpicture.hit]
    exact (reg_setReg _ _ _ _).trans (if_pos rfl)
  · intro q hq
    exact (reg_setReg _ _ _ _).trans (if_neg hq)

/-- Through a run in which nothing is stored over the font, and programs are only loaded where they
belong, the font stays as it was. -/
theorem after_fontIntact {s : Interpreter D K S G} (h : s.machine.FontIntact)
    {operations : List (Operation D K)} (hspared : s.SparesBelow 0x50 operations) :
    (s.after operations).machine.FontIntact :=
  h.of_same fun _ hplace ↦ getElem?_memory_after hspared hplace

/-- In any run that spares the font, pointing the index register at a glyph and drawing it twice
first flips its pixels and then restores them, wherever it is drawn.  Either drawing tells of the
pixels that it unsets, and as a glyph has pixels, one of the two does.  This holds whether or not
there is an instruction to move on to; with three more of them all succeed. -/
theorem glyph_drawn_twice {picture : D → Bitmap} (hpicture : Display.DrawsOn picture)
    (o : Options) (display : D) (keyboard : K) (speaker : S) (entropy : G)
    (operations : List (Operation D K))
    (hspared : (ofOptions o display keyboard speaker entropy).SparesBelow 0x50 operations)
    (r x y : Register) (hx : x ≠ Register.flag) (hy : y ≠ Register.flag)
    (now₁ now₂ now₃ : Nat) :
    let s := (ofOptions o display keyboard speaker entropy).after operations
    let pointed := (s.perform (execute (.glyph r) now₁)).2
    let once := (pointed.perform (execute (.draw x y 5) now₂)).2
    let twice := (once.perform (execute (.draw x y 5) now₃)).2
    let glyph := Font.glyph (Register.ofByte (s.machine.reg r))
    let before (px : Fin 64) (py : Fin 32) : Bool := (picture s.display).pixel px py
    let covered (px : Fin 64) (py : Fin 32) : Prop :=
      Covers glyph (s.machine.reg x).toNat (s.machine.reg y).toNat px py
    (∀ (px : Fin 64) (py : Fin 32),
        (picture once.display).pixel px py = (before px py ^^ decide (covered px py))) ∧
      once.machine.index.val = 5 * ((s.machine.reg r).toNat % 16) ∧
      once.machine.reg Register.flag =
        (if ∃ (px : Fin 64) (py : Fin 32), covered px py ∧ before px py = true then 1 else 0) ∧
      picture twice.display = picture s.display ∧
      twice.machine.reg Register.flag =
        (if ∃ (px : Fin 64) (py : Fin 32), covered px py ∧ before px py = false then 1 else 0) ∧
      ¬ (once.machine.reg Register.flag = 0 ∧ twice.machine.reg Register.flag = 0) ∧
      (s.machine.pc.val ≤ 0xFF8 →
        (s.perform (execute (.glyph r) now₁)).1 = .ok () ∧
          (pointed.perform (execute (.draw x y 5) now₂)).1 = .ok () ∧
          (once.perform (execute (.draw x y 5) now₃)).1 = .ok ()) := by
  intro s pointed once twice glyph before covered
  have hfresh : (ofOptions o display keyboard speaker entropy).machine.Placed := initial_placed
  have hnew : (ofOptions o display keyboard speaker entropy).machine.FontIntact :=
    initial_fontIntact
  have hfont : s.machine.FontIntact := after_fontIntact hnew hspared
  have hentry : s.machine.pc.IsEntry := (after_placed hfresh operations).entry
  obtain ⟨hpoints, hregisters, hdisplay, hglyph⟩ := execute_glyph_pointsAt hfont r now₁
  have hreg (q : Register) : pointed.machine.reg q = s.machine.reg q := by
    rw [reg, reg, hregisters]
  obtain ⟨honce, hfirst, hkept, hagain, hdraw⟩ := execute_draw_of_pointsAt hpicture hpoints x y now₂
  rw [hdisplay, hreg, hreg] at honce hfirst
  obtain ⟨htwice, hsecond, -, -, hredraw⟩ := execute_draw_of_pointsAt hpicture hagain x y now₃
  rw [hkept x hx, hkept y hy, hreg, hreg, honce] at htwice hsecond
  have hshort : glyph.length ≤ 32 := by
    rw [Font.length_glyph]
    decide
  have hset := hit_draw_of_short (picture s.display) hshort (s.machine.reg x).toNat
    (s.machine.reg y).toNat
  have hunset := hit_draw_draw_of_short (picture s.display) hshort (s.machine.reg x).toNat
    (s.machine.reg y).toNat
  refine ⟨?_, hagain.index, ?_, ?_, ?_, ?_, ?_⟩
  · intro px py
    rw [honce, pixel_draw_of_short _ hshort]
  · rw [hfirst, toUInt8_eq_ite hset]
  · rw [htwice, draw_draw_of_short _ hshort]
  · rw [hsecond, toUInt8_eq_ite hunset]
  · rintro ⟨hnotSet, hnotUnset⟩
    rw [hfirst] at hnotSet
    rw [hsecond] at hnotUnset
    have hinked : Inked glyph := Font.glyph_inked _
    obtain hhit | hhit := hit_draw_or_hit_draw_draw (picture s.display) hshort
      (s.machine.reg x).toNat (s.machine.reg y).toNat hinked
    · rw [hhit] at hnotSet
      cases hnotSet
    · rw [hhit] at hnotUnset
      cases hnotUnset
  · intro hroom
    have hlast : s.machine.pc.val ≠ 0xFFE := by omega
    obtain ⟨hpointed, hentry₁, hpc₁⟩ := hglyph hentry hlast
    obtain ⟨hdrawn, hentry₂, hpc₂⟩ := hdraw hentry₁ (by omega)
    exact ⟨hpointed, hdrawn, (hredraw hentry₂ (by omega)).1⟩

/-- The digits of `V1` are stored right behind the font. -/
def besideFont : List (Operation Frame KeyScript) :=
  [.setRegister (Register.ofNat 1) 0x2B, .setIndex (Address.wrapping 0x50),
    .execute (.decimal (Register.ofNat 1)) 0]

set_option maxRecDepth 20000 in
/-- The glyph of `B` in the corner of a blank display, and away with it. -/
theorem glyph_drawn_twice_beside_font :
    let s : Interpreter Frame KeyScript Mute StdGen := ofOptions {} {} {} {} ⟨1, 1⟩
    let pointed := ((s.after besideFont).perform (execute (.glyph (Register.ofNat 1)) 0)).2
    let once := (pointed.perform (execute (.draw Register.zero Register.zero 5) 1)).2
    let twice := (once.perform (execute (.draw Register.zero Register.zero 5) 2)).2
    Display.DrawsOn Frame.bitmap ∧ s.SparesBelow 0x50 besideFont ∧
      Register.zero ≠ Register.flag ∧ (s.after besideFont).machine.pc.val ≤ 0xFF8 ∧
      (once.perform (execute (.draw Register.zero Register.zero 5) 2)).1 = .ok () ∧
      once.machine.index.val = 55 ∧ twice.display.bitmap = .blank ∧
      ¬ (once.machine.reg Register.flag = 0 ∧ twice.machine.reg Register.flag = 0) := by
  have hspared : unloaded.SparesBelow 0x50 besideFont := by
    refine ⟨?_, ?_, ?_, trivial⟩
    · rintro place - ⟨i, now, hexecutes, -⟩
      cases hexecutes
    · rintro place - ⟨i, now, hexecutes, -⟩
      cases hexecutes
    · rintro place hplace ⟨i, now, -, hfrom, -⟩
      exact Nat.not_le_of_lt hplace hfrom
  have hplain : Register.zero ≠ Register.flag := by decide
  have hroom : (unloaded.after besideFont).machine.pc.val ≤ 0xFF8 := by decide
  have hdigit : (unloaded.after besideFont).machine.reg (Register.ofNat 1) = 0x2B := by rfl
  have hblank : (unloaded.after besideFont).display.bitmap = .blank := by rfl
  have hindex : 5 * (((unloaded.after besideFont).machine.reg (Register.ofNat 1)).toNat % 16) =
      55 := by rw [hdigit]; rfl
  have hdrawn := glyph_drawn_twice Frame.drawsOn {} {} ({} : KeyScript) ({} : Mute)
    (⟨1, 1⟩ : StdGen) besideFont hspared (Register.ofNat 1) Register.zero Register.zero hplain
    hplain 0 1 2
  obtain ⟨-, hpoints, -, hback, -, hflags, hsucceeds⟩ := hdrawn
  exact ⟨Frame.drawsOn, hspared, hplain, hroom, (hsucceeds hroom).2.2, hpoints.trans hindex,
    hback.trans hblank, hflags⟩

end Interpreter

end ChipEight
