import Mathlib.Data.List.Induction
import ChipEight.Keyboard

/-!
# Held keys

Key states are the set of the keys of which the last thing done was a press.  It makes no difference
whether one thread does all of it or many threads press and release the keys of one keypad in turn:
the steps of a handshake that do not name a key leave the keys alone.
-/

namespace ChipEight

/-- What can be done with a key. -/
inductive KeyAct where
  | press (k : Key)
  | release (k : Key)
  deriving DecidableEq

namespace KeyAct

def key : KeyAct → Key
  | press k | release k => k

def presses : KeyAct → Bool
  | press _ => true
  | release _ => false

/-- The last of the acts that name the key. -/
def last? (acts : List KeyAct) (k : Key) : Option KeyAct :=
  (acts.filter fun a ↦ a.key = k).getLast?

theorem last?_concat (acts : List KeyAct) (a : KeyAct) (k : Key) :
    last? (acts ++ [a]) k = if a.key = k then some a else last? acts k := by
  unfold last?
  by_cases hkey : a.key = k
  · have hnamed : [a].filter (fun a ↦ a.key = k) = [a] := by simp [hkey]
    rw [if_pos hkey, List.filter_append, hnamed, List.getLast?_concat]
  · have hother : [a].filter (fun a ↦ a.key = k) = [] := by simp [hkey]
    rw [if_neg hkey, List.filter_append, hother, List.append_nil]

end KeyAct

namespace Keys

open KeyAct

variable {s : Keys} {k : Key}

/-! ## The lowest key -/

theorem lowest?_eq_none_iff : s.lowest? = none ↔ ∀ k, s.isHeld k = false := by
  simp only [lowest?, List.find?_eq_none, List.mem_finRange, true_implies, Bool.not_eq_true]

theorem lowest?_eq_none_iff_eq_released : s.lowest? = none ↔ s = released := by
  rw [lowest?_eq_none_iff]
  constructor
  · intro h
    apply ext_isHeld
    intro k
    rw [h k, isHeld_released]
  · rintro rfl k
    exact isHeld_released k

theorem lowest?_eq_some_iff :
    s.lowest? = some k ↔ s.isHeld k ∧ ∀ q < k, s.isHeld q = false := by
  rw [lowest?, List.find?_eq_some_iff_getElem]
  simp only [List.getElem_finRange, List.length_finRange, Bool.not_eq_true']
  constructor
  · rintro ⟨hheld, i, hi, rfl, hlower⟩
    exact ⟨hheld, fun q hq ↦ hlower q.val hq⟩
  · rintro ⟨hheld, hlower⟩
    exact ⟨hheld, k.val, k.isLt, rfl, fun j hj ↦ hlower ⟨j, Nat.lt_trans hj k.isLt⟩ hj⟩

/-! ## Sequences of acts -/

def act (s : Keys) : KeyAct → Keys
  | .press k => s.press k
  | .release k => s.release k

theorem isHeld_act (s : Keys) (a : KeyAct) (k : Key) :
    (s.act a).isHeld k = if a.key = k then a.presses else s.isHeld k := by
  cases a with
  | press q => simp only [act, key, presses, isHeld_press, eq_comm]
  | release q => simp only [act, key, presses, isHeld_release, eq_comm]

/-- The key states after acts that begin with all keys released. -/
def after (acts : List KeyAct) : Keys := acts.foldl act released

theorem after_concat (acts : List KeyAct) (a : KeyAct) : after (acts ++ [a]) = (after acts).act a :=
  List.foldl_append

theorem isHeld_after_iff (acts : List KeyAct) (k : Key) :
    (after acts).isHeld k ↔ last? acts k = some (.press k) := by
  induction acts using List.reverseRecOn with
  | nil => simp [after, last?, isHeld_released]
  | append_singleton acts a ih =>
    rw [after_concat, isHeld_act, last?_concat]
    by_cases hkey : a.key = k
    · rw [if_pos hkey, if_pos hkey]
      subst hkey
      cases a <;> simp [presses, key]
    · rw [if_neg hkey, if_neg hkey]
      exact ih

/-- Of each key the last act alone counts. -/
theorem after_eq_of_last? {acts others : List KeyAct} (h : ∀ k, last? acts k = last? others k) :
    after acts = after others := by
  apply ext_isHeld
  intro k
  rw [Bool.eq_iff_iff, isHeld_after_iff, isHeld_after_iff, h k]

end Keys

/-! ## Acts on a keypad -/

def Keypad.act (p : Keypad) : KeyAct → Keypad
  | .press k => p.press k
  | .release k => p.release k

theorem Keypad.keys_foldl_act (p : Keypad) (acts : List KeyAct) :
    (acts.foldl act p).keys = acts.foldl Keys.act p.keys := by
  induction acts generalizing p with
  | nil => rfl
  | cons a acts ih =>
    cases a with
    | press k => exact ih (p.press k)
    | release k => exact ih (p.release k)

namespace Handshake

/-- What a step does with a key, if it names one. -/
def Move.act? : Move → Option KeyAct
  | press _ k => some (.press k)
  | release _ k => some (.release k)
  | announce _ | await | test | stir => none

/-- Make the moves in order, all of which have to be possible when their turn comes. -/
def run? (h : Handshake) (moves : List Move) : Option Handshake := moves.foldlM step? h

theorem run?_cons (h : Handshake) (move : Move) (moves : List Move) :
    h.run? (move :: moves) = (h.step? move).bind (·.run? moves) := List.foldlM_cons

/-- All that a step can do. -/
theorem of_step?_eq_some {h t : Handshake} {move : Move} (hstep : h.step? move = some t) :
    match move with
    | .press thread k => thread ∉ h.announcing ∧
        t = { h with keys := h.keys.press k, announcing := thread :: h.announcing }
    | .announce thread => thread ∈ h.announcing ∧
        t = { h with announcing := h.announcing.erase thread, waiter := notify h.waiter }
    | .release thread k => thread ∉ h.announcing ∧ t = { h with keys := h.keys.release k }
    | .await => (h.waiter = .away ∨ ∃ k, h.waiter = .returned k) ∧
        t = { h with waiter := .testing }
    | .test => h.waiter = .testing ∧
        t = { h with waiter := h.keys.lowest?.elim .asleep .returned }
    | .stir => h.waiter = .asleep ∧ t = { h with waiter := .testing } := by
  cases move with
  | press thread k | announce thread | release thread k =>
    dsimp only [step?] at hstep
    split at hstep <;> cases hstep
    exact ⟨‹_›, rfl⟩
  | await =>
    dsimp only [step?] at hstep
    split at hstep <;> cases hstep
    · exact ⟨.inl ‹_›, rfl⟩
    · exact ⟨.inr ⟨_, ‹_›⟩, rfl⟩
  | test =>
    dsimp only [step?] at hstep
    split at hstep
    · cases hlowest : h.keys.lowest? <;> rw [hlowest] at hstep <;> cases hstep <;>
        exact ⟨‹_›, rfl⟩
    · cases hstep
  | stir =>
    dsimp only [step?] at hstep
    split at hstep <;> cases hstep
    exact ⟨‹_›, rfl⟩

theorem keys_of_step? {h t : Handshake} {move : Move} (hstep : h.step? move = some t) :
    t.keys = move.act?.elim h.keys h.keys.act := by
  have hmove := of_step?_eq_some hstep
  cases move <;> rw [hmove.2] <;> rfl

/-- The threads do with the keys what their steps do, in the order of the steps. -/
theorem keys_of_run? {h t : Handshake} {moves : List Move} (hrun : h.run? moves = some t) :
    t.keys = (moves.filterMap Move.act?).foldl Keys.act h.keys := by
  induction moves generalizing h with
  | nil =>
    cases hrun
    rfl
  | cons move moves ih =>
    rw [run?_cons, Option.bind_eq_some_iff] at hrun
    obtain ⟨next, hstep, hrest⟩ := hrun
    rw [ih hrest, keys_of_step? hstep]
    cases hact : move.act? with
    | none => rw [List.filterMap_cons_none hact, Option.elim_none]
    | some a => rw [List.filterMap_cons_some hact, Option.elim_some, List.foldl_cons]

end Handshake

namespace Keys

open KeyAct Handshake

/-- After any acts exactly those keys are held of which the last act was a press.  There is no
lowest key just if nothing is held, and otherwise it is held and no lower one is.  Acts with the
same last act of every key leave the same key states, and so does a keypad on which the acts are
done, by one thread or by many. -/
theorem after_refines_set (acts others : List KeyAct) (arrivals : Nat → Key) (moves : List Move)
    (h : Handshake) :
    (∀ k, (after acts).isHeld k ↔ last? acts k = some (.press k)) ∧
    ((after acts).lowest? = none ↔ ∀ k, (after acts).isHeld k = false) ∧
    ((after acts).lowest? = none ↔ after acts = released) ∧
    (∀ k, (after acts).lowest? = some k ↔
      (after acts).isHeld k ∧ ∀ q < k, (after acts).isHeld q = false) ∧
    ((∀ k, last? acts k = last? others k) → after acts = after others) ∧
    (acts.foldl Keypad.act { arrivals }).keys = after acts ∧
    (run? {} moves = some h → moves.filterMap Move.act? = acts → h.keys = after acts) := by
  refine ⟨isHeld_after_iff acts, lowest?_eq_none_iff, lowest?_eq_none_iff_eq_released,
    fun k ↦ lowest?_eq_some_iff, after_eq_of_last?, Keypad.keys_foldl_act _ acts, ?_⟩
  rintro hrun rfl
  exact keys_of_run? hrun

/-- A key that is released before its press is announced, and another that stays held. -/
theorem after_refines_set_interleaved :
    let k := Key.ofByte 3
    let q := Key.ofByte 9
    let moves : List Move := [.press 0 q, .press 1 k, .release 2 k, .announce 1, .announce 0]
    (∀ p, last? [.press q, .press k, .release k] p = last? [.release k, .press q] p) ∧
      after [.press q, .press k, .release k] = after [.release k, .press q] ∧
      run? {} moves = some { keys := released.press q } ∧
      moves.filterMap Move.act? = [.press q, .press k, .release k] ∧
      released.press q = after [.press q, .press k, .release k] := by
  intro k q moves
  have hlast : ∀ p, last? [.press q, .press k, .release k] p = last? [.release k, .press q] p := by
    decide
  have hrun : run? {} moves = some { keys := released.press q } := by decide
  obtain ⟨-, -, -, -, hsame, -, hthreads⟩ :=
    after_refines_set [.press q, .press k, .release k] [.release k, .press q] (fun _ ↦ k) moves
      { keys := released.press q }
  exact ⟨hlast, hsame hlast, hrun, rfl, hthreads hrun rfl⟩

end Keys

end ChipEight
