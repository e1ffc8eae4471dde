import ChipEight.Machine

/-!
# The call stack in slots

A machine keeps its return addresses in a list.  Here they are kept in sixteen slots, with the
number of those that are in use.  A slot is named by its number, and an operation that names a slot
which is not there has no result.  As long as the slots in use hold the list, pushing and popping
have a result, and it is that of the machine.
-/

namespace ChipEight

structure Slots where
  slots : Vector Address 16
  depth : Nat

namespace Slots

/-- The return addresses in the slots in use, the latest first. -/
def stack (s : Slots) : List Address := (s.slots.toList.take s.depth).reverse

/-- All slots in use are there, and they hold the given stack. -/
structure Holds (s : Slots) (stack : List Address) : Prop where
  depth_le : s.depth ≤ 16
  stack_eq : s.stack = stack

def push? (s : Slots) (back : Address) : Option (Except Fault Slots) :=
  if s.depth = stackRoom then some (.error (.stackOverflow s.depth))
  else if h : s.depth < 16 then
    some (.ok { slots := s.slots.set s.depth back, depth := s.depth + 1 })
  else none

def pop? (s : Slots) : Option (Except Fault (Address × Slots)) :=
  if s.depth = 0 then some (.error .stackUnderflow)
  else (s.slots[s.depth - 1]?).map fun back ↦ .ok (back, { s with depth := s.depth - 1 })

/-- Both fail with the same fault, or the slots hold the stack of the machine. -/
def Follows : Except Fault Slots → Except Fault Machine → Prop
  | .ok s, .ok m => s.Holds m.stack
  | .error f, .error g => f = g
  | _, _ => False

/-- The same for operations that also deliver an address, which has to be the same. -/
def FollowsWith : Except Fault (Address × Slots) → Except Fault (Address × Machine) → Prop
  | .ok (a, s), .ok (b, m) => a = b ∧ s.Holds m.stack
  | .error f, .error g => f = g
  | _, _ => False

theorem Holds.length_eq {s : Slots} {stack : List Address} (h : s.Holds stack) :
    stack.length = s.depth := by
  have hle := h.depth_le
  rw [← h.stack_eq, Slots.stack, List.length_reverse, List.length_take, Vector.length_toList]
  omega

/-- A stack that is not too deep fits. -/
theorem exists_holds {stack : List Address} (h : stack.length ≤ 16) :
    ∃ s : Slots, s.Holds stack := by
  let places := stack.reverse ++ List.replicate (16 - stack.length) (Address.wrapping 0)
  have hlength : places.toArray.size = 16 := by
    simp only [places, List.size_toArray, List.length_append, List.length_reverse,
      List.length_replicate]
    omega
  refine ⟨⟨⟨places.toArray, hlength⟩, stack.length⟩, h, ?_⟩
  have htake : places.take stack.length = stack.reverse := by
    rw [List.take_append_of_le_length (by simp), List.take_of_length_le (by simp)]
  simp only [Slots.stack, Vector.toList, htake, List.reverse_reverse]

/-- The slot after those in use is written, and comes into use. -/
theorem stack_set (s : Slots) (back : Address) (h : s.depth < 16) :
    stack { slots := s.slots.set s.depth back, depth := s.depth + 1 } = back :: s.stack := by
  have hlt : s.depth < s.slots.toList.length := by rwa [Vector.length_toList]
  have htake : (s.slots.toList.take s.depth).length = s.depth :=
    List.length_take_of_le (Nat.le_of_lt hlt)
  simp only [stack, Vector.toList_set, List.set_eq_take_append_cons_drop, if_pos hlt]
  rw [List.take_append, htake, List.take_of_length_le (by omega), Nat.add_sub_cancel_left]
  simp

/-- The last slot in use has the latest return address. -/
theorem stack_eq_cons {s : Slots} {d : Nat} (hdepth : s.depth = d + 1) (h : d < 16) :
    s.stack = s.slots[d] :: stack { s with depth := d } := by
  simp only [stack, hdepth, List.take_add_one, List.reverse_append]
  simp [h]

/-- There are slots that hold one more address, and only the first free one is another. -/
theorem Holds.exists_cons {s : Slots} {stack : List Address} (h : s.Holds stack)
    (hroom : stack.length < 16) (back : Address) :
    ∃ t : Slots, t.Holds (back :: stack) ∧
      ∀ (k : Nat) (hk : k < 16), k ≠ stack.length → t.slots[k] = s.slots[k] := by
  have hlt : s.depth < 16 := h.length_eq ▸ hroom
  refine ⟨{ slots := s.slots.set s.depth back, depth := s.depth + 1 }, ⟨hlt, ?_⟩, ?_⟩
  · rw [stack_set s back hlt, h.stack_eq]
  · intro k hk hne
    have hfree : s.depth ≠ k := by
      rw [← h.length_eq]
      exact hne.symm
    exact Vector.getElem_set_ne hlt hk hfree

/-- The same slots hold one address less. -/
theorem Holds.tail {s : Slots} {stack : List Address} (h : s.Holds stack) :
    Holds { s with depth := s.depth - 1 } stack.tail where
  depth_le := Nat.le_trans (Nat.sub_le _ _) h.depth_le
  stack_eq := by
    have hle := h.depth_le
    cases hdepth : s.depth with
    | zero =>
      have hempty : stack = [] := List.length_eq_zero_iff.mp (h.length_eq.trans hdepth)
      rw [hempty]
      rfl
    | succ d =>
      have hlt : d < 16 := by omega
      rw [← h.stack_eq, stack_eq_cons hdepth hlt, List.tail_cons, Nat.add_sub_cancel]

theorem push?_follows {s : Slots} {m : Machine} (h : s.Holds m.stack) (back : Address) :
    ∃ result, s.push? back = some result ∧ Follows result (m.push back) := by
  have hle := h.depth_le
  have hlength := h.length_eq
  unfold push? Machine.push
  by_cases hfull : s.depth = stackRoom
  · rw [if_pos hfull, if_neg (by omega), hlength]
    exact ⟨_, rfl, rfl⟩
  · have hlt : s.depth < 16 := Nat.lt_of_le_of_ne hle hfull
    rw [if_neg hfull, dif_pos hlt, if_pos (by rw [hlength]; exact hlt)]
    exact ⟨_, rfl, hlt, (stack_set s back hlt).trans (by rw [h.stack_eq])⟩

theorem pop?_follows {s : Slots} {m : Machine} (h : s.Holds m.stack) :
    ∃ result, s.pop? = some result ∧ FollowsWith result m.pop := by
  have hle := h.depth_le
  have hlength := h.length_eq
  unfold pop? Machine.pop
  cases hd : s.depth with
  | zero =>
    have hempty : m.stack = [] := List.length_eq_zero_iff.mp (hlength.trans hd)
    simp only [hempty]
    exact ⟨_, rfl, rfl⟩
  | succ d =>
    have hlt : d < 16 := by omega
    have hstack : m.stack = s.slots[d] :: stack { s with depth := d } := by
      rw [← h.stack_eq, stack_eq_cons hd hlt]
    rw [if_neg (Nat.succ_ne_zero d), Nat.add_sub_cancel, Vector.getElem?_eq_getElem hlt, hstack]
    exact ⟨_, rfl, rfl, Nat.le_of_lt hlt, rfl⟩

end Slots

end ChipEight
