import ChipEight.Basic

namespace ChipEight

/-!
# The call stack

Sixteen slots for return addresses.  Popping leaves the slot as it is, so a slot
above the live ones may still hold an old address.

* `CallStack.push?`, `CallStack.pop?` — `none` on a full or an empty stack;
* `CallStack.live` — the addresses that a return can still reach, the oldest
  first: the view through which the stack is described.
-/

/-- The call stack: its slots, and how many of them are in use. -/
structure CallStack where
  slots : Vector Word 16
  depth : Fin 17
deriving DecidableEq

namespace CallStack

/-- The number of slots. -/
def capacity : Nat := 16

/-- No return address, and all slots zero. -/
def empty : CallStack := ⟨Vector.replicate 16 0, 0⟩

/-- The return addresses, the oldest first. -/
def live (s : CallStack) : List Word := s.slots.toList.take s.depth

/-- Whether there is no return address. -/
def isEmpty (s : CallStack) : Bool := s.depth.val == 0

/-- Whether every slot is in use. -/
def isFull (s : CallStack) : Bool := s.depth.val == capacity

/-- Add a return address, unless the stack is full. -/
def push? (s : CallStack) (a : Word) : Option CallStack :=
  if h : s.depth.val < 16 then
    some ⟨s.slots.set s.depth.val a h, ⟨s.depth.val + 1, by omega⟩⟩
  else none

/-- Take the youngest return address, unless the stack is empty. -/
def pop? (s : CallStack) : Option (Word × CallStack) :=
  if h : 0 < s.depth.val then
    have top : s.depth.val - 1 < 16 := by omega
    some (s.slots[s.depth.val - 1], ⟨s.slots, ⟨s.depth.val - 1, by omega⟩⟩)
  else none

/-- A stack with the given return addresses, the oldest first.  Only the first
    sixteen find a slot. -/
def ofList (addresses : List Word) : CallStack :=
  addresses.foldl (fun s a => (s.push? a).getD s) empty

/-- There are as many return addresses as slots in use. -/
@[simp] theorem length_live (s : CallStack) : s.live.length = s.depth.val := by
  have := s.depth.isLt
  simp [live]
  omega

/-- Pushing puts the address last. -/
theorem live_push? {s t : CallStack} {a : Word} (h : s.push? a = some t) :
    t.live = s.live ++ [a] := by
  unfold push? at h
  split at h
  · next hd =>
    obtain rfl := Option.some.inj h
    simp only [live, Vector.toList_set]
    rw [List.take_add_one, List.getElem?_set_self (by simpa using hd),
      List.take_set_of_le (Nat.le_refl _)]
    rfl
  · cases h

/-- Popping takes the last address. -/
theorem live_pop? {s t : CallStack} {a : Word} (h : s.pop? = some (a, t)) :
    s.live = t.live ++ [a] := by
  unfold pop? at h
  split at h
  · next hd =>
    obtain ⟨rfl, rfl⟩ := Prod.mk.inj (Option.some.inj h)
    simp only [live]
    conv => lhs; rw [show s.depth.val = s.depth.val - 1 + 1 by omega]
    rw [List.take_add_one]
    have top : s.depth.val - 1 < s.slots.toList.length := by
      have := s.depth.isLt
      simp
      omega
    rw [List.getElem?_eq_getElem top]
    rfl
  · cases h

end CallStack

end ChipEight
