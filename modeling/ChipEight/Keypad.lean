import ChipEight.Bank

namespace ChipEight

/-!
# The keypad

Sixteen keys, each up or down.

* `Keypad.isDown`, `Keypad.put` — look at a key, move a key;
* `Keypad.pressed` — the keys that are down, in ascending order;
* `Keypad.lowest?` — the first of them, which is what a waiting program gets to see
  when several are.
-/

/-- The keypad: which of its sixteen keys are down. -/
structure Keypad where
  keys : Bank Bool
deriving DecidableEq

namespace Keypad

/-- No key is down. -/
def released : Keypad := ⟨Bank.fill false⟩

/-- Whether a key is down. -/
def isDown (k : Keypad) (key : Nibble) : Bool := k.keys.entry key

/-- Press or release a key. -/
def put (k : Keypad) (key : Nibble) (down : Bool) : Keypad := ⟨k.keys.put key down⟩

/-- The keys that are down, in ascending order. -/
def pressed (k : Keypad) : List Nibble := Nibble.all.filter k.isDown

/-- The first key that is down. -/
def lowest? (k : Keypad) : Option Nibble := Nibble.all.find? k.isDown

/-- The keypad with exactly the given keys down. -/
def ofList (keys : List Nibble) : Keypad := keys.foldl (·.put · true) released

/-- A moved key is as it was put, the others are as they were. -/
theorem isDown_put (k : Keypad) (key other : Nibble) (down : Bool) :
    (k.put key down).isDown other = if other = key then down else k.isDown other :=
  Bank.entry_put k.keys key other down

/-- There is no lowest key that is down if all keys are up. -/
theorem lowest?_eq_none_iff (k : Keypad) : k.lowest? = none ↔ ∀ key, k.isDown key = false := by
  rw [lowest?, List.find?_eq_none]
  refine ⟨fun up key => Bool.eq_false_iff.mpr (up key (Nibble.mem_all key)), fun up key _ => ?_⟩
  rw [up key]
  exact Bool.false_ne_true

/-- The lowest key that is down is down, and those below it are up. -/
theorem lowest?_eq_some_iff (k : Keypad) (key : Nibble) :
    k.lowest? = some key ↔ k.isDown key = true ∧ ∀ lower < key, k.isDown lower = false := by
  rw [lowest?, List.find?_eq_some_iff_getElem]
  refine and_congr_right fun _ => ⟨?_, fun up => ?_⟩
  · rintro ⟨i, hi, rfl, up⟩ lower below
    -- A nibble below the one in place `i` is in an earlier place.
    have earlier : lower.toNat < i := by
      have := BitVec.lt_def.mp below
      rw [Nibble.getElem_all, BitVec.toNat_ofNat] at this
      exact Nat.lt_of_lt_of_le this (Nat.mod_le i 16)
    simpa [Nibble.getElem_all] using up lower.toNat earlier
  · have inside : key.toNat < Nibble.all.length := key.isLt
    refine ⟨key.toNat, inside, ?_, fun j hj => ?_⟩
    · rw [Nibble.getElem_all, BitVec.ofNat_toNat, BitVec.setWidth_eq]
    · have below : BitVec.ofNat 4 j < key := by
        rw [BitVec.lt_def, BitVec.toNat_ofNat]
        exact Nat.lt_of_le_of_lt (Nat.mod_le j 16) hj
      simp [Nibble.getElem_all, up _ below]

/-- There is a lowest key that is down if some key is. -/
theorem exists_lowest (k : Keypad) (down : ∃ key, k.isDown key = true) :
    ∃ key, k.lowest? = some key := by
  obtain ⟨key, down⟩ := down
  apply Option.ne_none_iff_exists'.mp
  intro none
  rw [k.lowest?_eq_none_iff.mp none key] at down
  exact nomatch down

end Keypad

end ChipEight
