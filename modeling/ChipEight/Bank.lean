import ChipEight.Basic

namespace ChipEight

/-!
# Banks

Sixteen entries, one for each nibble: the general registers and the keys come in
banks.

* `Bank.entry` — the entry of a nibble, the view through which the rest is
  described;
* `Bank.fill`, `Bank.ofFn`, `Bank.put` — a bank of equal entries, a bank of given
  entries, and a change of one entry;
* `Bank.toList` — the entries in order.
-/

/-- Sixteen entries. -/
structure Bank (α : Type) where
  entries : Vector α 16
deriving DecidableEq, Repr

namespace Bank

variable {α : Type}

/-- A nibble is below sixteen. -/
theorem toNat_lt (x : Nibble) : x.toNat < 16 := x.isLt

/-- The entry of a nibble. -/
def entry (b : Bank α) (x : Nibble) : α := b.entries[x.toNat]

/-- Sixteen equal entries. -/
def fill (a : α) : Bank α := ⟨Vector.replicate 16 a⟩

/-- The bank of the given entries. -/
def ofFn (f : Nibble → α) : Bank α := ⟨Vector.ofFn fun i => f (BitVec.ofFin i)⟩

/-- Change the entry of a nibble. -/
def put (b : Bank α) (x : Nibble) (a : α) : Bank α := ⟨b.entries.set x.toNat a (toNat_lt x)⟩

/-- The entries, in the order of the nibbles. -/
def toList (b : Bank α) : List α := b.entries.toList

/-- Every entry of a filled bank is the same. -/
@[simp] theorem entry_fill (a : α) (x : Nibble) : (fill a).entry x = a := by
  simp [entry, fill]

/-- The entries of a bank that was made from them. -/
@[simp] theorem entry_ofFn (f : Nibble → α) (x : Nibble) : (ofFn f).entry x = f x := by
  simp [entry, ofFn]

/-- A changed entry is the new one, the others are the old ones. -/
theorem entry_put (b : Bank α) (x y : Nibble) (a : α) :
    (b.put x a).entry y = if y = x then a else b.entry y := by
  simp only [entry, put, Vector.getElem_set, BitVec.toNat_eq, eq_comm]

/-- Banks with the same entries are the same. -/
@[ext] theorem ext_entry {b c : Bank α} (h : ∀ x, b.entry x = c.entry x) : b = c := by
  obtain ⟨bs⟩ := b
  obtain ⟨cs⟩ := c
  congr 1
  apply Vector.ext
  intro i hi
  simpa [entry, Nat.mod_eq_of_lt hi] using h (BitVec.ofNat 4 i)

end Bank

end ChipEight
