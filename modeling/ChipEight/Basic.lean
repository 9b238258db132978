namespace ChipEight

/-!
# Words of the machine

The machine works on four widths, each a `BitVec`, so that arithmetic wraps as
the hardware's does:

* `Nibble` — a register or key number, a sprite height;
* `Byte` — a memory cell, a register, a timer;
* `Address` — what the address bus carries;
* `Word` — an instruction, the program counter, the index register.

`Word.family`, `Word.x`, `Word.y`, `Word.n`, `Word.kk` and `Word.nnn` are the
fields of an instruction word, most significant first:

    family  x  y  n
            x  k  k
            n  n  n
-/

/-- Four bits: a register number, a key of the keypad or a sprite height. -/
abbrev Nibble := BitVec 4

/-- Eight bits: a memory cell, a general register or a timer. -/
abbrev Byte := BitVec 8

/-- Twelve bits: a position in the memory of 4096 bytes. -/
abbrev Address := BitVec 12

/-- Sixteen bits: an instruction, the program counter, the index register or a
    return address. -/
abbrev Word := BitVec 16

/-- All nibbles, in ascending order. -/
def Nibble.all : List Nibble := (List.finRange 16).map fun i => BitVec.ofFin i

/-- Every nibble is among them. -/
theorem Nibble.mem_all (x : Nibble) : x ∈ all := by
  revert x
  decide

/-- There are sixteen of them. -/
@[simp] theorem Nibble.length_all : all.length = 16 := rfl

/-- Each of them stands in its own place. -/
theorem Nibble.getElem_all {i : Nat} (hi : i < all.length) : all[i] = BitVec.ofNat 4 i := by
  have small : i < 16 := hi
  apply BitVec.eq_of_toNat_eq
  simp [all, Nat.mod_eq_of_lt small]

namespace Word

/-- The first nibble of an instruction word, which tells its family. -/
def family (w : Word) : Nibble := w.extractLsb' 12 4

/-- The second nibble: the first register that an instruction names. -/
def x (w : Word) : Nibble := w.extractLsb' 8 4

/-- The third nibble: the second register that an instruction names. -/
def y (w : Word) : Nibble := w.extractLsb' 4 4

/-- The last nibble: a sprite height, or the variant within a family. -/
def n (w : Word) : Nibble := w.extractLsb' 0 4

/-- The low byte: a constant, or the variant within a family. -/
def kk (w : Word) : Byte := w.extractLsb' 0 8

/-- The low twelve bits: an address. -/
def nnn (w : Word) : Address := w.extractLsb' 0 12

/-- The word of an integer operand of any size and sign, which counts modulo
    `2 ^ 16`. -/
def ofInt (operand : Int) : Word := BitVec.ofInt 16 operand

end Word

end ChipEight
