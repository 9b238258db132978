import ChipEight.Basic
import ChipEight.Text.Hex
import Mathlib.Algebra.Order.Ring.Nat

namespace ChipEight

/-!
# Numerals

The hexadecimal text of a bit vector, nibble by nibble.

* `Nibble.numeral` — the sixteen numerals, as a table;
* `Text.Hex.digits_toNat` — a bit vector is written with one numeral for each nibble, the
  most significant one first;
* `Text.Hex.digits_inj` — numbers that are written with the same digits are the same, if they
  have no more digits than that;
* `Word.hex`, `Word.hexTarget`, `Byte.hex` — the text of a word, of the address in it and of a
  byte, said of their nibbles alone.
-/

/-- The hexadecimal numeral of a nibble. -/
def Nibble.numeral (d : Nibble) : Char :=
  #v['0', '1', '2', '3', '4', '5', '6', '7', '8', '9', 'A', 'B', 'C', 'D', 'E', 'F'][d.toFin]

namespace Text.Hex

/-! ### Digits and nibbles -/

/-- The digit of a nibble is its numeral. -/
theorem digit_toNat (d : Nibble) : digit d.toNat = d.numeral := by
  revert d
  decide

/-- Only the last four bits of a number count for its digit. -/
theorem digit_mod (n : Nat) : digit (n % 16) = digit n := by
  simp only [digit, Nat.mod_mod]

/-- The digit of a number is the numeral of its last four bits. -/
theorem digit_eq_numeral (n : Nat) : digit n = Nibble.numeral (BitVec.ofNat 4 n) := by
  rw [← digit_toNat, BitVec.toNat_ofNat, digit_mod]

/-- The digits of a number are those of the number moved down, by four bits for each digit
    behind. -/
theorem digits_eq_map (count n : Nat) :
    digits count n = (List.range count).reverse.map fun i => digit (n >>> (4 * i)) := by
  induction count generalizing n with
  | zero => rfl
  | succ count ih =>
    -- The last digit is the one that is not moved; the others are those of `n / 16`.
    have moved (i : Nat) : (n / 16) >>> (4 * i) = n >>> (4 * (i + 1)) := by
      have split : 4 * (i + 1) = 4 + 4 * i := by omega
      rw [split, Nat.shiftRight_add, Nat.shiftRight_eq_div_pow n 4]
    rw [digits, ih, List.range_succ_eq_map, List.reverse_cons, List.map_append,
      ← List.map_reverse, List.map_map]
    simp [moved]

/-- **One numeral for each nibble.**  A bit vector is written with the numerals of its
    nibbles, the most significant one first. -/
theorem digits_toNat {width : Nat} (b : BitVec width) (count : Nat) :
    digits count b.toNat
      = (List.range count).reverse.map fun i => Nibble.numeral (b.extractLsb' (4 * i) 4) := by
  rw [digits_eq_map]
  apply List.map_congr_left
  intro i _
  rw [← digit_toNat, BitVec.extractLsb'_toNat, digit_mod]

/-- Nibbles with the same numeral are the same. -/
theorem numeral_inj {c d : Nibble} : c.numeral = d.numeral → c = d := by
  revert c d
  decide

/-- Numbers with the same digits are the same, if there are enough digits for both of them. -/
theorem digits_inj {count a b : Nat} (ha : a < 16 ^ count) (hb : b < 16 ^ count)
    (same : digits count a = digits count b) : a = b := by
  induction count generalizing a b with
  | zero => omega
  | succ count ih =>
    obtain ⟨front, last⟩ := List.append_inj' same rfl
    have high : a / 16 = b / 16 := ih (by omega) (by omega) front
    have low : digit a = digit b := List.head_eq_of_cons_eq last
    rw [digit_eq_numeral, digit_eq_numeral] at low
    have low := congrArg BitVec.toNat (numeral_inj low)
    rw [BitVec.toNat_ofNat, BitVec.toNat_ofNat] at low
    omega

end Text.Hex

/-! ### Words, addresses and bytes -/

/-- The two numerals of a byte. -/
def Byte.hex (b : Byte) : String :=
  String.ofList [Nibble.numeral (b.extractLsb' 4 4), Nibble.numeral (b.extractLsb' 0 4)]

/-- A byte is written with its two numerals. -/
theorem Byte.text_toNat (b : Byte) : Text.Hex.text 2 b.toNat = b.hex := by
  rw [Text.Hex.text, Text.Hex.digits_toNat]
  rfl

namespace Word

/-- The four numerals of a word. -/
def hex (w : Word) : String :=
  String.ofList [w.family.numeral, w.x.numeral, w.y.numeral, w.n.numeral]

/-- The three numerals of the address in a word. -/
def hexTarget (w : Word) : String := String.ofList [w.x.numeral, w.y.numeral, w.n.numeral]

/-- A word is written with its four numerals. -/
theorem text_toNat (w : Word) : Text.Hex.text 4 w.toNat = w.hex := by
  rw [Text.Hex.text, Text.Hex.digits_toNat]
  rfl

/-- The address in a word is written with the last three of them. -/
theorem text_nnn (w : Word) : Text.Hex.text 3 w.nnn.toNat = w.hexTarget := by
  -- Each nibble of the address is that nibble of the word.
  have nibbles : (List.range 3).reverse.map (fun i => Nibble.numeral (w.nnn.extractLsb' (4 * i) 4))
      = (List.range 3).reverse.map fun i => Nibble.numeral (w.extractLsb' (4 * i) 4) := by
    apply List.map_congr_left
    intro i among
    have low : i < 3 := List.mem_range.mp (List.mem_reverse.mp among)
    have same : w.nnn.extractLsb' (4 * i) 4 = w.extractLsb' (4 * i) 4 := by
      ext j hj
      simp [nnn]
      omega
    rw [same]
  rw [Text.Hex.text, Text.Hex.digits_toNat, nibbles]
  rfl

end Word

end ChipEight
