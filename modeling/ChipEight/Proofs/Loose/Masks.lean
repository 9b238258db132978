import ChipEight.Basic
import Mathlib.Data.Int.Bitwise

namespace ChipEight

/-!
# Masks

Cutting an integer of any size and sign down to the width of the machine.

* `Mask.land_low` — keeping the lowest bits is counting modulo a power of two, also below
  zero;
* `Mask.land_byte` — masking a byte by an integer is masking it by the integer's low byte;
* `Mask.land_add`, `Mask.land_sub`, `Mask.land_shiftLeft` — arithmetic that is cut down to a
  byte;
* `Mask.family`, `Mask.x`, `Mask.y`, `Mask.n`, `Mask.kk`, `Mask.nnn` — the fields of an
  instruction word, cut out with masks.
-/

namespace Mask

/-! ### The lowest bits -/

/-- Below zero the lowest bits are those that the number one above has not. -/
theorem ldiff_low (k a : Nat) : Nat.ldiff (2 ^ k - 1) a = 2 ^ k - (a % 2 ^ k + 1) := by
  -- Bit by bit: both sides have the low bits that `a` has not, and none above them.
  apply Nat.eq_of_testBit_eq
  intro i
  rw [Nat.testBit_ldiff, Nat.testBit_two_pow_sub_succ (Nat.mod_lt a (Nat.two_pow_pos k)),
    Nat.testBit_two_pow_sub_one, Nat.testBit_mod_two_pow]
  by_cases low : i < k <;> simp [low]

/-- Keeping the lowest bits is counting modulo a power of two, also below zero. -/
theorem land_low (k : Nat) (n : Int) :
    Int.land n (2 ^ k - 1 : Nat) = ((BitVec.ofInt k n).toNat : Int) := by
  have modulus : (0 : Int) < (2 ^ k : Nat) := Int.natCast_pos.mpr (Nat.two_pow_pos k)
  rw [BitVec.toNat_ofInt, Int.toNat_of_nonneg (Int.emod_nonneg n (by omega))]
  -- `Int.land` has a clause for each constructor: a conjunction, or below zero a difference.
  cases n with
  | ofNat a =>
    show ((a &&& (2 ^ k - 1) : Nat) : Int) = _
    rw [Nat.and_two_pow_sub_one_eq_mod]
    rfl
  | negSucc a =>
    show ((Nat.ldiff (2 ^ k - 1) a : Nat) : Int) = _
    have below := Nat.mod_lt a (Nat.two_pow_pos k)
    rw [ldiff_low, Int.negSucc_emod a modulus, ← Int.natCast_emod]
    omega

/-- Nothing is cut off a number of the width itself. -/
theorem ofInt_toNat {width : Nat} (b : BitVec width) : BitVec.ofInt width b.toNat = b := by
  rw [BitVec.ofInt_natCast, BitVec.ofNat_toNat, BitVec.setWidth_eq]

/-- The sixteen lowest bits are a word. -/
theorem land_word (n : Int) : Int.land n 0xFFFF = ((BitVec.ofInt 16 n).toNat : Int) := land_low 16 n

/-- The twelve lowest bits are an address. -/
theorem land_address (n : Int) : Int.land n 0xFFF = ((BitVec.ofInt 12 n).toNat : Int) :=
  land_low 12 n

/-- The eight lowest bits are a byte. -/
theorem land_eight (n : Int) : Int.land n 0xFF = ((BitVec.ofInt 8 n).toNat : Int) := land_low 8 n

/-- The four lowest bits are a nibble. -/
theorem land_four (n : Int) : Int.land n 0xF = ((BitVec.ofInt 4 n).toNat : Int) := land_low 4 n

/-- Masking a byte by an integer is masking it by the integer's low byte. -/
theorem land_byte (b : Byte) (n : Int) :
    Int.land b.toNat n = ((b &&& BitVec.ofInt 8 n).toNat : Int) := by
  -- The low byte of the integer, in which a byte cannot tell the bits above it apart.
  have low : ((BitVec.ofInt 8 n).toNat : Int) = Int.land n 0xFF := (land_eight n).symm
  -- A bit that is set in a byte is one of the eight lowest.
  have bits : ∀ i, b.toNat.testBit i = true → Nat.testBit 255 i = true := fun i set => by
    have below : i < 8 := Nat.lt_of_not_le fun high => by
      rw [Nat.testBit_lt_two_pow (Nat.lt_of_lt_of_le b.isLt (Nat.pow_le_pow_right (by omega) high))]
        at set
      exact nomatch set
    exact (Nat.testBit_two_pow_sub_one 8 i).trans (decide_eq_true below)
  rw [BitVec.toNat_and]
  cases n with
  | ofNat a =>
    have low : (BitVec.ofInt 8 (Int.ofNat a)).toNat = a &&& 255 := Int.ofNat.inj low
    show ((b.toNat &&& a : Nat) : Int) = _
    rw [low]
    refine congrArg Int.ofNat (Nat.eq_of_testBit_eq fun i => ?_)
    rw [Nat.testBit_and, Nat.testBit_and, Nat.testBit_and]
    cases set : b.toNat.testBit i with
    | false => rfl
    | true => rw [bits i set, Bool.and_true]
  | negSucc a =>
    have low : (BitVec.ofInt 8 (Int.negSucc a)).toNat = Nat.ldiff 255 a := Int.ofNat.inj low
    show ((Nat.ldiff b.toNat a : Nat) : Int) = _
    rw [low]
    refine congrArg Int.ofNat (Nat.eq_of_testBit_eq fun i => ?_)
    rw [Nat.testBit_ldiff, Nat.testBit_and, Nat.testBit_ldiff]
    cases set : b.toNat.testBit i with
    | false => rfl
    | true => rw [bits i set, Bool.true_and, Bool.true_and]

/-! ### Arithmetic on bytes -/

/-- A sum of bytes, cut down to a byte. -/
theorem land_add (a b : Byte) : Int.land (a.toNat + b.toNat) 0xFF = ((a + b).toNat : Int) := by
  rw [land_eight, BitVec.ofInt_add, ofInt_toNat, ofInt_toNat]

/-- A difference of bytes, cut down to a byte. -/
theorem land_sub (a b : Byte) : Int.land (a.toNat - b.toNat) 0xFF = ((a - b).toNat : Int) := by
  rw [Int.sub_eq_add_neg, land_eight, BitVec.ofInt_add, BitVec.ofInt_neg, ofInt_toNat,
    ofInt_toNat, BitVec.sub_eq_add_neg]

/-- A byte moved to the left, cut down to a byte. -/
theorem land_shiftLeft (a : Byte) :
    Int.land ((a.toNat : Int) <<< (1 : Nat)) 0xFF = ((a <<< 1).toNat : Int) := by
  rw [land_eight]
  show ((BitVec.ofInt 8 ((a.toNat <<< 1 : Nat) : Int)).toNat : Int) = _
  rw [BitVec.ofInt_natCast, BitVec.toNat_ofNat, BitVec.toNat_shiftLeft]

/-! ### The fields of an instruction word -/

/-- A field of a word, cut out with a mask and moved down. -/
theorem land_field (w : Word) (low width : Nat) :
    Int.land w.toNat ((2 ^ width - 1) <<< low : Nat) >>> low
      = ((w.extractLsb' low width).toNat : Int) := by
  show (((w.toNat &&& (2 ^ width - 1) <<< low) >>> low : Nat) : Int) = _
  -- Moving down first turns the mask into one of the lowest bits.
  rw [Nat.shiftRight_and_distrib, Nat.shiftLeft_shiftRight, Nat.and_two_pow_sub_one_eq_mod,
    BitVec.extractLsb'_toNat]

theorem family (w : Word) : Int.land w.toNat 0xF000 >>> (12 : Nat) = (w.family.toNat : Int) :=
  land_field w 12 4

theorem x (w : Word) : Int.land w.toNat 0x0F00 >>> (8 : Nat) = (w.x.toNat : Int) :=
  land_field w 8 4

theorem y (w : Word) : Int.land w.toNat 0x00F0 >>> (4 : Nat) = (w.y.toNat : Int) :=
  land_field w 4 4

theorem n (w : Word) : Int.land w.toNat 0x000F = (w.n.toNat : Int) := land_field w 0 4

theorem kk (w : Word) : Int.land w.toNat 0x00FF = (w.kk.toNat : Int) := land_field w 0 8

theorem nnn (w : Word) : Int.land w.toNat 0x0FFF = (w.nnn.toNat : Int) := land_field w 0 12

end Mask

end ChipEight
