import ChipEight.Text.Integer
import Mathlib.Algebra.Order.Ring.Nat

namespace ChipEight.Text

/-!
# Decimal text

The texts that a command line gives integers by: a dash or none, and digits of ASCII, as many
as are read.

* `Decimal` — such a text, with the integer it is the text of;
* `Decimal.integer?_text` — the text is read as that integer;
* `Decimal.ofInt` — the text that an integer is printed with, unless it is too long.
-/

/-! ### Digits of ASCII -/

/-- A digit of ASCII is one of ten characters. -/
theorem digit_cases {c : Char} (digit : c.isDigit) : ∃ d < 10, c = Char.ofNat (0x30 + d) := by
  simp only [Char.isDigit, ge_iff_le, Bool.and_eq_true, decide_eq_true_eq, UInt32.le_iff_toNat_le]
    at digit
  have low : 48 ≤ c.toNat := digit.1
  have high : c.toNat ≤ 57 := digit.2
  exact ⟨c.toNat - 48, by omega, by rw [Nat.add_sub_cancel' low, Char.ofNat_toNat]⟩

/-- Its value is how far it is behind the zero. -/
theorem digitValue?_of_isDigit {c : Char} (digit : c.isDigit) :
    digitValue? c = some (c.toNat - '0'.toNat) := by
  obtain ⟨d, small, rfl⟩ := digit_cases digit
  rw [digitValue?_ofNat_add small]
  revert d
  decide

/-- No blank is a digit of ASCII. -/
theorem isBlank_of_isDigit {c : Char} (digit : c.isDigit) : isBlank c = false := by
  obtain ⟨d, small, rfl⟩ := digit_cases digit
  clear digit
  revert d
  decide

/-- Nothing is taken from a text without blanks. -/
theorem trim_of_forall {cs : List Char} (solid : ∀ c ∈ cs, isBlank c = false) : trim cs = cs := by
  have front {cs : List Char} (solid : ∀ c ∈ cs, isBlank c = false) : trimFront cs = cs := by
    cases cs with
    | nil => rfl
    | cons c cs => exact List.dropWhile_cons_of_neg (by simp [solid c])
  rw [trim, front solid, front fun c among => solid c (List.mem_reverse.mp among),
    List.reverse_reverse]

/-- Digits of ASCII are read one by one. -/
theorem digitsFrom?_of_forall {cs : List Char} (digital : ∀ c ∈ cs, c.isDigit) :
    digitsFrom? true cs = some (cs.map fun c => c.toNat - '0'.toNat) := by
  induction cs with
  | nil => rfl
  | cons c cs ih =>
    obtain ⟨first, others⟩ := List.forall_mem_cons.mp digital
    simp only [digitsFrom?, digitValue?_of_isDigit first, ih others, Option.map_some,
      List.map_cons]

/-- They are read as the number that they are the digits of, if there are any and not too
    many. -/
theorem natural?_of_forall {cs : List Char} (digital : ∀ c ∈ cs, c.isDigit) (written : cs ≠ [])
    (short : cs.length ≤ digitLimit) : natural? cs = some (Nat.ofDigitChars 10 cs 0) := by
  have digits : digitsOf? cs = some (cs.map fun c => c.toNat - '0'.toNat) := by
    cases cs with
    | nil => exact absurd rfl written
    | cons c cs =>
      rw [← digitsFrom?_of_forall digital]
      simp only [digitsOf?, digitsFrom?, digitValue?_of_isDigit (digital c (by simp))]
  rw [natural?, digits, Option.bind_some, List.length_map, if_pos short, valueOf, List.foldl_map,
    Nat.ofDigitChars_eq_foldl]

/-! ### Decimal text of integers -/

/-- A dash or none, and digits of ASCII. -/
structure Decimal where
  /-- Whether there is a dash. -/
  negative : Bool
  digits : List Char
  digital : ∀ c ∈ digits, c.isDigit
  written : digits ≠ []
  short : digits.length ≤ digitLimit
deriving DecidableEq

namespace Decimal

/-- The characters of the text. -/
def chars (n : Decimal) : List Char := if n.negative then '-' :: n.digits else n.digits

/-- The text. -/
def text (n : Decimal) : String := String.ofList n.chars

/-- The number without its sign. -/
def size (n : Decimal) : Nat := Nat.ofDigitChars 10 n.digits 0

/-- The integer that it is the text of. -/
def value (n : Decimal) : Int := if n.negative then -(n.size : Int) else n.size

/-- A number without sign is not taken for one with a sign. -/
theorem signed?_of_isDigit {c : Char} (digit : c.isDigit) (cs : List Char) :
    signed? (c :: cs) = (natural? (c :: cs)).map Int.ofNat := by
  unfold signed?
  split
  case h_1 same => simp [List.cons.inj same |>.1] at digit
  case h_2 same => simp [List.cons.inj same |>.1] at digit
  case h_3 => rfl

/-- No blank stands in decimal text. -/
theorem isBlank_of_mem_chars (n : Decimal) : ∀ c ∈ n.chars, isBlank c = false := by
  intro c among
  unfold chars at among
  split at among
  · obtain rfl | digit := List.mem_cons.mp among
    · decide
    · exact isBlank_of_isDigit (n.digital c digit)
  · exact isBlank_of_isDigit (n.digital c among)

/-- **Decimal text is read as its integer.** -/
theorem integer?_text (n : Decimal) : integer? n.text = some n.value := by
  have size : natural? n.digits = some n.size := natural?_of_forall n.digital n.written n.short
  rw [integer?, text, String.toList_ofList, trim_of_forall n.isBlank_of_mem_chars, chars, value]
  split
  · rw [signed?, size]
    rfl
  · obtain ⟨c, cs, digits⟩ := List.exists_cons_of_ne_nil n.written
    rw [digits, signed?_of_isDigit (n.digital c (by simp [digits])), ← digits, size]
    rfl

/-- The decimal text of an integer, with no zero in front of other digits. -/
def ofInt (n : Int) (small : n.natAbs < 10 ^ digitLimit) : Decimal where
  negative := n < 0
  digits := Nat.toDigits 10 n.natAbs
  digital _ among := Nat.isDigit_of_mem_toDigits (by decide) (by decide) among
  written := Nat.toDigits_ne_nil
  short := (Nat.length_toDigits_le_iff (by decide) (by decide)).mpr small

/-- It is what the integer is printed with. -/
theorem text_ofInt (n : Int) (small : n.natAbs < 10 ^ digitLimit) :
    (ofInt n small).text = toString n := by
  rw [Int.toString_eq_repr, Int.repr_eq_if, text, chars]
  by_cases negative : 0 ≤ n
  · have abs : n.toNat = n.natAbs := by omega
    have sign : ¬n < 0 := by omega
    simp [ofInt, negative, sign, abs, Nat.repr_eq_ofList_toDigits]
  · have abs : (-n).toNat = n.natAbs := by omega
    have sign : n < 0 := by omega
    simp [ofInt, negative, sign, abs, Nat.repr_eq_ofList_toDigits, String.ofList_cons]

/-- It is the text of that integer. -/
theorem value_ofInt (n : Int) (small : n.natAbs < 10 ^ digitLimit) : (ofInt n small).value = n := by
  have size : (ofInt n small).size = n.natAbs := Nat.ofDigitChars_ten_toDigits
  have sign : (ofInt n small).negative = decide (n < 0) := rfl
  rw [value, size, sign]
  split
  case isTrue negative =>
    have negative : n < 0 := of_decide_eq_true negative
    omega
  case isFalse positive =>
    have positive : ¬n < 0 := by simpa using positive
    omega

end Decimal

end ChipEight.Text
