namespace ChipEight.Text

/-!
# Hexadecimal text

Numbers in upper-case hexadecimal with a fixed number of digits, as the state
dump and the log show them.

* `Hex.digit` — the character of a value below sixteen;
* `Hex.digits` — the last `width` digits of a number, the most significant
  first.
-/

namespace Hex

/-- The character of a digit; only the last four bits count. -/
def digit (n : Nat) : Char :=
  if n % 16 < 10 then Char.ofNat (0x30 + n % 16) else Char.ofNat (0x37 + n % 16)

/-- The last `width` digits of a number, the most significant first. -/
def digits : (width : Nat) → (n : Nat) → List Char
  | 0, _ => []
  | width + 1, n => digits width (n / 16) ++ [digit n]

/-- The text of `width` digits. -/
def text (width n : Nat) : String := String.ofList (digits width n)

/-- There are exactly as many digits as asked for. -/
@[simp] theorem length_digits (width n : Nat) : (digits width n).length = width := by
  induction width generalizing n with
  | zero => rfl
  | succ width ih => simp [digits, ih]

end Hex

end ChipEight.Text
