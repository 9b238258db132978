namespace ChipEight.Text

/-!
# Blank characters

What may stand around a number: the space, the five controls from tabulator to
carriage return, and the spaces and separators of Unicode beyond ASCII.

* `isBlank` — whether a character is blank;
* `trim` — a text without the blanks around it.
-/

/-- The code points of blank characters beyond ASCII, as ranges of first and last. -/
def wideBlanks : List (Nat × Nat) := [
  (0x0085, 0x0085), (0x00A0, 0x00A0), (0x1680, 0x1680), (0x2000, 0x200A), (0x2028, 0x2029),
  (0x202F, 0x202F), (0x205F, 0x205F), (0x3000, 0x3000)]

/-- Whether a character may stand around a number. -/
def isBlank (c : Char) : Bool :=
  c == ' ' || (0x09 ≤ c.toNat && c.toNat ≤ 0x0D)
    || wideBlanks.any fun (first, last) => first ≤ c.toNat && c.toNat ≤ last

/-- A text without the blanks at its front. -/
def trimFront (cs : List Char) : List Char := cs.dropWhile isBlank

/-- A text without the blanks around it. -/
def trim (cs : List Char) : List Char := (trimFront (trimFront cs).reverse).reverse

end ChipEight.Text
