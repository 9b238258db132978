import ChipEight.Text.Hex
import ChipEight.Text.Printable

namespace ChipEight.Text

/-!
# Quoted text

How a text is shown inside a message: between quotes, with everything that would
not be seen written by its code point.

* `quoteOf` — the quote: the single one, unless the text has single quotes and no
  double ones;
* `escape` — the written form of one character;
* `quoted` — the written form of a text.
-/

/-- The last `width` hexadecimal digits of a number, with small letters. -/
def lowerHex (width n : Nat) : List Char := (Hex.digits width n).map Char.toLower

/-- The quote around a text. -/
def quoteOf (cs : List Char) : Char := if cs.contains '\'' && !cs.contains '"' then '"' else '\''

/-- The written form of a character: the backslash and the quote behind a
    backslash, three controls by a letter, and what is not shown by the shortest
    of three forms that holds its code point. -/
def escape (quote c : Char) : List Char :=
  if c = quote ∨ c = '\\' then ['\\', c]
  else if c = '\n' then ['\\', 'n']
  else if c = '\r' then ['\\', 'r']
  else if c = '\t' then ['\\', 't']
  else if isPrintable c then [c]
  else if c.toNat < 0x100 then '\\' :: 'x' :: lowerHex 2 c.toNat
  else if c.toNat < 0x10000 then '\\' :: 'u' :: lowerHex 4 c.toNat
  else '\\' :: 'U' :: lowerHex 8 c.toNat

/-- The written form of a text. -/
def quoted (s : String) : String :=
  let quote := quoteOf s.toList
  String.ofList (quote :: s.toList.flatMap (escape quote) ++ [quote])

end ChipEight.Text
