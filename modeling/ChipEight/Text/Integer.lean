import ChipEight.Text.Blank
import ChipEight.Text.Digit

namespace ChipEight.Text

/-!
# Integer text

How integers are read: blanks around the number, a sign in front of it, and
decimal digits of any script, between two of which there may be one underscore.

* `digitsOf?` — the digits of a number without sign;
* `natural?` — the value of such a number;
* `integer?` — the value of a whole text.
-/

/-- The longest number that is read, in digits. -/
def digitLimit : Nat := 4300

/-- The digits of a number, most significant first.  `afterDigit` says that a digit
    has just been read, so that an underscore may follow. -/
def digitsFrom? : (afterDigit : Bool) → List Char → Option (List Nat)
  | afterDigit, [] => if afterDigit then some [] else none
  | afterDigit, c :: cs =>
    match digitValue? c with
    | some d => (digitsFrom? true cs).map (d :: ·)
    | none => if c = '_' ∧ afterDigit then digitsFrom? false cs else none

/-- The digits of a number: at least one, with single underscores between them. -/
def digitsOf? (cs : List Char) : Option (List Nat) := digitsFrom? false cs

/-- The value of digits, most significant first. -/
def valueOf (digits : List Nat) : Nat := digits.foldl (fun n d => 10 * n + d) 0

/-- The value of a number without sign, if it is not too long. -/
def natural? (cs : List Char) : Option Nat :=
  (digitsOf? cs).bind fun digits =>
    if digits.length ≤ digitLimit then some (valueOf digits) else none

/-- The value of a number that may have a sign. -/
def signed? : List Char → Option Int
  | '-' :: cs => (natural? cs).map fun n => -(n : Int)
  | '+' :: cs => (natural? cs).map Int.ofNat
  | cs => (natural? cs).map Int.ofNat

/-- The integer that a text stands for. -/
def integer? (s : String) : Option Int := signed? (trim s.toList)

end ChipEight.Text
