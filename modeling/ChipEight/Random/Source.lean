namespace ChipEight

/-!
# Random sources

The machine draws its random numbers from a source that it is built with.

* `RandomSource` — a state from which the next number can be drawn;
* `RandomSource.after`, `RandomSource.drawn` — the state after some draws, and the
  numbers drawn, counted from zero;
* `Wheel` — a source that repeats a list of numbers for ever.

A number may be any integer: the machine keeps the bits that it asks for.
-/

/-- A source of numbers: a draw gives a number and the source after it. -/
class RandomSource (ρ : Type) where
  next : ρ → Int × ρ

namespace RandomSource

variable {ρ : Type} [RandomSource ρ]

/-- The source after `count` draws. -/
def after (r : ρ) : Nat → ρ
  | 0 => r
  | count + 1 => after (next r).2 count

/-- The number that draw `index`, counted from zero, gives. -/
def drawn (r : ρ) (index : Nat) : Int := (next (after r index)).1

end RandomSource

/-- A source that gives the numbers of a list in turn and starts over at its end.
    An empty list gives zeros. -/
structure Wheel where
  numbers : Array Int
  position : Nat
deriving DecidableEq, Repr

namespace Wheel

/-- The wheel of a list, at its start. -/
def ofList (numbers : List Int) : Wheel := ⟨numbers.toArray, 0⟩

instance : RandomSource Wheel where
  next w :=
    (w.numbers.getD (w.position % w.numbers.size) 0, { w with position := w.position + 1 })

end Wheel

end ChipEight
