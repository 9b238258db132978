namespace ChipEight

/-!
# Measures

The sizes and positions that a window system is told.  It takes a number that 64 bits
hold, and of these bits it keeps the low 32, as a number with a sign.

* `Measure.fits` — whether 64 bits hold a number;
* `Measure.ofInt?` — what the window system makes of a number;
* `Measure.ofInt?_of_small` — hence a number that 32 bits hold is taken as it is.
-/

namespace Measure

/-- Whether 64 bits hold a number with its sign. -/
def fits (n : Int) : Bool := -0x8000000000000000 ≤ n && n < 0x8000000000000000

/-- The measure of a number: its low 32 bits with their sign, `none` if it is too large
    to be handed over. -/
def ofInt? (n : Int) : Option Int := if fits n then some (n.bmod 0x100000000) else none

/-- A number that 32 bits hold is its own measure. -/
theorem ofInt?_of_small {n : Int} (low : -0x80000000 ≤ n) (high : n < 0x80000000) :
    ofInt? n = some n := by
  have fit : fits n = true := by
    simp only [fits, Bool.and_eq_true, decide_eq_true_eq]
    omega
  have same : n.bmod 0x100000000 = n := by
    rw [Int.bmod_def]
    omega
  rw [ofInt?, if_pos fit, same]

end Measure

end ChipEight
