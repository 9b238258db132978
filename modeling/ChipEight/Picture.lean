import ChipEight.Basic

namespace ChipEight

/-!
# The picture

The display memory: 64 by 32 pixels that are on or off.  A row is kept as 64
bits, the leftmost pixel first.

* `Picture.pixel` — one pixel, the view through which the rest is described;
* `Picture.stamp` — the pixels that a sprite covers, as a picture of its own:
  the start wraps around the screen, what passes the right or bottom edge is cut
  off;
* `Picture.invert` — flip the pixels of one picture that are on in another,
  which is how sprites are drawn;
* `Picture.meets` — whether two pictures have a pixel in common.
-/

/-- A picture of 64 by 32 pixels. -/
structure Picture where
  rows : Vector (BitVec 64) 32
deriving DecidableEq

namespace Picture

/-- The number of pixels in a row. -/
def width : Nat := 64

/-- The number of rows. -/
def height : Nat := 32

/-- Whether the pixel in column `x` of row `y` is on. -/
def pixel (p : Picture) (x : Fin 64) (y : Fin 32) : Bool := p.rows[y].getMsbD x

/-- Pictures with the same pixels are the same. -/
@[ext] theorem ext_pixel {p q : Picture} (h : ∀ x y, p.pixel x y = q.pixel x y) : p = q := by
  obtain ⟨ps⟩ := p
  obtain ⟨qs⟩ := q
  congr 1
  apply Vector.ext
  intro i hi
  apply BitVec.eq_of_getMsbD_eq
  intro j hj
  exact h ⟨j, hj⟩ ⟨i, hi⟩

/-- All pixels off. -/
def blank : Picture := ⟨Vector.replicate 32 0⟩

/-- Every pixel of the blank picture is off. -/
@[simp] theorem pixel_blank (x : Fin 64) (y : Fin 32) : blank.pixel x y = false := by
  simp [pixel, blank]

/-- The eight pixels of a sprite line in a row of the screen, the first one in
    column `x`.  What passes the right edge is cut off. -/
def line (x : Nat) (bits : Byte) : BitVec 64 := (bits.setWidth 64 <<< 56) >>> x

/-- The pixels that a sprite covers: `n` lines, the first one in row `y`, with
    its leftmost pixel in column `x`.  The start wraps around the screen; what
    passes the right or bottom edge is cut off. -/
def stamp (x y : Byte) (n : Nibble) (lines : Nat → Byte) : Picture :=
  let left := x.toNat % 64
  let top := y.toNat % 32
  ⟨Vector.ofFn fun row =>
    if top ≤ row.val ∧ row.val < top + n.toNat then line left (lines (row.val - top)) else 0⟩

/-- Flip the pixels that are on in `q`. -/
def invert (p q : Picture) : Picture := ⟨Vector.zipWith (· ^^^ ·) p.rows q.rows⟩

/-- Whether some pixel is on in both pictures. -/
def meets (p q : Picture) : Bool :=
  (Vector.zipWith (· &&& ·) p.rows q.rows).any (· != 0)

/-! ### Pixel by pixel -/

/-- A pixel of a sprite line is the bit that far from the line's start. -/
theorem getMsbD_line (x : Nat) (bits : Byte) {i : Nat} (h : i < 64) :
    (line x bits).getMsbD i = (decide (x ≤ i) && bits.getMsbD (i - x)) := by
  simp only [line, BitVec.getMsbD_ushiftRight, BitVec.getMsbD_shiftLeft, BitVec.getMsbD_setWidth]
  by_cases hx : i < x
  · have : ¬ x ≤ i := by omega
    simp [hx, this]
  · have le : x ≤ i := by omega
    simp only [h, hx, le, decide_true, Bool.true_and]
    by_cases hlt : i - x < 8
    · simp
    · -- Past the eighth pixel there is no bit on either side.
      simp [BitVec.getMsbD_of_ge bits (i - x) (by omega)]

/-- The pixels of a stamp: those at or after its start, in its lines, whose bit is
    set. -/
theorem pixel_stamp (x y : Byte) (n : Nibble) (lines : Nat → Byte) (cx : Fin 64) (cy : Fin 32) :
    (stamp x y n lines).pixel cx cy =
      (decide (x.toNat % 64 ≤ cx.val ∧ y.toNat % 32 ≤ cy.val ∧ cy.val < y.toNat % 32 + n.toNat)
        && (lines (cy.val - y.toNat % 32)).getMsbD (cx.val - x.toNat % 64)) := by
  simp only [pixel, stamp, Fin.getElem_fin, Vector.getElem_ofFn]
  by_cases h : y.toNat % 32 ≤ cy.val ∧ cy.val < y.toNat % 32 + n.toNat
  · rw [if_pos h, getMsbD_line _ _ cx.isLt]
    simp [h]
  · rw [if_neg h]
    have : ¬ (x.toNat % 64 ≤ cx.val ∧ y.toNat % 32 ≤ cy.val ∧ cy.val < y.toNat % 32 + n.toNat) :=
      fun e => h e.2
    simp [this]

/-- A pixel is flipped where the other picture has its pixel on. -/
@[simp] theorem pixel_invert (p q : Picture) (x : Fin 64) (y : Fin 32) :
    (p.invert q).pixel x y = (p.pixel x y ^^ q.pixel x y) := by
  simp [pixel, invert]

/-- Two pictures meet if some pixel is on in both. -/
theorem meets_eq_true_iff (p q : Picture) :
    p.meets q = true ↔ ∃ x y, p.pixel x y = true ∧ q.pixel x y = true := by
  simp only [meets, Vector.any_eq_true, Vector.getElem_zipWith, bne_iff_ne, ne_eq]
  constructor
  · rintro ⟨y, hy, common⟩
    -- A row that is not zero has a bit that is set.
    have : ∃ x, x < 64 ∧ (p.rows[y] &&& q.rows[y]).getMsbD x = true := by
      apply Classical.byContradiction
      intro none
      apply common
      apply BitVec.eq_of_getMsbD_eq
      intro x hx
      have := fun e => none ⟨x, hx, e⟩
      simpa using this
    obtain ⟨x, hx, e⟩ := this
    refine ⟨⟨x, hx⟩, ⟨y, hy⟩, ?_⟩
    simpa [pixel] using e
  · rintro ⟨x, y, hp, hq⟩
    refine ⟨y.val, y.isLt, fun none => ?_⟩
    have := congrArg (·.getMsbD x.val) none
    simp only [pixel, Fin.getElem_fin] at hp hq
    simp [hp, hq] at this

end Picture

end ChipEight
