namespace ChipEight

/-!
# The canvas

A surface of pixels in two colours, of any size.  A row is kept as one bit vector,
the leftmost pixel first, so that a stretch of a row is painted at once.

* `Canvas.pixel` — one pixel, the view through which the rest is described;
* `Canvas.blank` — a canvas in the first colour;
* `Canvas.fill` — paint a rectangle; what lies outside the canvas is cut off, and a
  rectangle without an extent paints nothing;
* `Canvas.pixel_fill` — hence a pixel has the new colour inside the rectangle and
  the old one outside.
-/

/-- A surface of `width` by `height` pixels. -/
structure Canvas where
  width : Nat
  height : Nat
  rows : Vector (BitVec width) height

namespace Canvas

/-- Whether bit `x` of row `y` is set; none is outside the rows. -/
def bit {width height : Nat} (rows : Vector (BitVec width) height) (x y : Nat) : Bool :=
  (rows[y]?).any fun row => row.getMsbD x

/-- Whether the pixel in column `x` of row `y` has the second colour; none has
    outside the canvas. -/
def pixel (c : Canvas) (x y : Nat) : Bool := bit c.rows x y

/-- A canvas in the first colour. -/
def blank (width height : Nat) : Canvas := ⟨width, height, Vector.replicate height 0⟩

/-- No pixel of a blank canvas has the second colour. -/
@[simp] theorem pixel_blank (width height x y : Nat) : (blank width height).pixel x y = false := by
  change bit (Vector.replicate height (0 : BitVec width)) x y = false
  rw [bit, Vector.getElem?_replicate]
  split <;> simp

/-! ### Painting -/

/-- The pixels of a row from column `left` up to column `right`, which is left
    out. -/
def stretch (width left right : Nat) : BitVec width :=
  (BitVec.allOnes width >>> left) &&& ~~~(BitVec.allOnes width >>> right)

/-- A row with some of its pixels painted: they are set, and flipped back for the first
    colour. -/
def paint {width : Nat} (row pixels : BitVec width) (colour : Bool) : BitVec width :=
  if colour then row ||| pixels else (row ||| pixels) ^^^ pixels

/-- A coordinate moved into a range that starts at zero. -/
def clamp (limit : Nat) (coordinate : Int) : Nat := min limit coordinate.toNat

/-- Inside the range a clamped coordinate is at most as far as the coordinate is. -/
theorem clamp_le_iff {limit i : Nat} (h : i < limit) (coordinate : Int) :
    clamp limit coordinate ≤ i ↔ coordinate ≤ i := by
  unfold clamp
  omega

/-- Inside the range a clamped coordinate is past what the coordinate is past. -/
theorem lt_clamp_iff {limit i : Nat} (h : i < limit) (coordinate : Int) :
    i < clamp limit coordinate ↔ i < coordinate := by
  unfold clamp
  omega

/-- Rows of which `count`, from row `y` on, have some of their pixels painted. -/
def paintRows {width height : Nat} (pixels : BitVec width) (colour : Bool) :
    (count y : Nat) → Vector (BitVec width) height → Vector (BitVec width) height
  | 0, _, rows => rows
  | count + 1, y, rows =>
    paintRows pixels colour count (y + 1)
      (if h : y < height then rows.set y (paint rows[y] pixels colour) h else rows)

/-- Rows with a rectangle painted: the columns from `left` and the rows from `top` up
    to those that are left out, `right` and `bottom`. -/
def fillRows {width height : Nat} (rows : Vector (BitVec width) height)
    (left top right bottom : Int) (colour : Bool) : Vector (BitVec width) height :=
  paintRows (stretch width (clamp width left) (clamp width right)) colour
    (clamp height bottom - clamp height top) (clamp height top) rows

/-- Paint a rectangle: `width` by `height` pixels, the first one at column `left`
    of row `top`. -/
def fill (c : Canvas) (left top width height : Int) (colour : Bool) : Canvas :=
  ⟨c.width, c.height, fillRows c.rows left top (left + width) (top + height) colour⟩

/-- Painting keeps the width. -/
@[simp] theorem width_fill (c : Canvas) (left top width height : Int) (colour : Bool) :
    (c.fill left top width height colour).width = c.width := rfl

/-- Painting keeps the height. -/
@[simp] theorem height_fill (c : Canvas) (left top width height : Int) (colour : Bool) :
    (c.fill left top width height colour).height = c.height := rfl

/-- A pixel of a stretch is set between its ends. -/
theorem getMsbD_stretch (width left right i : Nat) :
    (stretch width left right).getMsbD i = decide (i < width ∧ left ≤ i ∧ i < right) := by
  rw [Bool.eq_iff_iff]
  simp [stretch, BitVec.getMsbD_ushiftRight]
  omega

/-- A painted pixel has the new colour, the others keep theirs. -/
theorem getMsbD_paint {width : Nat} (row pixels : BitVec width) (colour : Bool) (i : Nat) :
    (paint row pixels colour).getMsbD i = if pixels.getMsbD i then colour else row.getMsbD i := by
  cases colour <;> cases e : pixels.getMsbD i <;> simp [paint, e]

/-- The rows that are painted, and the others as they were. -/
theorem getElem_paintRows {width height : Nat} (pixels : BitVec width) (colour : Bool)
    (count y : Nat) (rows : Vector (BitVec width) height) {i : Nat} (h : i < height) :
    (paintRows pixels colour count y rows)[i]
      = if y ≤ i ∧ i < y + count then paint rows[i] pixels colour else rows[i] := by
  induction count generalizing y rows with
  | zero =>
    rw [if_neg (by omega)]
    rfl
  | succ count ih =>
    rw [paintRows, ih]
    by_cases here : i = y
    · -- This is the row painted first.
      subst here
      rw [if_neg (by omega), if_pos (by omega), dif_pos h]
      simp
    · have same : (if h : y < height then rows.set y (paint rows[y] pixels colour) h
          else rows)[i] = rows[i] := by
        split
        · exact Vector.getElem_set_ne _ _ (Ne.symm here)
        · rfl
      rw [same]
      congr 1
      apply propext
      omega

/-- Inside the rectangle a bit has the new colour, everywhere else it keeps its
    own. -/
theorem bit_fillRows {width height : Nat} (rows : Vector (BitVec width) height)
    (left top right bottom : Int) (colour : Bool) {x y : Nat} (hx : x < width) (hy : y < height) :
    bit (fillRows rows left top right bottom colour) x y
      = if left ≤ x ∧ x < right ∧ top ≤ y ∧ y < bottom then colour else bit rows x y := by
  have inside : clamp height top ≤ y
        ∧ y < clamp height top + (clamp height bottom - clamp height top)
      ↔ top ≤ y ∧ y < bottom := by
    rw [← clamp_le_iff hy top, ← lt_clamp_iff hy bottom]
    omega
  simp only [bit, fillRows, Vector.getElem?_eq_getElem hy, Option.any_some, getElem_paintRows,
    inside]
  by_cases row : top ≤ y ∧ y < bottom
  · -- Within the rows of the rectangle it is up to the column.
    rw [if_pos row, getMsbD_paint, getMsbD_stretch]
    simp [clamp_le_iff hx, lt_clamp_iff hx, hx, row]
  · rw [if_neg row, if_neg]
    exact fun h => row ⟨h.2.2.1, h.2.2.2⟩

/-- Inside the rectangle a pixel of the canvas has the new colour, everywhere else it
    keeps its own. -/
theorem pixel_fill (c : Canvas) (left top width height : Int) (colour : Bool) {x y : Nat}
    (hx : x < c.width) (hy : y < c.height) :
    (c.fill left top width height colour).pixel x y
      = if left ≤ x ∧ x < left + width ∧ top ≤ y ∧ y < top + height then colour
        else c.pixel x y :=
  bit_fillRows c.rows left top (left + width) (top + height) colour hx hy

end Canvas

end ChipEight
