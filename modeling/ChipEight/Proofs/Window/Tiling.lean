import ChipEight.Proofs.Window.Opened
import Mathlib.Logic.ExistsUnique

namespace ChipEight

/-!
# Squares that tile the window

A display memory of any size is shown in squares, whatever its rows are apart.

* `Window.HasCell`, `Window.cellPlace`, `Window.cell?_eq` — the cells of a display memory, which
  may be counted from its end;
* `Window.InSquare`, `Window.inSquare_iff` — the pixels of a window in a square;
* `Window.existsUnique_inSquare`, `Window.inside_of_inSquare` — the squares leave no gap, do not
  overlap and do not reach out of the window;
* `Window.Fits.paintSquare` — painting a square colours its pixels and no other ones;
* `Window.Before`, `Window.Painted.pixel_eq` — the order of the pixels, and what a window shows
  that was painted up to one of them;
* `Window.ShowsCells`, `Window.Fits.update` — hence what it shows after it was brought up to date;
* `Window.squares_show_their_cells` — which is up to the display memory alone, in every window
  that was opened.
-/

namespace Window

/-! ### Cells -/

/-- There is a cell at an index, which counts from the end if it is negative. -/
def HasCell (size : Nat) (index : Int) : Prop := -(size : Int) ≤ index ∧ index < size

instance (size : Nat) (index : Int) : Decidable (HasCell size index) :=
  inferInstanceAs (Decidable (_ ∧ _))

/-- Where the cell at an index lies. -/
def cellPlace (size : Nat) (index : Int) : Nat :=
  (if index < 0 then index + size else index).toNat

/-- The cell at an index. -/
theorem cell?_eq (cells : Array Int) (index : Int) :
    cell? cells index
      = if HasCell cells.size index then cells[cellPlace cells.size index]? else none := by
  unfold cell? HasCell cellPlace
  by_cases negative : index < 0
  · rw [if_neg (by omega)]
    simp only [if_pos negative]
    split
    · rw [if_pos (by omega)]
    · rw [if_neg (by omega)]
  · rw [if_pos (by omega)]
    simp only [if_neg negative]
    split
    · rfl
    · rw [Array.getElem?_eq_none (by omega)]

/-- The place of a cell is one of the places. -/
theorem cellPlace_lt {size : Nat} {index : Int} (has : HasCell size index) :
    cellPlace size index < size := by
  unfold HasCell at has
  unfold cellPlace
  split <;> omega

/-- An index has a cell or is beyond both ends. -/
theorem cell?_eq_none_iff (cells : Array Int) (index : Int) :
    cell? cells index = none ↔ ¬ HasCell cells.size index := by
  rw [cell?_eq]
  by_cases has : HasCell cells.size index
  · simp [has, cellPlace_lt has]
  · simp [has]

/-! ### Rows and columns -/

/-- Pixels are counted row by row. -/
theorem line_column_of_lt {width x : Nat} (y : Nat) (column : x < width) :
    (y * width + x) / width = y ∧ (y * width + x) % width = x := by
  refine (Nat.div_mod_unique (Nat.zero_lt_of_lt column)).mpr ⟨?_, column⟩
  rw [Nat.mul_comm, Nat.add_comm]

/-- The index of the cell of the pixel in a column and a row. -/
theorem cellIndex_of_lt {width x : Nat} (stride : Int) (y : Nat) (column : x < width) :
    cellIndex width stride (y * width + x) = y * stride + x := by
  obtain ⟨line, column⟩ := line_column_of_lt y column
  rw [cellIndex, line, column]

/-- If the cells of all columns and rows are there, those of all pixels are. -/
theorem cell?_ne_none_of_hasCell {cells : Array Int} {stride : Int} {width height : Nat}
    (has : ∀ x < width, ∀ y < height, HasCell cells.size (y * stride + x)) (k : Nat)
    (inside : k < width * height) : cell? cells (cellIndex width stride k) ≠ none := by
  have some : 0 < width := Nat.pos_of_ne_zero fun none => by simp [none] at inside
  rw [ne_eq, cell?_eq_none_iff, Decidable.not_not, cellIndex]
  exact has _ (Nat.mod_lt k some) _ (Nat.div_lt_of_lt_mul inside)

/-- The pixel in column `x` of row `y` comes before the one in column `x'` of row `y'`. -/
def Before (x y x' y' : Nat) : Prop := y < y' ∨ y = y' ∧ x < x'

instance (x y x' y' : Nat) : Decidable (Before x y x' y') :=
  inferInstanceAs (Decidable (_ ∨ _ ∧ _))

/-- Pixels are counted in that order. -/
theorem count_lt_iff {width x x' : Nat} (y y' : Nat) (column : x < width) (column' : x' < width) :
    y * width + x < y' * width + x' ↔ Before x y x' y' := by
  unfold Before
  rcases Nat.lt_trichotomy y y' with above | rfl | below
  · have rows : (y + 1) * width ≤ y' * width := Nat.mul_le_mul_right width above
    rw [Nat.add_mul, Nat.one_mul] at rows
    omega
  · omega
  · have rows : (y' + 1) * width ≤ y * width := Nat.mul_le_mul_right width below
    rw [Nat.add_mul, Nat.one_mul] at rows
    omega

/-! ### Squares -/

/-- A pixel of the window lies in the square of the pixel in column `x` of row `y`. -/
def InSquare (side x y px py : Nat) : Prop :=
  x * side ≤ px ∧ px < (x + 1) * side ∧ y * side ≤ py ∧ py < (y + 1) * side

instance (side x y px py : Nat) : Decidable (InSquare side x y px py) :=
  inferInstanceAs (Decidable (_ ∧ _ ∧ _ ∧ _))

/-- Which square a pixel lies in is found by division. -/
theorem inSquare_iff {side : Nat} (positive : 0 < side) (x y px py : Nat) :
    InSquare side x y px py ↔ px / side = x ∧ py / side = y := by
  rw [InSquare, Nat.div_eq_iff positive, Nat.div_eq_iff positive, Nat.add_mul, Nat.add_mul]
  omega

/-- **No gap and no overlap.**  Every pixel of the window lies in exactly one square. -/
theorem existsUnique_inSquare {width height side px py : Nat} (positive : 0 < side)
    (inside : px < width * side) (below : py < height * side) :
    ∃! c : Nat × Nat, c.1 < width ∧ c.2 < height ∧ InSquare side c.1 c.2 px py := by
  refine ⟨(px / side, py / side), ⟨?_, ?_, (inSquare_iff positive _ _ px py).mpr ⟨rfl, rfl⟩⟩, ?_⟩
  · exact (Nat.div_lt_iff_lt_mul positive).mpr inside
  · exact (Nat.div_lt_iff_lt_mul positive).mpr below
  · rintro ⟨x, y⟩ ⟨-, -, square⟩
    obtain ⟨rfl, rfl⟩ := (inSquare_iff positive x y px py).mp square
    rfl

/-- A square does not reach out of the window. -/
theorem inside_of_inSquare {width height side x y px py : Nat} (column : x < width)
    (line : y < height) (square : InSquare side x y px py) :
    px < width * side ∧ py < height * side := by
  have right : (x + 1) * side ≤ width * side := Nat.mul_le_mul_right side column
  have bottom : (y + 1) * side ≤ height * side := Nat.mul_le_mul_right side line
  exact ⟨Nat.lt_of_lt_of_le square.2.1 right, Nat.lt_of_lt_of_le square.2.2.2 bottom⟩

/-- The square of a pixel holds the pixels of the window that show it. -/
theorem sourceOf_eq_iff {width side x px : Nat} (positive : 0 < side) (column : x < width)
    (inside : px < width * side) (y py : Nat) :
    sourceOf width side px py = y * width + x ↔ InSquare side x y px py := by
  have across : px / side < width := (Nat.div_lt_iff_lt_mul positive).mpr inside
  rw [inSquare_iff positive]
  constructor
  · intro same
    rw [sourceOf] at same
    obtain ⟨line, place⟩ := line_column_of_lt (py / side) across
    rw [same, (line_column_of_lt y column).1] at line
    rw [same, (line_column_of_lt y column).2] at place
    exact ⟨place.symm, line.symm⟩
  · rintro ⟨rfl, rfl⟩
    rfl

variable {w : Window} {width height side : Nat}

/-- Painting a square in a window that fits colours its pixels, and no other ones. -/
theorem Fits.paintSquare (fits : w.Fits width height side) {x y : Nat} (column : x < width)
    (line : y < height) (colour : Bool) :
    ∃ painted : Window, w.paintSquare x y colour = .ok painted
      ∧ ∀ px py, px < width * side → px < w.canvas.width → py < w.canvas.height →
        painted.canvas.pixel px py
          = if InSquare side x y px py then colour else w.canvas.pixel px py := by
  obtain ⟨row, place⟩ := line_column_of_lt y column
  have painted := paintSquare_of_fits fits (count_lt column line) colour
  rw [row, place] at painted
  refine ⟨_, painted, fun px py within hx hy => ?_⟩
  rw [pixel_withSquare _ colour fits.positive within hx hy]
  simp only [sourceOf_eq_iff fits.positive column within]

/-! ### All squares -/

/-- The colour of the cell at an index: the second one if all 32 bits of the cell are set, and
    the first one for any other value. -/
def colourAt (cells : Array Int) (index : Int) : Bool :=
  cells[cellPlace cells.size index]? == some 0xFFFFFFFF

/-- That is the colour in which the cell is painted. -/
theorem colourAt_eq {cells : Array Int} {index : Int} (has : HasCell cells.size index) :
    (cell? cells index == some cellOn) = colourAt cells index := by
  rw [cell?_eq, if_pos has]
  rfl

/-- Cells at natural numbers are counted from the start. -/
theorem colourAt_natCast (cells : Array Int) (k : Nat) :
    colourAt cells k = (cells[k]? == some cellOn) := rfl

/-- A window that was painted up to a pixel shows the cells of the pixels before it, and is as it
    was everywhere else. -/
theorem Painted.pixel_eq {cells : Array Int} {stride : Int} {before after : Window} {x y : Nat}
    (painted : Painted cells stride width side 0 (y * width + x) before after)
    (column : x < width)
    (has : ∀ x' < width, ∀ y' < height, Before x' y' x y → HasCell cells.size (y' * stride + x'))
    (columns : before.canvas.width = width * side) (lines : before.canvas.height = height * side)
    {px py : Nat} (hx : px < width * side) (hy : py < height * side) :
    after.canvas.pixel px py
      = if Before (px / side) (py / side) x y then
          colourAt cells ((py / side : Nat) * stride + (px / side : Nat))
        else before.canvas.pixel px py := by
  have positive : 0 < side := Nat.pos_of_mul_pos_left (Nat.zero_lt_of_lt hx)
  have across : px / side < width := (Nat.div_lt_iff_lt_mul positive).mpr hx
  have down : py / side < height := (Nat.div_lt_iff_lt_mul positive).mpr hy
  have earlier : 0 ≤ sourceOf width side px py ∧ sourceOf width side px py < y * width + x
      ↔ Before (px / side) (py / side) x y := by
    rw [sourceOf, count_lt_iff _ _ across column]
    exact and_iff_right (Nat.zero_le _)
  rw [painted.pixel px py hx (by omega) (by omega)]
  simp only [earlier]
  split
  · next before =>
    rw [sourceOf, cellIndex_of_lt _ _ across, colourAt_eq (has _ across _ down before)]
  · rfl

/-- A window shows cells: it is filled by squares that have the colours of their cells. -/
structure ShowsCells (w : Window) (cells : Array Int) (stride : Int) (width height side : Nat) :
    Prop where
  columns : w.canvas.width = width * side
  lines : w.canvas.height = height * side
  pixel : ∀ px py, px < width * side → py < height * side →
    w.canvas.pixel px py = colourAt cells ((py / side : Nat) * stride + (px / side : Nat))

/-- Two windows of one screen that show the same cells are the same. -/
theorem ShowsCells.unique {v w : Window} {cells : Array Int} {stride : Int}
    (shows : v.ShowsCells cells stride width height side)
    (shows' : w.ShowsCells cells stride width height side) (screen : v.screen = w.screen) :
    v = w := by
  refine ext_pixel screen (shows.columns.trans shows'.columns.symm)
    (shows.lines.trans shows'.lines.symm) fun x y hx hy => ?_
  rw [shows.columns] at hx
  rw [shows.lines] at hy
  rw [shows.pixel x y hx hy, shows'.pixel x y hx hy]

/-- A window that fits shows the cells of a display memory, of which none is missing, once it
    was brought up to date. -/
theorem Fits.update (fits : w.Fits width height side) (columns : w.canvas.width = width * side)
    (lines : w.canvas.height = height * side) (cells : Array Int) (pitch : Int)
    (has : ∀ x < width, ∀ y < height, HasCell cells.size (y * pitch.fdiv cellSize + x)) :
    ∃ after : Window, w.update cells pitch = (after, .ok ()) ∧ after.screen = w.screen
      ∧ after.ShowsCells cells (pitch.fdiv cellSize) width height side := by
  obtain ⟨after, updated, painted⟩ :=
    update_paints cells pitch fits (cell?_ne_none_of_hasCell has)
  refine ⟨after, updated, painted.screen, painted.columns.trans columns,
    painted.lines.trans lines, fun px py hx hy => ?_⟩
  -- All pixels come before the one that would be the first of a row below them.
  have down : py / side < height := (Nat.div_lt_iff_lt_mul fits.positive).mpr hy
  have someColumn : 0 < width := Nat.pos_of_mul_pos_right (Nat.zero_lt_of_lt hx)
  rw [Nat.mul_comm, ← Nat.add_zero (height * width)] at painted
  rw [painted.pixel_eq someColumn (fun x column y line _ => has x column y line) columns lines hx
    hy, if_pos (.inl down)]

/-- **Squares show their cells.**  A window that was opened to show squares, of a size within 32
    bits, is brought up to date with a display memory of which no cell is missing: every pixel
    gets the colour of the cell that it shows.  The squares fill the window and leave no gap, and
    painting one of them touches no other; what was shown before makes no difference, and doing it
    once more changes nothing. -/
theorem squares_show_their_cells (opened : w.Opened width height side)
    (small : Within32 width height side) (cells : Array Int) (pitch : Int)
    (has : ∀ x < width, ∀ y < height, HasCell cells.size (y * pitch.fdiv 4 + x)) :
    ∃ after : Window, w.update cells pitch = (after, .ok ())
      ∧ after.ShowsCells cells (pitch.fdiv 4) width height side
      ∧ (∀ px py, px < width * side → py < height * side →
        ∃! c : Nat × Nat, c.1 < width ∧ c.2 < height ∧ InSquare side c.1 c.2 px py)
      ∧ (∀ x < width, ∀ y < height,
        (∀ px py, InSquare side x y px py → px < width * side ∧ py < height * side)
          ∧ ∀ colour, ∃ painted : Window, w.paintSquare x y colour = .ok painted
            ∧ ∀ px py, px < width * side → py < height * side →
              painted.canvas.pixel px py
                = if InSquare side x y px py then colour else w.canvas.pixel px py)
      ∧ (∀ v : Window, v.screen = w.screen → v.canvas.width = w.canvas.width →
        v.canvas.height = w.canvas.height → v.update cells pitch = (after, .ok ()))
      ∧ after.update cells pitch = (after, .ok ()) := by
  have fits := opened.fits small
  have positive := fits.positive
  obtain ⟨columns, lines, -⟩ := opened.size small
  obtain ⟨after, updated, screen, shows⟩ := fits.update columns lines cells pitch has
  -- Whatever such a window shows, it comes to show the cells, and there is one window that does.
  have whatever : ∀ v : Window, v.screen = w.screen → v.canvas.width = w.canvas.width →
      v.canvas.height = w.canvas.height → v.update cells pitch = (after, .ok ()) := by
    intro v same width' height'
    obtain ⟨after', updated', screen', shows'⟩ :=
      (fits.of_screen same).update (width'.trans columns) (height'.trans lines) cells pitch has
    rw [updated', shows'.unique shows (screen'.trans (same.trans screen.symm))]
  refine ⟨after, updated, shows, fun px py => existsUnique_inSquare positive,
    fun x column y line => ⟨fun px py => inside_of_inSquare column line, fun colour => ?_⟩,
    whatever, whatever after screen (shows.columns.trans columns.symm)
      (shows.lines.trans lines.symm)⟩
  obtain ⟨painted, square, pixel⟩ := fits.paintSquare column line colour
  exact ⟨painted, square, fun px py hx hy => pixel px py hx (by omega) (by omega)⟩

/-- The theorem at rows that go backwards, so that the second one is found from the end, in a
    window that shows something else. -/
theorem rows_that_go_backwards_are_shown :
    let w : Window :=
      ⟨{ scale := 3, width := 2, height := 2 }, (Canvas.blank 6 6).fill 1 1 4 4 true⟩
    let cells : Array Int := #[0xFFFFFFFF, 0, 5, 0xFFFFFFFF]
    w.Opened 2 2 3 ∧ Within32 2 2 3
      ∧ (∀ x < (2 : Nat), ∀ y < (2 : Nat), HasCell cells.size (y * (-7 : Int).fdiv 4 + x))
      ∧ (w.update cells (-7)).1.canvas.pixel 2 4 = false
      ∧ (w.update cells (-7)).1.canvas.pixel 4 4 = true := by
  intro w cells
  have opened : w.Opened 2 2 3 :=
    ⟨rfl, rfl, rfl, by decide, ⟨w.screen, .blank 6 6⟩, rfl, rfl, rfl⟩
  have small : Within32 2 2 3 := by decide
  have has : ∀ x < (2 : Nat), ∀ y < (2 : Nat), HasCell cells.size (y * (-7 : Int).fdiv 4 + x) := by
    decide
  obtain ⟨after, updated, shows, -⟩ := squares_show_their_cells opened small cells (-7) has
  rw [updated]
  exact ⟨opened, small, has, shows.pixel 2 4 (by decide) (by decide),
    shows.pixel 4 4 (by decide) (by decide)⟩

end Window

end ChipEight
