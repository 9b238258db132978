import ChipEight.Window

namespace ChipEight

/-!
# Painting a display memory

What a window shows once a display memory was painted on it, pixel by pixel.

* `Measure.Exact` — the window system takes numbers up to a limit as they are;
* `Window.Fits` — the window is to show squares of which the window system takes every
  place and size as it is;
* `Window.sourceOf` — the pixel of the display memory that a pixel of the window shows;
* `Window.fill_square_iff` — the square of a pixel covers what shows that pixel;
* `Window.showFrom_paints` — hence painting some pixels gives each of their squares the
  colour of its cell, and leaves the rest of the window as it was;
* `Window.showFrom_add`, `Window.showFrom_of_missing` — some pixels are painted before the rest,
  and the first one without a cell ends it;
* `Window.Placeable` — nothing else ends it in a window whose size the window system takes, be
  it as it is or not.
-/

/-! ### Measures and canvases -/

/-- The window system takes every number from zero up to a limit as it is. -/
def Measure.Exact (limit : Int) : Prop := ∀ n : Int, 0 ≤ n → n ≤ limit → ofInt? n = some n

/-- It does up to any limit that 32 bits hold. -/
theorem Measure.exact_of_lt {limit : Int} (small : limit < 0x80000000) : Exact limit :=
  fun _ low high => ofInt?_of_small (by omega) (by omega)

/-- The window system can be handed a multiple of a number of which it can be handed a larger
    one. -/
theorem Measure.fits_mul {x limit scale : Int} (low : 0 ≤ x) (high : x ≤ limit)
    (fit : fits (limit * scale) = true) : fits (x * scale) = true := by
  simp only [fits, Bool.and_eq_true, decide_eq_true_eq] at fit ⊢
  rcases Int.le_total 0 scale with up | down
  · have below : x * scale ≤ limit * scale := Int.mul_le_mul_of_nonneg_right high up
    have above : 0 ≤ x * scale := Int.mul_nonneg low up
    omega
  · have above : limit * scale ≤ x * scale := Int.mul_le_mul_of_nonpos_right high down
    have below : x * scale ≤ 0 := Int.mul_nonpos_of_nonneg_of_nonpos low down
    omega

/-- Canvases of one size with the same pixels are the same. -/
theorem Canvas.ext_pixel {c d : Canvas} (width : c.width = d.width) (height : c.height = d.height)
    (same : ∀ x y, x < c.width → y < c.height → c.pixel x y = d.pixel x y) : c = d := by
  obtain ⟨columns, lines, rows⟩ := c
  obtain ⟨_, _, rows'⟩ := d
  obtain rfl : columns = _ := width
  obtain rfl : lines = _ := height
  congr 1
  apply Vector.ext
  intro y hy
  apply BitVec.eq_of_getMsbD_eq
  intro x hx
  have pixels := same x y hx hy
  simpa only [pixel, bit, Vector.getElem?_eq_getElem hy, Option.any_some] using pixels

/-- A screen of some columns and rows has as many pixels as they have together. -/
theorem Screen.size_eq {s : Screen} {width height : Nat} (columns : s.width = width)
    (lines : s.height = height) : s.size = width * height := by
  rw [size, columns, lines, Int.toNat_natCast, Int.toNat_natCast]

namespace Window

/-- Windows of one screen that have one size and the same pixels are the same. -/
theorem ext_pixel {v w : Window} (screen : v.screen = w.screen)
    (width : v.canvas.width = w.canvas.width) (height : v.canvas.height = w.canvas.height)
    (same : ∀ x y, x < v.canvas.width → y < v.canvas.height →
      v.canvas.pixel x y = w.canvas.pixel x y) : v = w := by
  have canvas := Canvas.ext_pixel width height same
  obtain ⟨_, _⟩ := v
  obtain ⟨_, _⟩ := w
  obtain rfl : _ = _ := screen
  obtain rfl : _ = _ := canvas
  rfl

/-! ### Squares -/

/-- A window that is to show `width` by `height` squares, of which the window system
    takes every place and size as it is. -/
structure Fits (w : Window) (width height side : Nat) : Prop where
  columns : w.screen.width = width
  lines : w.screen.height = height
  scale : w.screen.scale = side
  positive : 0 < side
  wide : Measure.Exact (width * side : Nat)
  high : Measure.Exact (height * side : Nat)

/-- What a window is to show is up to its screen. -/
theorem Fits.of_screen {v w : Window} {width height side : Nat} (fits : v.Fits width height side)
    (same : w.screen = v.screen) : w.Fits width height side :=
  ⟨same ▸ fits.columns, same ▸ fits.lines, same ▸ fits.scale, fits.positive, fits.wide,
    fits.high⟩

/-- The pixel of the display memory that a pixel of the window shows, counted row by
    row. -/
def sourceOf (width side px py : Nat) : Nat := py / side * width + px / side

/-- The index of the cell of a pixel, when a row starts `stride` cells after the one
    above it. -/
def cellIndex (width : Nat) (stride : Int) (k : Nat) : Int :=
  (k / width : Nat) * stride + (k % width : Nat)

/-- The square of a pixel covers those pixels of the window that show it. -/
theorem fill_square_iff {width side px py : Nat} (k : Nat) (positive : 0 < side)
    (inside : px < width * side) :
    ((k % width : Nat) * (side : Int) ≤ px ∧ (px : Int) < (k % width : Nat) * side + side
        ∧ (k / width : Nat) * (side : Int) ≤ py ∧ (py : Int) < (k / width : Nat) * side + side)
      ↔ sourceOf width side px py = k := by
  -- Column and row apart: a quotient by the side is `q` between `q` and `q + 1` times the side.
  have column : px / side < width := (Nat.div_lt_iff_lt_mul positive).mpr inside
  have across : px / side = k % width
      ↔ (k % width) * side ≤ px ∧ px < (k % width) * side + side := by
    rw [Nat.div_eq_iff positive]
    omega
  have down : py / side = k / width
      ↔ (k / width) * side ≤ py ∧ py < (k / width) * side + side := by
    rw [Nat.div_eq_iff positive]
    omega
  have place : sourceOf width side px py = k ↔ px / side = k % width ∧ py / side = k / width := by
    constructor
    · intro same
      have sum : px / side + width * (py / side) = k := by
        rw [← same, sourceOf, Nat.mul_comm, Nat.add_comm]
      obtain ⟨down, across⟩ := (Nat.div_mod_unique (Nat.zero_lt_of_lt column)).mpr ⟨sum, column⟩
      exact ⟨across.symm, down.symm⟩
    · rintro ⟨across, down⟩
      rw [sourceOf, across, down]
      exact Nat.div_add_mod' k width
  rw [place, across, down]
  norm_cast
  omega

/-! ### Painting -/

/-- A window after painting the square of a pixel. -/
def withSquare (w : Window) (width side k : Nat) (colour : Bool) : Window :=
  { w with
    canvas := w.canvas.fill ((k % width : Nat) * (side : Int)) ((k / width : Nat) * (side : Int))
      side side colour }

/-- A window that fits has every square painted as it should be. -/
theorem paintSquare_of_fits {w : Window} {width height side : Nat}
    (fits : w.Fits width height side) {k : Nat} (inside : k < width * height) (colour : Bool) :
    w.paintSquare (k % width : Nat) (k / width : Nat) colour
      = .ok (w.withSquare width side k colour) := by
  have column : k % width < width := Nat.mod_lt k (Nat.pos_of_ne_zero fun none => by
    simp [none] at inside)
  have line : k / width < height := Nat.div_lt_of_lt_mul inside
  have left : (k % width + 1) * side ≤ width * side := Nat.mul_le_mul_right side column
  have top : (k / width + 1) * side ≤ height * side := Nat.mul_le_mul_right side line
  rw [Nat.add_mul, Nat.one_mul] at left top
  -- The square lies within the window, so its places and its size are within the limits.
  have leftExact := fits.wide (k % width * side : Nat) (by omega) (by omega)
  have topExact := fits.high (k / width * side : Nat) (by omega) (by omega)
  have sideExact := fits.wide side (by omega) (by omega)
  rw [Int.natCast_mul] at leftExact topExact
  simp only [paintSquare, fits.scale, leftExact, topExact, sideExact, withSquare]

/-- Painting a square colours the pixels that show its pixel, and no other one. -/
theorem pixel_withSquare {w : Window} {width side px py : Nat} (k : Nat) (colour : Bool)
    (positive : 0 < side) (inside : px < width * side) (hx : px < w.canvas.width)
    (hy : py < w.canvas.height) :
    (w.withSquare width side k colour).canvas.pixel px py
      = if sourceOf width side px py = k then colour else w.canvas.pixel px py := by
  rw [withSquare, Canvas.pixel_fill _ _ _ _ _ _ hx hy]
  simp only [fill_square_iff k positive inside]

/-! ### Display memories -/

/-- A window on which the pixels of a display memory from `first` up to `last`, which is
    left out, were painted. -/
structure Painted (cells : Array Int) (stride : Int) (width side first last : Nat)
    (before after : Window) : Prop where
  screen : after.screen = before.screen
  columns : after.canvas.width = before.canvas.width
  lines : after.canvas.height = before.canvas.height
  pixel : ∀ px py, px < width * side → px < before.canvas.width → py < before.canvas.height →
    after.canvas.pixel px py
      = if first ≤ sourceOf width side px py ∧ sourceOf width side px py < last then
          cell? cells (cellIndex width stride (sourceOf width side px py)) == some cellOn
        else before.canvas.pixel px py

/-- A pixel whose cell is there is painted before the others. -/
theorem showFrom_of_cell (cells : Array Int) (stride : Int) {width count k : Nat}
    {w painted : Window} {cell : Int} (columns : w.screen.width = width)
    (found : cell? cells (cellIndex width stride k) = some cell)
    (square : w.paintSquare (k % width : Nat) (k / width : Nat) (cell == cellOn) = .ok painted) :
    showFrom cells stride (count + 1) k w = showFrom cells stride count (k + 1) painted := by
  have column : (k : Int) % w.screen.width = (k % width : Nat) := by
    rw [columns, Int.natCast_emod]
  have line : (k : Int) / w.screen.width = (k / width : Nat) := by
    rw [columns, Int.natCast_ediv]
  rw [cellIndex] at found
  simp only [showFrom, column, line, found, square]

/-- A pixel whose cell is missing ends the painting. -/
theorem showFrom_of_missing (cells : Array Int) (stride : Int) {width count k : Nat} {w : Window}
    (columns : w.screen.width = width) (missing : cell? cells (cellIndex width stride k) = none) :
    showFrom cells stride (count + 1) k w
      = (w, .error (.noCell (cellIndex width stride k))) := by
  have column : (k : Int) % w.screen.width = (k % width : Nat) := by
    rw [columns, Int.natCast_emod]
  have line : (k : Int) / w.screen.width = (k / width : Nat) := by
    rw [columns, Int.natCast_ediv]
  rw [cellIndex] at missing ⊢
  simp only [showFrom, column, line, missing]

/-- Some pixels that could be painted come before the rest. -/
theorem showFrom_add {cells : Array Int} {stride : Int} {first k : Nat} {w v : Window}
    (shown : showFrom cells stride first k w = (v, .ok ())) (rest : Nat) :
    showFrom cells stride (first + rest) k w = showFrom cells stride rest (k + first) v := by
  induction first generalizing k w with
  | zero =>
    obtain rfl : w = v := congrArg Prod.fst shown
    rw [Nat.zero_add]
    rfl
  | succ first ih =>
    have behind : k + (first + 1) = k + 1 + first := by omega
    rw [Nat.add_right_comm, behind]
    simp only [showFrom] at shown ⊢
    -- A pixel that could not be painted would have ended it.
    split at shown
    · exact nomatch congrArg Prod.snd shown
    · split at shown
      · exact nomatch congrArg Prod.snd shown
      · exact ih shown

/-- The first of some pixels is painted before the others. -/
theorem showFrom_succ (cells : Array Int) (stride : Int) {width height side count k : Nat}
    {w : Window} {cell : Int} (fits : w.Fits width height side) (inside : k < width * height)
    (found : cell? cells (cellIndex width stride k) = some cell) :
    showFrom cells stride (count + 1) k w
      = showFrom cells stride count (k + 1) (w.withSquare width side k (cell == cellOn)) :=
  showFrom_of_cell cells stride fits.columns found (paintSquare_of_fits fits inside _)

/-- **Painting.** Pixels whose cells are there are painted, each on its own square. -/
theorem showFrom_paints (cells : Array Int) (stride : Int) {width height side : Nat}
    (count k : Nat) {w : Window} (fits : w.Fits width height side)
    (inside : k + count ≤ width * height)
    (found : ∀ j < k + count, cell? cells (cellIndex width stride j) ≠ none) :
    ∃ after, showFrom cells stride count k w = (after, .ok ())
      ∧ Painted cells stride width side k (k + count) w after := by
  induction count generalizing k w with
  | zero =>
    refine ⟨w, rfl, rfl, rfl, rfl, fun px py _ _ _ => ?_⟩
    rw [if_neg (by omega)]
  | succ count ih =>
    -- The first pixel is painted on `w`, the others on the window that this leaves.
    obtain ⟨cell, cellAt⟩ := Option.ne_none_iff_exists'.mp (found k (by omega))
    obtain ⟨after, shown, painted⟩ := ih (k + 1) (w := w.withSquare width side k (cell == cellOn))
      (fits.of_screen rfl) (by omega) (fun j hj => found j (by omega))
    refine ⟨after, ?_, painted.screen, painted.columns, painted.lines,
      fun px py inside hx hy => ?_⟩
    · rw [showFrom_succ cells stride fits (by omega) cellAt, shown]
    · rw [painted.pixel px py inside hx hy, pixel_withSquare k _ fits.positive inside hx hy]
      by_cases here : sourceOf width side px py = k
      · -- This is the pixel painted first, and no later one covers its square.
        rw [if_neg (by omega), if_pos here, if_pos (by omega), here, cellAt]
        rfl
      · rw [if_neg here]
        congr 1
        apply propext
        omega

/-- A pixel in one of the columns and one of the rows is one of the pixels. -/
theorem count_lt {width height x y : Nat} (column : x < width) (line : y < height) :
    y * width + x < width * height := by
  have rows : (y + 1) * width ≤ height * width := Nat.mul_le_mul_right width line
  rw [Nat.add_mul, Nat.one_mul] at rows
  rw [Nat.mul_comm width height]
  omega

/-- A display memory of which no cell is missing is painted as a whole. -/
theorem update_paints (cells : Array Int) (pitch : Int) {width height side : Nat} {w : Window}
    (fits : w.Fits width height side)
    (found : ∀ k < width * height, cell? cells (cellIndex width (pitch.fdiv cellSize) k) ≠ none) :
    ∃ after, w.update cells pitch = (after, .ok ())
      ∧ Painted cells (pitch.fdiv cellSize) width side 0 (width * height) w after := by
  have painted := showFrom_paints cells (pitch.fdiv cellSize) (width * height) 0 fits
    (Nat.le_of_eq (Nat.zero_add _)) fun k hk => found k (by omega)
  rw [Nat.zero_add] at painted
  rwa [update, Screen.size_eq fits.columns fits.lines]

/-! ### Windows of any size -/

/-- A window that is to show `width` by `height` squares, none of whose places is too large for
    the window system. -/
structure Placeable (w : Window) (width height : Nat) : Prop where
  columns : w.screen.width = width
  lines : w.screen.height = height
  across : Measure.fits (width * w.screen.scale) = true
  down : Measure.fits (height * w.screen.scale) = true

/-- Which windows are is up to their screens. -/
theorem Placeable.of_screen {v w : Window} {width height : Nat}
    (placeable : v.Placeable width height) (same : w.screen = v.screen) :
    w.Placeable width height :=
  ⟨same ▸ placeable.columns, same ▸ placeable.lines, same ▸ placeable.across,
    same ▸ placeable.down⟩

/-- Every square of it can be painted. -/
theorem Placeable.paintSquare {w : Window} {width height k : Nat}
    (placeable : w.Placeable width height) (inside : k < width * height) (colour : Bool) :
    ∃ painted : Window, w.paintSquare (k % width : Nat) (k / width : Nat) colour = .ok painted
      ∧ painted.screen = w.screen := by
  have some : 0 < width := Nat.pos_of_ne_zero fun none => by simp [none] at inside
  have column : k % width < width := Nat.mod_lt k some
  have line : k / width < height := Nat.div_lt_of_lt_mul inside
  have left := Measure.fits_mul (Int.natCast_nonneg (k % width))
    (Int.ofNat_le.mpr (Nat.le_of_lt column)) placeable.across
  have top := Measure.fits_mul (Int.natCast_nonneg (k / width))
    (Int.ofNat_le.mpr (Nat.le_of_lt line)) placeable.down
  have side := Measure.fits_mul (x := 1) (by omega) (by omega) placeable.across
  rw [Int.one_mul] at side
  simp only [Window.paintSquare, Measure.ofInt?, left, top, side, if_true]
  exact ⟨_, rfl, rfl⟩

/-- So can the squares of all pixels whose cells are there. -/
theorem Placeable.showFrom (cells : Array Int) (stride : Int) {width height : Nat} (count k : Nat)
    {w : Window} (placeable : w.Placeable width height) (inside : k + count ≤ width * height)
    (found : ∀ j < k + count, cell? cells (cellIndex width stride j) ≠ none) :
    ∃ shown : Window, Window.showFrom cells stride count k w = (shown, .ok ())
      ∧ shown.screen = w.screen := by
  induction count generalizing k w with
  | zero => exact ⟨w, rfl, rfl⟩
  | succ count ih =>
    obtain ⟨cell, cellAt⟩ := Option.ne_none_iff_exists'.mp (found k (by omega))
    obtain ⟨painted, square, same⟩ := placeable.paintSquare (k := k) (by omega) (cell == cellOn)
    obtain ⟨shown, rest, screen⟩ :=
      ih (k + 1) (placeable.of_screen same) (by omega) fun j hj => found j (by omega)
    refine ⟨shown, ?_, screen.trans same⟩
    rw [showFrom_of_cell cells stride placeable.columns cellAt square]
    exact rest

/-- So can a display memory of which no cell is missing. -/
theorem Placeable.update (cells : Array Int) (pitch : Int) {width height : Nat} {w : Window}
    (placeable : w.Placeable width height)
    (found : ∀ k < width * height, cell? cells (cellIndex width (pitch.fdiv cellSize) k) ≠ none) :
    ∃ shown : Window, w.update cells pitch = (shown, .ok ()) ∧ shown.screen = w.screen := by
  rw [Window.update, Screen.size_eq placeable.columns placeable.lines]
  exact placeable.showFrom cells _ (width * height) 0 (Nat.le_of_eq (Nat.zero_add _))
    fun k hk => found k (by omega)

end Window

end ChipEight
