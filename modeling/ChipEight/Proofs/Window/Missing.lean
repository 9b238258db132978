import ChipEight.Display
import ChipEight.Proofs.Window.Tiling
import Mathlib.Data.Nat.Find

namespace ChipEight

/-!
# Display memories with missing cells

* `Window.lacks_iff` — whether a cell is missing is told by the pixels in the corners;
* `Window.FirstLacking`, `Window.exists_first_lacking` — if one is, there is a first one, row by
  row;
* `Window.FirstLacking.snd_update` — it ends the painting;
* `Window.FirstLacking.update_paints` — what was painted until then;
* `Window.missing_cells_end_the_painting` — hence when bringing a window up to date fails, and
  what the window shows then.
-/

namespace Window

/-! ### Corners -/

/-- A multiple of a number lies between zero and a larger multiple. -/
theorem mul_between {y limit : Int} (low : 0 ≤ y) (high : y ≤ limit) (stride : Int) :
    min 0 (limit * stride) ≤ y * stride ∧ y * stride ≤ max 0 (limit * stride) := by
  rcases Int.le_total 0 stride with up | down
  · have below := Int.mul_le_mul_of_nonneg_right high up
    have above := Int.mul_nonneg low up
    omega
  · have below := Int.mul_le_mul_of_nonpos_right high down
    have above := Int.mul_nonpos_of_nonneg_of_nonpos low down
    omega

/-- The cell of some pixel is missing. -/
def Lacks (size : Nat) (stride : Int) (width height : Nat) : Prop :=
  ∃ x < width, ∃ y < height, ¬ HasCell size (y * stride + x)

/-- **The corners tell.**  The largest index is that of the last pixel of the first or of the last
    row, and the smallest one that of the first pixel of the first or of the last row. -/
theorem lacks_iff {width height : Nat} (positive : 0 < width ∧ 0 < height) (size : Nat)
    (stride : Int) :
    Lacks size stride width height
      ↔ (size : Int) ≤ max ((width : Int) - 1) ((height - 1) * stride + (width - 1))
        ∨ min 0 ((height - 1) * stride) < -(size : Int) := by
  obtain ⟨someColumn, someLine⟩ := positive
  have lastLine : ((height - 1 : Nat) : Int) = height - 1 := by omega
  constructor
  · rintro ⟨x, column, y, line, missing⟩
    have between := mul_between (Int.natCast_nonneg y) (by omega : (y : Int) ≤ height - 1) stride
    unfold HasCell at missing
    omega
  · rintro (above | below)
    · by_cases first : (size : Int) ≤ width - 1
      · refine ⟨width - 1, by omega, 0, someLine, ?_⟩
        unfold HasCell
        omega
      · refine ⟨width - 1, by omega, height - 1, by omega, ?_⟩
        rw [lastLine]
        unfold HasCell
        omega
    · refine ⟨0, someColumn, height - 1, by omega, ?_⟩
      rw [lastLine]
      unfold HasCell
      omega

/-! ### The first missing cell -/

/-- The cell of a pixel is the first one that is missing. -/
structure FirstLacking (size : Nat) (stride : Int) (width height x y : Nat) : Prop where
  column : x < width
  line : y < height
  missing : ¬ HasCell size (y * stride + x)
  earlier : ∀ x' < width, ∀ y' < height, Before x' y' x y → HasCell size (y' * stride + x')

/-- If some cell is missing there is a first one. -/
theorem exists_first_lacking {size : Nat} {stride : Int} {width height : Nat}
    (lacks : Lacks size stride width height) :
    ∃ x y, FirstLacking size stride width height x y := by
  classical
  obtain ⟨x, column, y, line, missing⟩ := lacks
  have some : ∃ k, ∃ x < width, ∃ y < height, k = y * width + x
      ∧ ¬ HasCell size (y * stride + x) := ⟨_, x, column, y, line, rfl, missing⟩
  obtain ⟨x, column, y, line, least, missing⟩ := Nat.find_spec some
  refine ⟨x, y, column, line, missing, fun x' column' y' line' before => ?_⟩
  have less := (count_lt_iff y' y column' column).mpr before
  rw [← least] at less
  have found := Nat.find_min some less
  push Not at found
  exact found x' column' y' line' rfl

namespace FirstLacking

variable {cells : Array Int} {pitch : Int} {width height side x y : Nat} {w : Window}
  (first : FirstLacking cells.size (pitch.fdiv cellSize) width height x y)

include first

/-- It is the cell of one of the pixels. -/
theorem inside : y * width + x < width * height := count_lt first.column first.line

/-- All cells before it are there. -/
theorem found (k : Nat) (earlier : k < y * width + x) :
    cell? cells (cellIndex width (pitch.fdiv cellSize) k) ≠ none := by
  have column : k % width < width := Nat.mod_lt k (Nat.zero_lt_of_lt first.column)
  have line : k / width < height :=
    Nat.div_lt_of_lt_mul (Nat.lt_trans earlier first.inside)
  have before : Before (k % width) (k / width) x y := by
    refine (count_lt_iff _ _ column first.column).mp ?_
    rwa [Nat.div_add_mod']
  rw [ne_eq, cell?_eq_none_iff, Decidable.not_not]
  exact first.earlier _ column _ line before

/-- It ends the painting, and what was painted before stays. -/
theorem update_of_shown {before : Window} (columns : w.screen.width = width)
    (lines : w.screen.height = height) (screen : before.screen = w.screen)
    (shown : showFrom cells (pitch.fdiv cellSize) (y * width + x) 0 w = (before, .ok ())) :
    w.update cells pitch = (before, .error (.noCell (y * pitch.fdiv cellSize + x))) := by
  obtain ⟨rest, all⟩ := Nat.exists_eq_add_of_lt first.inside
  have index := cellIndex_of_lt (pitch.fdiv cellSize) y first.column
  have missing : cell? cells (cellIndex width (pitch.fdiv cellSize) (y * width + x)) = none := by
    rw [cell?_eq_none_iff, index]
    exact first.missing
  rw [update, Screen.size_eq columns lines, all, Nat.add_assoc, showFrom_add shown, Nat.zero_add,
    showFrom_of_missing cells _ (screen ▸ columns) missing, index]

/-- In a window of any size it does. -/
theorem snd_update (placeable : w.Placeable width height) :
    (w.update cells pitch).2 = .error (.noCell (y * pitch.fdiv cellSize + x)) := by
  obtain ⟨before, shown, screen⟩ := placeable.showFrom cells (pitch.fdiv cellSize)
    (y * width + x) 0 (by rw [Nat.zero_add]; exact Nat.le_of_lt first.inside)
    (by rw [Nat.zero_add]; exact first.found)
  rw [first.update_of_shown placeable.columns placeable.lines screen shown]

/-- In a window that fits, the squares before it are painted by then. -/
theorem update_paints (fits : w.Fits width height side) :
    ∃ before : Window,
      w.update cells pitch = (before, .error (.noCell (y * pitch.fdiv cellSize + x)))
        ∧ Painted cells (pitch.fdiv cellSize) width side 0 (y * width + x) w before := by
  obtain ⟨before, shown, painted⟩ := showFrom_paints cells (pitch.fdiv cellSize)
    (y * width + x) 0 fits (by rw [Nat.zero_add]; exact Nat.le_of_lt first.inside)
    (by rw [Nat.zero_add]; exact first.found)
  rw [Nat.zero_add] at painted
  exact ⟨before, first.update_of_shown fits.columns fits.lines painted.screen shown, painted⟩

end FirstLacking

/-! ### All of it -/

variable {w : Window} {width height side : Nat}

/-- **Missing cells end the painting.**  Bringing an opened window up to date fails for the lack of
    a cell exactly if the indexes in the corners are too large or too small, and for no other
    reason.  The cell is then the first one that is missing, row by row.  If the window is of a size
    within 32 bits, the squares before it have the colours of their cells by then, and all others
    are as they were. -/
theorem missing_cells_end_the_painting (opened : w.Opened width height side) (cells : Array Int)
    (pitch : Int) :
    let stride := pitch.fdiv 4
    let shown := w.update cells pitch
    ((∃ index, shown.2 = .error (.noCell index))
        ↔ (cells.size : Int) ≤ max ((width : Int) - 1) ((height - 1) * stride + (width - 1))
          ∨ min 0 ((height - 1) * stride) < -(cells.size : Int))
      ∧ ∀ fault, shown.2 = .error fault →
        ∃ x y, FirstLacking cells.size stride width height x y
          ∧ fault = .noCell (y * stride + x)
          ∧ (Within32 width height side →
            shown.1.canvas.width = width * side ∧ shown.1.canvas.height = height * side
              ∧ ∀ px py, px < width * side → py < height * side →
                shown.1.canvas.pixel px py
                  = if Before (px / side) (py / side) x y then
                      colourAt cells ((py / side : Nat) * stride + (px / side : Nat))
                    else w.canvas.pixel px py) := by
  intro stride shown
  rw [← lacks_iff ⟨opened.positive.1, opened.positive.2.1⟩]
  by_cases lacks : Lacks cells.size stride width height
  · obtain ⟨x, y, first⟩ := exists_first_lacking lacks
    have failed : shown.2 = .error (.noCell (y * stride + x)) :=
      first.snd_update opened.placeable
    refine ⟨iff_of_true ⟨_, failed⟩ lacks, fun fault fails => ?_⟩
    refine ⟨x, y, first, Except.error.inj (fails.symm.trans failed), fun small => ?_⟩
    obtain ⟨columns, lines, -⟩ := opened.size small
    have fits := opened.fits small
    obtain ⟨before, stopped, painted⟩ : ∃ before : Window, w.update cells pitch = (before, _)
        ∧ Painted cells stride width side 0 (y * width + x) w before := first.update_paints fits
    have after : shown.1 = before := congrArg Prod.fst stopped
    rw [after]
    exact ⟨painted.columns.trans columns, painted.lines.trans lines, fun px py =>
      painted.pixel_eq first.column first.earlier columns lines⟩
  · have has : ∀ x < width, ∀ y < height, HasCell cells.size (y * stride + x) := by
      intro x column y line
      by_contra missing
      exact lacks ⟨x, column, y, line, missing⟩
    obtain ⟨after, shows, -⟩ :=
      opened.placeable.update cells pitch (cell?_ne_none_of_hasCell has)
    have done : shown.2 = .ok () := congrArg Prod.snd shows
    rw [done]
    exact ⟨iff_of_false (fun ⟨_, fails⟩ => nomatch fails) lacks, fun _ fails => nomatch fails⟩

/-- The theorem at rows that go backwards beyond the start of the display memory: the first row is
    painted, and the second one is as it was. -/
theorem rows_before_the_start_are_not_painted :
    let w : Window :=
      ⟨{ scale := 2, width := 2, height := 2 }, (Canvas.blank 4 4).fill 1 1 2 2 true⟩
    let cells : Array Int := #[0, 0xFFFFFFFF]
    w.Opened 2 2 2 ∧ Within32 2 2 2
      ∧ ∃ index, (w.update cells (-9)).2 = .error (.noCell index)
        ∧ ∃ x y, FirstLacking cells.size ((-9 : Int).fdiv 4) 2 2 x y
          ∧ index = y * (-9 : Int).fdiv 4 + x
          ∧ ∀ px py, px < 4 → py < 4 →
            (w.update cells (-9)).1.canvas.pixel px py
              = if Before (px / 2) (py / 2) x y then
                  colourAt cells ((py / 2 : Nat) * (-9 : Int).fdiv 4 + (px / 2 : Nat))
                else w.canvas.pixel px py := by
  intro w cells
  have opened : w.Opened 2 2 2 :=
    ⟨rfl, rfl, rfl, by decide, ⟨w.screen, .blank 4 4⟩, rfl, rfl, rfl⟩
  have small : Within32 2 2 2 := by decide
  obtain ⟨fails, first⟩ := missing_cells_end_the_painting opened cells (-9)
  obtain ⟨index, failed⟩ := fails.mpr (by decide)
  obtain ⟨x, y, lacking, fault, painted⟩ := first _ failed
  exact ⟨opened, small, index, failed, x, y, lacking, Window.Fault.noCell.inj fault,
    (painted small).2.2⟩

/-- Beyond 32 bits it is different.  A square is cut short in a window that opens, since the
    window system has no more bits for its sides, so a pixel of it has not the colour of its cell.
    A window that is too large does not open, and then it is not a cell that is found missing. -/
theorem squares_beyond_32_bits_are_cut_short :
    (let w : Window := ⟨{ scale := 0x100000001, width := 2, height := 1 }, .blank 2 1⟩
      let cells : Array Int := #[0xFFFFFFFF]
      w.Opened 2 1 0x100000001 ∧ (w.update cells 8).2 = .error (.noCell 1)
        ∧ Before 0 0 1 0 ∧ InSquare 0x100000001 0 0 1 0 ∧ 1 < w.canvas.width
        ∧ colourAt cells 0 = true ∧ (w.update cells 8).1.canvas.pixel 1 0 = false)
      ∧ let s : Screen := { scale := 257 }
        let cells : Array Int := #[0]
        (Display.off.start s).1 = .bare
          ∧ (cells.size : Int)
            ≤ max (s.width - 1) ((s.height - 1) * (256 : Int).fdiv 4 + (s.width - 1))
          ∧ (Display.bare.refresh s cells 256).2 = .error .closed := by
  refine ⟨⟨?opened, rfl, ?before, ?square, ?inside, rfl, rfl⟩, rfl, ?lacking, rfl⟩
  case opened =>
    exact ⟨rfl, rfl, rfl, by decide, ⟨{ scale := 0x100000001, width := 2, height := 1 },
      .blank 2 1⟩, rfl, rfl, rfl⟩
  case before => decide
  case square => decide
  case inside => decide
  case lacking => decide

end Window

end ChipEight
