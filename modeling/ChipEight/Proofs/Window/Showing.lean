import ChipEight.Proofs.Picture
import ChipEight.Proofs.Window.Tiling

namespace ChipEight

/-!
# Showing the picture of the machine

* `Window.Shows` — every pixel of a window has the colour of the cell that it shows;
* `Window.update_shows` — painting the picture makes the window show it, whatever it
  showed before;
* `Window.update_of_shows` — a window that shows it already is left as it is.
-/

namespace Window

/-- A window of squares shows a picture: it has the size of the picture, and each of its
    pixels has the second colour exactly if the cell that it shows is on. -/
structure Shows (w : Window) (p : Picture) (side : Nat) : Prop where
  columns : w.canvas.width = 64 * side
  lines : w.canvas.height = 32 * side
  pixel : ∀ px py, px < 64 * side → py < 32 * side →
    w.canvas.pixel px py = (p.cells[py / side * 64 + px / side]? == some cellOn)

/-- Two windows of one screen that show the same picture are the same. -/
theorem Shows.unique {v w : Window} {p : Picture} {side : Nat} (shows : v.Shows p side)
    (shows' : w.Shows p side) (screen : v.screen = w.screen) : v = w := by
  refine ext_pixel screen (shows.columns.trans shows'.columns.symm)
    (shows.lines.trans shows'.lines.symm) fun x y hx hy => ?_
  rw [shows.columns] at hx
  rw [shows.lines] at hy
  rw [shows.pixel x y hx hy, shows'.pixel x y hx hy]

/-- The rows of the machine's display memory have no gaps between them. -/
theorem stride_standardPitch : standardPitch.fdiv cellSize = 64 := by decide

/-- No cell of the machine's display memory is missing. -/
theorem hasCell_cells (p : Picture) (x : Nat) (column : x < 64) (y : Nat) (line : y < 32) :
    HasCell p.cells.size (y * standardPitch.fdiv cellSize + x) := by
  rw [stride_standardPitch, Picture.size_cells, HasCell]
  omega

/-- **Painting the picture** makes a window of its size show it. -/
theorem update_shows {w : Window} {side : Nat} (fits : w.Fits 64 32 side)
    (columns : w.canvas.width = 64 * side) (lines : w.canvas.height = 32 * side) (p : Picture) :
    ∃ after, w.update p.cells = (after, .ok ()) ∧ after.screen = w.screen
      ∧ after.Shows p side := by
  obtain ⟨after, updated, screen, shows⟩ :=
    fits.update columns lines p.cells standardPitch (hasCell_cells p)
  refine ⟨after, updated, screen, shows.columns, shows.lines, fun px py hx hy => ?_⟩
  rw [shows.pixel px py hx hy, stride_standardPitch]
  exact colourAt_natCast p.cells (py / side * 64 + px / side)

/-- A window that shows the picture already is not changed by painting it. -/
theorem update_of_shows {w : Window} {p : Picture} {side : Nat} (fits : w.Fits 64 32 side)
    (shows : w.Shows p side) : (w.update p.cells).1 = w := by
  obtain ⟨after, updated, screen, shows'⟩ := update_shows fits shows.columns shows.lines p
  rw [updated]
  exact shows'.unique shows screen

/-- A blank window of the right size shows the blank picture. -/
theorem shows_blank (s : Screen) {side : Nat} (positive : 0 < side) :
    Shows ⟨s, .blank (64 * side) (32 * side)⟩ .blank side := by
  refine ⟨rfl, rfl, fun px py hx hy => ?_⟩
  have column : px / side < 64 := (Nat.div_lt_iff_lt_mul positive).mpr hx
  have line : py / side < 32 := (Nat.div_lt_iff_lt_mul positive).mpr hy
  have off := Picture.getElem?_cells .blank ⟨px / side, column⟩ ⟨py / side, line⟩
  rw [Array.getElem?_toList, Picture.pixel_blank] at off
  rw [Canvas.pixel_blank, off]
  decide

end Window

end ChipEight
