import ChipEight.Log
import ChipEight.Picture
import ChipEight.Window.Canvas
import ChipEight.Window.Measure

namespace ChipEight

/-!
# Windows

A display memory is shown in a window, in which each of its pixels is a square.

* `Screen` — what a window should be: the size of the display memory, the side of
  a square and the caption;
* `Screen.openWindow` — the window of a screen, all in the first colour;
* `Window.paintSquare` — one square;
* `Window.update` — a whole display memory, given as a list of cells and the number
  of bytes in one of its rows;
* `Picture.cells` — the display memory of the machine in that form.

Sizes and positions are those that the window system makes of them, see `Measure`.
-/

/-! ### Screens -/

/-- What a window should be. -/
structure Screen where
  /-- The side of the square that a pixel is shown as. -/
  scale : Int
  /-- The caption. -/
  title : String := "CHIP-8 Emulator"
  /-- The number of pixels in a row of the display memory. -/
  width : Int := Picture.width
  /-- The number of rows of the display memory. -/
  height : Int := Picture.height
deriving DecidableEq, Repr

/-- A window: its screen, and what it shows. -/
structure Window where
  screen : Screen
  canvas : Canvas

namespace Window

/-- Why something cannot be shown. -/
inductive Fault
  /-- The size cannot be handed to the window system. -/
  | noSize
  /-- The window would have a negative size. -/
  | negativeSize
  /-- The window would be larger than any may be. -/
  | tooLarge
  /-- The caption holds a character that no caption may hold. -/
  | badTitle
  /-- The window system has not been started. -/
  | notStarted
  /-- The window system has been started, but there is no window to bring up to
      date. -/
  | notOpen
  /-- There is no window to draw on. -/
  | closed
  /-- There are only the colours 0 and 1. -/
  | unknownColour (colour : Int)
  /-- The place of a square cannot be handed to the window system. -/
  | noPlace
  /-- The display memory has no such cell. -/
  | noCell (index : Int)
deriving DecidableEq, Repr

/-- The text of a fault. -/
def Fault.message : Fault → String
  | noSize => "size must be two numbers"
  | negativeSize => "Cannot set negative sized display mode"
  | tooLarge => "Window is too large."
  | badTitle => "embedded null character"
  | notStarted => "video system not initialized"
  | notOpen => "Display mode not set"
  | closed => "there is no window to draw on"
  | unknownColour colour => toString colour
  | noPlace => "rect argument is invalid"
  | noCell index =>
    if Measure.fits index then "list index out of range"
    else "cannot fit 'int' into an index-sized integer"

/-- The largest width and height of a window, in pixels. -/
def sizeLimit : Nat := 16384

/-- The size of the desktop, which a window takes that is asked to have no extent at
    all. -/
def desktop : Nat × Nat := (1024, 768)

/-- The size of a window that is asked to have a width and a height that are not
    negative.  A single extent of zero is too small, and one is taken for it. -/
def extent (width height : Nat) : Nat × Nat :=
  if width = 0 ∧ height = 0 then desktop else (max 1 width, max 1 height)

end Window

namespace Screen

/-- The width of the window in pixels, as it is asked for. -/
def windowWidth (s : Screen) : Int := s.width * s.scale

/-- The height of the window in pixels, as it is asked for. -/
def windowHeight (s : Screen) : Int := s.height * s.scale

/-- The number of pixels of the display memory. -/
def size (s : Screen) : Nat := s.width.toNat * s.height.toNat

/-- Whether the caption can be shown: it must not hold the character NUL. -/
def hasTitle (s : Screen) : Bool := !s.title.toList.contains '\x00'

/-- The log record of an opened window, which tells the size that was asked for. -/
def record (s : Screen) : Record :=
  ⟨.info, "Opened " ++ toString s.windowWidth ++ "x" ++ toString s.windowHeight ++ " display"⟩

/-- The window of a screen, all in the first colour and without a caption. -/
def openWindow (s : Screen) : Except Window.Fault Window :=
  match Measure.ofInt? s.windowWidth, Measure.ofInt? s.windowHeight with
  | some width, some height =>
    if width < 0 ∨ height < 0 then .error .negativeSize
    else
      let (width, height) := Window.extent width.toNat height.toNat
      if Window.sizeLimit < width ∨ Window.sizeLimit < height then .error .tooLarge
      else .ok ⟨s, .blank width height⟩
  | _, _ => .error .noSize

end Screen

/-! ### Squares -/

namespace Window

/-- Paint the square of a pixel. -/
def paintSquare (w : Window) (x y : Int) (colour : Bool) : Except Fault Window :=
  let scale := w.screen.scale
  match Measure.ofInt? (x * scale), Measure.ofInt? (y * scale), Measure.ofInt? scale with
  | some left, some top, some side =>
    .ok { w with canvas := w.canvas.fill left top side side colour }
  | _, _, _ => .error .noPlace

/-! ### Display memories -/

/-- The value of a cell that is on.  Any other value counts as off. -/
def cellOn : Int := 0xFFFFFFFF

/-- The number of bytes in a cell. -/
def cellSize : Int := 4

/-- The number of bytes in a row of the machine's display memory. -/
def standardPitch : Int := cellSize * Picture.width

/-- The cell at an index.  A negative index counts from the end. -/
def cell? (cells : Array Int) (index : Int) : Option Int :=
  if 0 ≤ index then cells[index.toNat]?
  else if 0 ≤ index + cells.size then cells[(index + cells.size).toNat]?
  else none

/-- Show `count` pixels of a display memory from pixel `k` on, counted row by row from
    the top, each row from the left; a row starts `stride` cells after the one above
    it.  The first pixel that cannot be shown ends it, and what was painted before
    stays. -/
def showFrom (cells : Array Int) (stride : Int) :
    (count k : Nat) → Window → Window × Except Fault Unit
  | 0, _, w => (w, .ok ())
  | count + 1, k, w =>
    let x : Int := k % w.screen.width
    let y : Int := k / w.screen.width
    let index := y * stride + x
    match cell? cells index with
    | none => (w, .error (.noCell index))
    | some cell =>
      match w.paintSquare x y (cell == cellOn) with
      | .error fault => (w, .error fault)
      | .ok painted => showFrom cells stride count (k + 1) painted

/-- Show a display memory.  A row starts `pitch` bytes after the one above it,
    rounded down to whole cells. -/
def update (w : Window) (cells : Array Int) (pitch : Int := standardPitch) :
    Window × Except Fault Unit :=
  showFrom cells (pitch.fdiv cellSize) w.screen.size 0 w

end Window

/-- The cells of a picture, row by row from the top, each row from the left. -/
def Picture.cells (p : Picture) : Array Int :=
  p.rows.toArray.flatMap fun row =>
    (Array.range 64).map fun x => if row.getMsbD x then Window.cellOn else 0

end ChipEight
