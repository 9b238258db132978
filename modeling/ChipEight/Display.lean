import ChipEight.Window

namespace ChipEight

/-!
# The display

What there is to show something on, which need not be a window yet.

* `Display` — the window system before its start, after its start without a window,
  and with a window;
* `Display.start` — start the window system and open the window of a screen;
* `Display.draw` — one square in a colour given as a number;
* `Display.refresh` — a whole display memory.
-/

/-- What there is to show something on. -/
inductive Display
  /-- The window system has not been started. -/
  | off
  /-- The window system has been started, but no window could be opened. -/
  | bare
  /-- There is a window. -/
  | showing (w : Window)

namespace Display

/-- The window, if there is one. -/
def window? : Display → Option Window
  | off => none
  | bare => none
  | showing w => some w

/-- The display once the window system has been started. -/
def started : Display → Display
  | off => bare
  | bare => bare
  | showing w => showing w

/-- Start the window system and open the window of a screen.  A window whose caption
    cannot be shown stays open without it. -/
def start (d : Display) (s : Screen) : Display × Except Window.Fault Window :=
  match s.openWindow with
  | .error fault => (d.started, .error fault)
  | .ok w => (showing w, if s.hasTitle then .ok w else .error .badTitle)

/-- The colour of a number. -/
def colourOf (colour : Int) : Except Window.Fault Bool :=
  if colour = 0 then .ok false
  else if colour = 1 then .ok true
  else .error (.unknownColour colour)

/-- Draw the square of a pixel in a colour given as a number. -/
def draw (d : Display) (x y colour : Int) : Display × Except Window.Fault Unit :=
  match colourOf colour, d with
  | .error fault, d => (d, .error fault)
  | .ok colour, showing w =>
    match w.paintSquare x y colour with
    | .ok painted => (showing painted, .ok ())
    | .error fault => (d, .error fault)
  | .ok _, d => (d, .error .closed)

/-- Why a display memory cannot be shown without a window.  Its first cell is looked up
    before there is something to draw on; if it has no pixels, it is the bringing up to
    date that fails. -/
def refreshFault (s : Screen) (cells : Array Int) (idle : Window.Fault) : Window.Fault :=
  if s.size = 0 then idle
  else if (Window.cell? cells 0).isNone then .noCell 0
  else .closed

/-- Show a display memory, of the size that a screen tells. -/
def refresh (d : Display) (s : Screen) (cells : Array Int) (pitch : Int := Window.standardPitch) :
    Display × Except Window.Fault Unit :=
  match d with
  | off => (off, .error (refreshFault s cells .notStarted))
  | bare => (bare, .error (refreshFault s cells .notOpen))
  | showing w => let (w, result) := w.update cells pitch; (showing w, result)

end Display

end ChipEight
