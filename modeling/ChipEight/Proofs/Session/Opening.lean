import ChipEight.Proofs.Loose.Range
import ChipEight.Proofs.Session.Passes
import ChipEight.Proofs.Window.Showing

namespace ChipEight

/-!
# Runs whose window opens

A run whose program loads comes to a session exactly if its window opens, and then every
picture can be shown in that window.

* `Options.Opens`, `Options.opens_of_scale` — the window of a run opens, as it does for the
  scales from 1 to 256;
* `Options.run_of_opens`, `Options.run_of_openWindow_eq_error` — what a run comes to in either
  case;
* `Window.Paintable.update` — the picture can be shown in a window that opened;
* `Session.paintable_stages` — in every pass of a session.
-/

namespace Options

/-- The window of a run opens. -/
def Opens (o : Options) : Prop := ∃ w, o.screen.openWindow = .ok w

/-- It does for the scales from 1 to 256. -/
theorem opens_of_scale {o : Options} (low : 1 ≤ o.scale) (high : o.scale ≤ 256) : o.Opens := by
  have across : o.screen.windowWidth = 64 * o.scale := rfl
  have down : o.screen.windowHeight = 32 * o.scale := rfl
  have wide := Measure.ofInt?_of_small (n := 64 * o.scale) (by omega) (by omega)
  have tall := Measure.ofInt?_of_small (n := 32 * o.scale) (by omega) (by omega)
  have extent := Window.extent_of_pos (by omega : 0 < (64 * o.scale).toNat)
    (by omega : 0 < (32 * o.scale).toNat)
  have limit : Window.sizeLimit = 16384 := rfl
  unfold Opens Screen.openWindow
  simp only [across, down, wide, tall, extent]
  rw [if_neg (by omega), if_neg (by omega)]
  exact ⟨_, rfl⟩

/-- A path holds no NUL, so the caption that it is part of can be shown. -/
theorem hasTitle_of_path {o : Options} (path : '\x00' ∉ o.rom.toList) :
    o.screen.hasTitle = true := by
  have title : o.screen.title.toList = "CHIP-8 Emulator - ".toList ++ o.rom.toList :=
    String.toList_append
  rw [Screen.hasTitle, title]
  simp [path]

variable {ρ : Type} [RandomSource ρ]

/-- A run whose program loads and whose window opens is a session. -/
theorem run_of_openWindow {o : Options} {w : Window} (opened : o.screen.openWindow = .ok w)
    (titled : o.screen.hasTitle = true) (random : ρ) (program : Array Byte) (start : Int)
    (frames : List Frame) :
    let t := Session.play o.delay ⟨(Machine.new o.strict random).place program, w, start⟩
      (Session.script start frames)
    (o.run random (.ok program) start frames).machine = some t.session.machine
      ∧ (o.run random (.ok program) start frames).passes = t.passes
      ∧ (o.run random (.ok program) start frames).ending = .ok t.status := by
  intro t
  obtain ⟨log, began⟩ := begin?_of_openWindow opened titled random program start
  rw [run, began]
  exact ⟨rfl, rfl, rfl⟩

/-- A run whose program loads and whose window does not open does nothing more. -/
theorem run_of_openWindow_eq_error {o : Options} {fault : Window.Fault}
    (failed : o.screen.openWindow = .error fault) (random : ρ) (program : Array Byte)
    (start : Int) (frames : List Frame) :
    (o.run random (.ok program) start frames).machine
        = some ((Machine.new o.strict random).place program)
      ∧ (o.run random (.ok program) start frames).passes = []
      ∧ (o.run random (.ok program) start frames).ending = .error (.window fault) := by
  simp only [run, begin?, Machine.loadContents, Machine.load, Display.start, failed, and_self]

end Options

/-! ### Showing the picture -/

namespace Window

/-- A window on which the whole picture of the machine can be painted: none of its places is
    too large for the window system. -/
structure Paintable (w : Window) : Prop where
  columns : w.screen.width = 64
  lines : w.screen.height = 32
  places : Measure.fits (64 * w.screen.scale) = true

/-- A window that opened for the picture of the machine is one. -/
theorem paintable_of_openWindow {s : Screen} {w : Window} (columns : s.width = 64)
    (lines : s.height = 32) (opened : s.openWindow = .ok w) : w.Paintable := by
  obtain ⟨_, _, across, -, rfl⟩ := Screen.measures_of_openWindow opened
  rw [Screen.windowWidth, columns] at across
  exact ⟨columns, lines, Measure.fits_of_ofInt? across⟩

/-- So is every one of its squares. -/
theorem Paintable.placeable {w : Window} (paintable : w.Paintable) : w.Placeable 64 32 :=
  ⟨paintable.columns, paintable.lines, paintable.places,
    Measure.fits_mul (by decide) (by decide) paintable.places⟩

/-- **The picture can be shown** in a window that opened. -/
theorem Paintable.update {w : Window} (paintable : w.Paintable) (p : Picture) :
    ∃ shown : Window, w.update p.cells = (shown, .ok ()) ∧ shown.Paintable := by
  obtain ⟨shown, updated, screen⟩ :=
    paintable.placeable.update p.cells standardPitch (cell?_ne_none_of_hasCell (hasCell_cells p))
  exact ⟨shown, updated, screen ▸ paintable.columns, screen ▸ paintable.lines,
    screen ▸ paintable.places⟩

end Window

namespace Session

variable {ρ : Type} [RandomSource ρ]

/-- A cycle leaves a window on which the picture can be painted. -/
theorem paintable_runCycle {s : Session ρ} (paintable : s.window.Paintable) (time : Int)
    (quit : Bool) : (s.runCycle time quit).session.window.Paintable := by
  rw [runCycle]
  cases s.machine.cycle.result with
  | error trap => exact paintable
  | ok operand =>
    show Window.Paintable (refresh _).window
    rw [refresh]
    split
    · obtain ⟨shown, updated, after⟩ := paintable.update s.machine.cycle.machine.picture
      rw [updated]
      exact after
    · exact paintable

/-- In every pass of a session the picture can be shown. -/
theorem paintable_stages (delay : Int) {s : Session ρ} (paintable : s.window.Paintable)
    (frames : List Frame) :
    ∀ t ∈ stages (fun s => s.turn delay) s frames, t.window.Paintable := by
  refine stages_induction (P := fun s => s.window.Paintable) ?_ paintable frames
  intro s f paintable
  show Window.Paintable (if (s.poll f).1.isDue delay f.time then _ else _ : Turn ρ).session.window
  split
  · exact paintable_runCycle (s := (s.poll f).1) paintable f.time _
  · exact paintable

end Session

end ChipEight
