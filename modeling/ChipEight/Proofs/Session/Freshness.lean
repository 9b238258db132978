import ChipEight.Proofs.Drawing
import ChipEight.Proofs.Fields
import ChipEight.Proofs.Session.Passes
import ChipEight.Proofs.Window.Showing

namespace ChipEight

/-!
# The window is never stale

A session shows the picture only after a cycle that drew on it.  That is often enough.

* `Session.Fresh` — the window shows the picture of the machine;
* `Session.fresh_turn` — a pass keeps it so;
* `Session.eagerTurn` — a pass that shows the picture whatever happened in it;
* `Session.window_is_never_stale` — the window shows the picture at the end of every
  pass, so that showing it in every pass would make no difference.
-/

/-- The window that opens for a screen whose places and sizes are taken as they are. -/
theorem Screen.openWindow_eq_ok {s : Screen} {width height side : Nat} {w : Window}
    (fits : Window.Fits ⟨s, w.canvas⟩ width height side) (positive : 0 < width ∧ 0 < height)
    (opened : s.openWindow = .ok w) : w = ⟨s, .blank (width * side) (height * side)⟩ := by
  obtain ⟨across, down, acrossAt, downAt, same⟩ := measures_of_openWindow opened
  -- The window system takes the size as it is, and no side of it is empty.
  rw [windowWidth, fits.columns, fits.scale, ← Int.natCast_mul,
    fits.wide _ (Int.natCast_nonneg _) (Int.le_refl _)] at acrossAt
  rw [windowHeight, fits.lines, fits.scale, ← Int.natCast_mul,
    fits.high _ (Int.natCast_nonneg _) (Int.le_refl _)] at downAt
  obtain rfl : width * side = across := Int.ofNat.inj (Option.some.inj acrossAt)
  obtain rfl : height * side = down := Int.ofNat.inj (Option.some.inj downAt)
  rw [same, Window.extent_of_pos (Nat.mul_pos positive.1 fits.positive)
    (Nat.mul_pos positive.2 fits.positive)]

namespace Session

variable {ρ : Type}

/-- The window of a session is that of a screen, with squares of a side, and shows the
    picture of the machine. -/
structure Fresh (screen : Screen) (side : Nat) (s : Session ρ) : Prop where
  screen : s.window.screen = screen
  fits : s.window.Fits 64 32 side
  shows : s.window.Shows s.machine.picture side

variable {screen : Screen} {side : Nat} {s : Session ρ}

/-! ### The beginning -/

/-- A session begins with a fresh window. -/
theorem fresh_begin {o : Options} {random : ρ} {contents : Except ReadFault (Array Byte)}
    {start : Int} {log : List Record} (scale : o.scale = side) (positive : 0 < side)
    (exact : Measure.Exact (64 * side : Nat))
    (began : o.begin? random contents start = .ok (s, log)) : Fresh o.screen side s := by
  obtain ⟨program, w, -, opened, rfl⟩ := Options.begin?_eq_ok began
  have high : Measure.Exact (32 * side : Nat) := fun n low high => exact n low (by omega)
  have fits : Window.Fits ⟨o.screen, w.canvas⟩ 64 32 side :=
    ⟨rfl, rfl, scale, positive, exact, high⟩
  obtain rfl := Screen.openWindow_eq_ok fits (by decide) opened
  refine ⟨rfl, ⟨rfl, rfl, scale, positive, exact, high⟩, ?_⟩
  rw [Machine.place_eq_withMemory, Machine.picture_withMemory, Machine.picture_new]
  exact Window.shows_blank o.screen positive

/-! ### One pass -/

/-- Showing the picture of a machine in a fresh window makes it fresh again, whatever the
    machine drew. -/
theorem Fresh.update (fresh : Fresh screen side s) (m : Machine ρ) (time : Int) :
    Fresh screen side ⟨m, (s.window.update m.picture.cells).1, time⟩ := by
  obtain ⟨after, updated, same, shows⟩ :=
    Window.update_shows fresh.fits fresh.shows.columns fresh.shows.lines m.picture
  rw [updated]
  exact ⟨same.trans fresh.screen, fresh.fits.of_screen same, shows⟩

/-- A poll moves the keys and nothing else. -/
theorem Fresh.poll (fresh : Fresh screen side s) (f : Frame) : Fresh screen side (s.poll f).1 :=
  ⟨fresh.screen, fresh.fits, fresh.shows⟩

variable [RandomSource ρ]

/-- A pass that runs a cycle keeps the window fresh. -/
theorem Fresh.runCycle (fresh : Fresh screen side s) (time : Int) (quit : Bool) :
    Fresh screen side (s.runCycle time quit).session := by
  rw [Session.runCycle]
  cases ran : s.machine.cycle.result with
  | error trap =>
    -- The cycle drew nothing before it stopped the machine.
    have same := Machine.picture_cycle s.machine (Machine.redraw_cycle_of_error s.machine ran)
    exact ⟨fresh.screen, fresh.fits, same ▸ fresh.shows⟩
  | ok operand =>
    show Fresh screen side (refresh _)
    cases drawn : s.machine.cycle.machine.redraw with
    | true =>
      rw [refresh, if_pos drawn]
      exact fresh.update s.machine.cycle.machine time
    | false =>
      have same := Machine.picture_cycle s.machine drawn
      rw [refresh, if_neg (by simp [drawn])]
      exact ⟨fresh.screen, fresh.fits, same ▸ fresh.shows⟩

/-- **A pass** keeps the window fresh, with a cycle or without one. -/
theorem Fresh.turn (fresh : Fresh screen side s) (delay : Int) (f : Frame) :
    Fresh screen side (s.turn delay f).session := by
  show Fresh screen side (if (s.poll f).1.isDue delay f.time then _ else _ : Turn ρ).session
  -- A pass that is not due only polls.
  split
  · exact (fresh.poll f).runCycle f.time _
  · exact fresh.poll f

/-! ### Showing the picture in every pass -/

/-- A pass that shows the picture whatever happened in it. -/
def eagerTurn (delay : Int) (s : Session ρ) (f : Frame) : Turn ρ :=
  let t := s.turn delay f
  { t with
    session := { t.session with
      window := (s.window.update t.session.machine.picture.cells).1 } }

/-- From a fresh window on, such a pass does the same as one that shows the picture only
    after a cycle that drew on it. -/
theorem Fresh.eagerTurn_eq (fresh : Fresh screen side s) (delay : Int) (f : Frame) :
    eagerTurn delay s f = s.turn delay f := by
  have lazily := fresh.turn delay f
  have eagerly := fresh.update (s.turn delay f).session.machine (s.turn delay f).session.lastCycle
  -- Both windows show the picture that the pass leaves, and there is only one such window.
  have window : (s.window.update (s.turn delay f).session.machine.picture.cells).1
      = (s.turn delay f).session.window :=
    eagerly.shows.unique lazily.shows (eagerly.screen.trans lazily.screen.symm)
  rw [eagerTurn, window]

/-! ### All passes -/

/-- **The window is never stale.** At the end of every pass of a run, one that stops the
    machine included, each pixel of the window has the second colour exactly if the cell
    that it shows is on.  Hence a loop that shows the picture in every pass goes through
    the same sessions. -/
theorem window_is_never_stale (o : Options) (random : ρ)
    (contents : Except ReadFault (Array Byte)) (start : Int) (frames : List Frame)
    (scale : o.scale = side) (positive : 0 < side) (exact : Measure.Exact (64 * side : Nat))
    {log : List Record} (began : o.begin? random contents start = .ok (s, log)) :
    let stages := stages (fun s => s.turn o.delay) s frames
    (∀ t ∈ stages,
      t.window.canvas.width = 64 * side ∧ t.window.canvas.height = 32 * side
        ∧ ∀ px py, px < 64 * side → py < 32 * side →
          t.window.canvas.pixel px py
            = (t.machine.picture.cells[py / side * 64 + px / side]? == some Window.cellOn))
      ∧ Session.stages (eagerTurn o.delay) s frames = stages
      ∧ (s.play o.delay frames).session = stages.getLast?.getD s
      ∧ (s.play o.delay frames).passes.length = stages.length := by
  intro stages
  have fresh := fresh_begin scale positive exact began
  have always := stages_induction (P := Fresh o.screen side)
    (fun s f fresh => fresh.turn o.delay f) fresh frames
  refine ⟨fun t ht => ?_, ?_, session_play o.delay s frames⟩
  · obtain ⟨-, -, shows⟩ := always t ht
    exact ⟨shows.columns, shows.lines, shows.pixel⟩
  · exact stages_congr (fun s f (fresh : Fresh o.screen side s) => fresh.turn o.delay f)
      (fun s f fresh => fresh.eagerTurn_eq o.delay f) fresh frames

/-- The theorem at a program that draws a digit and then stops its strict machine, in a
    window of squares of two pixels. -/
theorem window_is_fresh_at_scale_two :
    let o : Options := { scale := 2, delay := 0, rom := "digit", strict := true }
    ∃ (s : Session Wheel) (log : List Record),
      o.begin? (Wheel.ofList []) (.ok #[0xA0, 0x50, 0xD0, 0x05]) 0 = .ok (s, log)
        ∧ o.scale = 2 ∧ Measure.Exact (64 * 2)
        ∧ ∀ t ∈ stages (fun s => s.turn 0) s [⟨1, []⟩, ⟨2, []⟩, ⟨3, []⟩],
          t.window.canvas.pixel 7 9
            = (t.machine.picture.cells[4 * 64 + 3]? == some Window.cellOn) := by
  intro o
  have opened : o.screen.openWindow = .ok ⟨o.screen, .blank 128 64⟩ := rfl
  have titled : o.screen.hasTitle = true := by decide
  have exact : Measure.Exact (64 * 2) := Measure.exact_of_lt (by decide)
  obtain ⟨log, began⟩ := Options.begin?_of_openWindow opened titled (Wheel.ofList [])
    #[0xA0, 0x50, 0xD0, 0x05] 0
  obtain ⟨fresh, -⟩ := window_is_never_stale o (Wheel.ofList []) _ 0
    [⟨1, []⟩, ⟨2, []⟩, ⟨3, []⟩] rfl (by decide : 0 < 2) exact began
  exact ⟨_, log, began, rfl, exact, fun t ht => (fresh t ht).2.2 7 9 (by decide) (by decide)⟩

end Session

end ChipEight
