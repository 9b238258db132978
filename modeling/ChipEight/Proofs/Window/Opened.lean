import ChipEight.Proofs.Window.Painting

namespace ChipEight

/-!
# Windows that were opened

* `Screen.measures_of_openWindow`, `Window.extent_of_pos` — what the window system made of the
  size of a window that opened;
* `Window.Opened` — a window that was opened to show squares, whatever it shows by now;
* `Window.Opened.placeable` — the window system takes all places in it;
* `Window.Opened.size`, `Window.Opened.fits` — it has the size that its squares have together, and
  takes all places as they are, if that size is within 32 bits.
-/

/-- A window of which no side is empty is opened in the size that it is asked for in. -/
theorem Window.extent_of_pos {width height : Nat} (across : 0 < width) (down : 0 < height) :
    extent width height = (width, height) := by
  rw [extent, if_neg (by omega), Nat.max_eq_right across, Nat.max_eq_right down]

/-- A window that opened has a size that the window system takes. -/
theorem Screen.measures_of_openWindow {s : Screen} {w : Window} (opened : s.openWindow = .ok w) :
    ∃ width height : Nat, Measure.ofInt? s.windowWidth = some (width : Int)
      ∧ Measure.ofInt? s.windowHeight = some (height : Int)
      ∧ w = ⟨s, .blank (Window.extent width height).1 (Window.extent width height).2⟩ := by
  unfold openWindow at opened
  split at opened
  · next width height across down =>
    split at opened
    · exact nomatch opened
    · next positive =>
      simp only at opened
      split at opened
      · exact nomatch opened
      · refine ⟨width.toNat, height.toNat, ?_, ?_, (Except.ok.inj opened).symm⟩
        · rw [across, Int.toNat_of_nonneg (by omega)]
        · rw [down, Int.toNat_of_nonneg (by omega)]
  · exact nomatch opened

/-- A number that has a measure is handed over. -/
theorem Measure.fits_of_ofInt? {n measure : Int} (known : ofInt? n = some measure) :
    fits n = true := by
  by_cases fit : fits n = true
  · exact fit
  · rw [ofInt?, if_neg fit] at known
    cases known

/-- A positive number within 32 bits whose measure is not negative is its own measure, and takes
    no more than 31 of them. -/
theorem Measure.eq_of_ofInt? {n : Int} {measure : Nat} (known : ofInt? n = some (measure : Int))
    (positive : 0 < n) (small : n < 0x100000000) : (measure : Int) = n ∧ n < 0x80000000 := by
  rw [ofInt?, if_pos (fits_of_ofInt? known), Int.bmod_def] at known
  have same := Option.some.inj known
  omega

namespace Window

/-- A window that was opened to show `width` by `height` squares of `side` pixels each way,
    whatever it shows by now. -/
structure Opened (w : Window) (width height side : Nat) : Prop where
  columns : w.screen.width = width
  lines : w.screen.height = height
  scale : w.screen.scale = side
  positive : 0 < width ∧ 0 < height ∧ 0 < side
  opened : ∃ first, w.screen.openWindow = .ok first
    ∧ w.canvas.width = first.canvas.width ∧ w.canvas.height = first.canvas.height

/-- The squares together are of a size within 32 bits. -/
def Within32 (width height side : Nat) : Prop :=
  width * side < 0x100000000 ∧ height * side < 0x100000000

instance (width height side : Nat) : Decidable (Within32 width height side) :=
  inferInstanceAs (Decidable (_ ∧ _))

namespace Opened

variable {w : Window} {width height side : Nat} (opened : w.Opened width height side)

include opened

/-- The window is as wide as asked for. -/
theorem windowWidth_eq : w.screen.windowWidth = (width * side : Nat) := by
  rw [Screen.windowWidth, opened.columns, opened.scale, Int.natCast_mul]

/-- It is as high as asked for. -/
theorem windowHeight_eq : w.screen.windowHeight = (height * side : Nat) := by
  rw [Screen.windowHeight, opened.lines, opened.scale, Int.natCast_mul]

/-- The window system takes all places in an opened window. -/
theorem placeable : w.Placeable width height := by
  obtain ⟨first, opened', -⟩ := opened.opened
  obtain ⟨_, _, across, down, -⟩ := Screen.measures_of_openWindow opened'
  refine ⟨opened.columns, opened.lines, ?_, ?_⟩
  · rw [← opened.columns]
    exact Measure.fits_of_ofInt? across
  · rw [← opened.lines]
    exact Measure.fits_of_ofInt? down

/-- An opened window of a size within 32 bits has this size, which takes no more than 31 of
    them. -/
theorem size (small : Within32 width height side) :
    w.canvas.width = width * side ∧ w.canvas.height = height * side
      ∧ width * side < 0x80000000 ∧ height * side < 0x80000000 := by
  obtain ⟨someColumns, someLines, someSide⟩ := opened.positive
  have wide : 0 < width * side := Nat.mul_pos someColumns someSide
  have high : 0 < height * side := Nat.mul_pos someLines someSide
  obtain ⟨smallWidth, smallHeight⟩ := small
  obtain ⟨first, opened', columns, lines⟩ := opened.opened
  obtain ⟨across, down, acrossAt, downAt, rfl⟩ := Screen.measures_of_openWindow opened'
  rw [opened.windowWidth_eq] at acrossAt
  rw [opened.windowHeight_eq] at downAt
  obtain ⟨sameAcross, boundAcross⟩ := Measure.eq_of_ofInt? acrossAt (by omega) (by omega)
  obtain ⟨sameDown, boundDown⟩ := Measure.eq_of_ofInt? downAt (by omega) (by omega)
  obtain rfl : across = width * side := Int.ofNat.inj sameAcross
  obtain rfl : down = height * side := Int.ofNat.inj sameDown
  rw [extent_of_pos wide high] at columns lines
  exact ⟨columns, lines, by omega, by omega⟩

/-- The window system takes all places in it as they are. -/
theorem fits (small : Within32 width height side) : w.Fits width height side := by
  obtain ⟨-, -, wide, high⟩ := opened.size small
  exact ⟨opened.columns, opened.lines, opened.scale, opened.positive.2.2,
    Measure.exact_of_lt (by omega), Measure.exact_of_lt (by omega)⟩

end Opened

end Window

end ChipEight
