import ChipEight.Window
import Mathlib

namespace ChipEight

/-!
# Pictures pixel by pixel

* `Picture.getElem?_cells` — the cells of a picture are its pixels, row by row;
* `Picture.dot` — the picture of a single pixel, which flips that pixel when it is drawn;
* `Picture.cells_invert_dot` — flipping a pixel changes its cell;
* `Picture.pixel_foldl_dot` — flipping some pixels one after another.
-/

/-- An item of a list that is made of blocks of one length. -/
theorem getElem?_flatMap_of_length {α β : Type} {f : α → List β} {size : Nat}
    (blocks : ∀ a, (f a).length = size) (xs : List α) (i : Nat) {j : Nat} (inside : j < size) :
    (xs.flatMap f)[i * size + j]? = xs[i]?.bind fun a => (f a)[j]? := by
  induction xs generalizing i with
  | nil => rfl
  | cons a xs ih =>
    rw [List.flatMap_cons]
    cases i with
    | zero =>
      rw [List.getElem?_append_left (by rw [blocks]; omega), Nat.zero_mul, Nat.zero_add]
      rfl
    | succ i =>
      have behind : (i + 1) * size + j = (f a).length + (i * size + j) := by
        rw [blocks, Nat.add_mul, Nat.one_mul]
        omega
      rw [behind, List.getElem?_append_right (Nat.le_add_right _ _), Nat.add_sub_cancel_left, ih i]
      rfl

namespace Picture

/-! ### Cells -/

/-- The value of a cell. -/
def cellOf (on : Bool) : Int := if on then Window.cellOn else 0

/-- The cells of a picture, as a list. -/
theorem toList_cells (p : Picture) :
    p.cells.toList
      = p.rows.toList.flatMap fun row => (List.range 64).map fun x => cellOf (row.getMsbD x) := by
  rw [cells, Array.toList_flatMap, Vector.toList_toArray]
  simp [cellOf]

/-- A picture has a cell for each of its pixels. -/
@[simp] theorem size_cells (p : Picture) : p.cells.size = 64 * 32 := by
  have rows : p.rows.toArray.map (fun _ => 64) = Array.replicate 32 64 := by
    rw [Array.map_const', Vector.size_toArray]
  simp [cells, Array.size_flatMap, rows]

/-- The cell of a pixel. -/
theorem getElem?_cells (p : Picture) (x : Fin 64) (y : Fin 32) :
    p.cells.toList[y.val * 64 + x.val]? = some (cellOf (p.pixel x y)) := by
  rw [toList_cells, getElem?_flatMap_of_length (fun _ => by simp) _ _ x.isLt]
  -- Every row gives a block of 64 cells, so the row and the column find their cell.
  have row : p.rows.toList[y.val]? = some p.rows[y] := by
    rw [Vector.getElem?_toList]
    exact Vector.getElem?_eq_getElem y.isLt
  rw [row]
  simp [pixel]

/-- Lists of as many cells with the same cell for each pixel are the same. -/
theorem ext_cells {cs ds : List Int} (size : cs.length = 64 * 32) (size' : ds.length = 64 * 32)
    (same : ∀ (x : Fin 64) (y : Fin 32), cs[y.val * 64 + x.val]? = ds[y.val * 64 + x.val]?) :
    cs = ds := by
  apply List.ext_getElem?
  intro k
  by_cases inside : k < 64 * 32
  · have at? := same ⟨k % 64, by omega⟩ ⟨k / 64, by omega⟩
    -- Every place below `64 * 32` is that of a pixel.
    rwa [show k / 64 * 64 + k % 64 = k by omega] at at?
  · rw [List.getElem?_eq_none (by omega), List.getElem?_eq_none (by omega)]

/-- The cells of the blank picture are zero. -/
theorem toList_cells_blank : blank.cells.toList = List.replicate (64 * 32) 0 := by
  refine ext_cells (size_cells blank) List.length_replicate fun x y => ?_
  rw [getElem?_cells, pixel_blank, List.getElem?_replicate, if_pos (by omega)]
  rfl

/-! ### Flipping pixels -/

/-- The picture in which a single pixel is on. -/
def dot (x : Fin 64) (y : Fin 32) : Picture :=
  ⟨Vector.ofFn fun row => if row = y then BitVec.twoPow 64 (63 - x.val) else 0⟩

/-- Only that pixel is on. -/
@[simp] theorem pixel_dot (x cx : Fin 64) (y cy : Fin 32) :
    (dot x y).pixel cx cy = decide (cx = x ∧ cy = y) := by
  simp only [pixel, dot, Fin.getElem_fin, Vector.getElem_ofFn, Fin.eta]
  by_cases row : cy = y
  · rw [if_pos row, BitVec.getMsbD_twoPow]
    rw [Bool.eq_iff_iff]
    simp only [row, and_true, Bool.and_eq_true, decide_eq_true_eq, Fin.ext_iff]
    omega
  · rw [if_neg row]
    simp [row]

/-- Flipping a pixel changes its cell. -/
theorem cells_invert_dot (p : Picture) (x : Fin 64) (y : Fin 32) :
    (p.invert (dot x y)).cells.toList
      = p.cells.toList.set (y.val * 64 + x.val) (cellOf (!p.pixel x y)) := by
  refine ext_cells (by simp) (by simp) fun cx cy => ?_
  rw [getElem?_cells, List.getElem?_set, pixel_invert, pixel_dot, getElem?_cells]
  by_cases here : cx = x ∧ cy = y
  · obtain ⟨rfl, rfl⟩ := here
    rw [if_pos rfl, if_pos (by rw [Array.length_toList, size_cells]; omega)]
    simp
  · have apart : y.val * 64 + x.val ≠ cy.val * 64 + cx.val := fun same => here (by
      constructor <;> apply Fin.ext <;> omega)
    rw [if_neg apart]
    simp [here]

/-- Flipping pixels one after another flips each of them, if none comes twice. -/
theorem pixel_foldl_dot (p : Picture) {pixels : List (Fin 64 × Fin 32)} (once : pixels.Nodup)
    (x : Fin 64) (y : Fin 32) :
    (pixels.foldl (fun p c => p.invert (dot c.1 c.2)) p).pixel x y
      = (p.pixel x y ^^ decide ((x, y) ∈ pixels)) := by
  induction pixels generalizing p with
  | nil => simp
  | cons c pixels ih =>
    obtain ⟨fresh, once⟩ := List.nodup_cons.mp once
    rw [List.foldl_cons, ih _ once, pixel_invert, pixel_dot]
    by_cases here : (x, y) = c
    · -- The first of them, which does not come again.
      subst here
      simp [fresh]
    · have apart : ¬ (x = c.1 ∧ y = c.2) := fun same => here (Prod.ext same.1 same.2)
      simp [here, apart]

end Picture

end ChipEight
