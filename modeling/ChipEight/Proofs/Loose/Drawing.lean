import ChipEight.Proofs.Loose.Instructions
import ChipEight.Proofs.Sprite

namespace ChipEight

/-!
# Drawing on the loose machine

The loops over the lines and columns of a sprite flip its pixels in turn.

* `Loose.Runs.flip` — flipping one pixel;
* `Loose.Runs.drawColumns`, `Loose.Runs.drawLines` — the loops;
* `Loose.Runs.drawSprite` — the whole routine.
-/

namespace Loose

variable {ρ : Type} {m : Machine ρ}

/-- A bit of a byte, looked at with a mask that is moved from the left. -/
theorem land_bit_eq_zero_iff (b : Byte) {j : Nat} (narrow : j < 8) :
    Int.land b.toNat ((0x80 : Int) >>> j) = 0 ↔ b.getMsbD j = false := by
  have mask : (0x80 : Nat) >>> j = 2 ^ (7 - j) := by
    have : j ≤ 7 := by omega
    rw [show (0x80 : Nat) = 2 ^ 7 from rfl, Nat.shiftRight_eq_div_pow, Nat.pow_div this (by decide)]
  show ((b.toNat &&& (0x80 >>> j) : Nat) : Int) = 0 ↔ _
  rw [mask, Nat.and_two_pow, BitVec.getMsbD, decide_eq_true narrow, Bool.true_and, BitVec.getLsbD]
  cases b.toNat.testBit (7 - j) with
  | false => simp
  | true => simp

namespace Runs

theorem clear [RandomSource ρ] : Runs clear m () (m.perform .clear) :=
  change (congrArg (fun cs => ({ m.loose with cells := cs, redraw := true } : Loose ρ))
    Picture.toList_cells_blank.symm)

/-- Reading the cell of a pixel. -/
theorem cellAt (c : Fin 64 × Fin 32) :
    Runs (cellAt (c.2.val * 64 + c.1.val : Nat)) m (Picture.cellOf (m.picture.pixel c.1 c.2)) m :=
  readAt (Picture.getElem?_cells m.picture c.1 c.2)

/-- Setting the cell of a pixel to the other value. -/
theorem setCell (c : Fin 64 × Fin 32) :
    Runs (setCell (c.2.val * 64 + c.1.val : Nat) (Picture.cellOf (!m.picture.pixel c.1 c.2))) m ()
      { m with picture := m.picture.invert (.dot c.1 c.2) } := by
  refine writeAt ?_ ?_
  · show _ < m.picture.cells.toList.length
    rw [Array.length_toList, Picture.size_cells]
    omega
  · have cells := Picture.cells_invert_dot m.picture c.1 c.2
    exact congrArg (fun cs => ({ m.loose with cells := cs } : Loose ρ)) cells.symm

/-- Flipping a pixel. -/
theorem flip (c : Fin 64 × Fin 32) :
    Runs (flip (c.2.val * 64 + c.1.val : Nat)) m () (m.flipPixel c) := by
  refine bind (cellAt c) ?_
  cases on : m.picture.pixel c.1 c.2 with
  | true =>
    -- The flag is set first, and the picture is still the same then.
    have off := setCell (m := m.setReg Machine.flagRegister 1) c
    rw [show (m.setReg Machine.flagRegister 1).picture = m.picture from rfl, on] at off
    rw [if_pos (by decide), Machine.flipPixel, on]
    exact bind (setRegister Machine.flagRegister 1) off
  | false =>
    have turned := setCell (m := m) c
    rw [on] at turned
    rw [if_neg (by decide), Machine.flipPixel, on]
    exact turned

/-- The columns of a sprite line. -/
theorem drawColumns {left : Nat} {row : Fin 32} {line : Byte} (columns : List Nat)
    (narrow : ∀ j ∈ columns, j < 8) (m : Machine ρ) :
    Runs (drawColumns left row.val line.toNat columns) m ()
      ((Machine.columnHits left row line columns).foldl Machine.flipPixel m) := by
  induction columns generalizing m with
  | nil => exact pure ()
  | cons j columns ih =>
    have rest := ih (fun i hi => narrow i (List.mem_cons_of_mem j hi))
    have bit := land_bit_eq_zero_iff line (narrow j List.mem_cons_self)
    rw [Loose.drawColumns, Machine.columnHits]
    by_cases inside : left + j < 64
    · rw [if_neg (by omega), dif_pos inside, List.foldl_append]
      cases set : line.getMsbD j with
      | false =>
        -- A bit that is off flips nothing and is no pixel of the line.
        rw [if_pos (bit.mpr set)]
        exact rest m
      | true =>
        have hit : ¬ Int.land line.toNat ((0x80 : Int) >>> j) = 0 := by
          rw [bit, set]
          decide
        have place : (row.val : Int) * 64 + (left + j) = (row.val * 64 + (left + j) : Nat) := by
          omega
        rw [if_neg hit, place]
        exact bind (flip (⟨left + j, inside⟩, row)) (rest _)
    · rw [if_pos (by omega), dif_neg inside]
      exact pure ()

/-- Flipping pixels touches neither the memory nor the index register. -/
theorem foldl_flipPixel_keeps (pixels : List (Fin 64 × Fin 32)) (m : Machine ρ) :
    (pixels.foldl Machine.flipPixel m).memory = m.memory
      ∧ (pixels.foldl Machine.flipPixel m).index = m.index := by
  induction pixels generalizing m with
  | nil => exact ⟨rfl, rfl⟩
  | cons c pixels ih =>
    obtain ⟨memory, index⟩ := ih (m.flipPixel c)
    rw [List.foldl_cons, memory, index, Machine.flipPixel]
    split <;> exact ⟨rfl, rfl⟩

/-- The lines of a sprite. -/
theorem drawLines {left top : Nat} (lines : List Nat) (m : Machine ρ) :
    Runs (drawLines left top lines) m ()
      ((Machine.lineHits left top (fun i => m.memory.read (m.index + BitVec.ofNat 16 i))
        lines).foldl Machine.flipPixel m) := by
  induction lines generalizing m with
  | nil => exact pure ()
  | cons i lines ih =>
    rw [Loose.drawLines, Machine.lineHits]
    by_cases inside : top + i < 32
    · rw [if_neg (by omega), dif_pos inside, List.foldl_append]
      have row : (top : Int) + i = ((⟨top + i, inside⟩ : Fin 32).val : Int) := by
        rw [Int.natCast_add]
      refine bind (look Loose.index) (bind (byteAt (m.index.toNat + i)) ?_)
      rw [ofInt_toNat_add_natCast, row]
      refine bind (drawColumns _ (fun j hj => by simpa using hj) m) ?_
      -- The next line is read from the memory that the lines before it left as it was.
      obtain ⟨memory, index⟩ := foldl_flipPixel_keeps
        (Machine.columnHits left ⟨top + i, inside⟩
          (m.memory.read (m.index + BitVec.ofNat 16 i)) (List.range' 0 8)) m
      have rest := ih ((Machine.columnHits left ⟨top + i, inside⟩
          (m.memory.read (m.index + BitVec.ofNat 16 i)) (List.range' 0 8)).foldl
        Machine.flipPixel m)
      rw [memory, index] at rest
      exact rest
    · rw [if_pos (by omega), dif_neg inside]
      exact pure ()

theorem drawSprite [RandomSource ρ] :
    Runs drawSprite m () (m.perform (.draw m.operand.x m.operand.y m.operand.n)) := by
  refine bind fieldX (bind fieldY (bind (register _) (bind (register _) (bind fieldN ?_))))
  have left : ((m.reg m.operand.x).toNat : Int) % 64
      = ((m.reg m.operand.x).toNat % 64 : Nat) := rfl
  have top : ((m.reg m.operand.y).toNat : Int) % 32
      = ((m.reg m.operand.y).toNat % 32 : Nat) := rfl
  have drawn : m.perform (.draw m.operand.x m.operand.y m.operand.n) = _ :=
    Machine.drawSprite_eq_foldl m m.operand.x m.operand.y m.operand.n
  rw [left, top, Int.toNat_natCast, List.range_eq_range', drawn]
  exact bind (setRegister Machine.flagRegister 0)
    (bind (drawLines _ (m.setReg Machine.flagRegister 0)) (change rfl))

end Runs

end Loose

end ChipEight
