import ChipEight.Proofs.Footprint
import ChipEight.Proofs.Loose.Operations

namespace ChipEight

/-!
# The pixels that a sprite hits

A sprite is drawn line by line from the bytes at the index register.  Which pixels it flips
can be told of each pixel by itself.

* `Machine.Hits` — the sprite has a set bit over a pixel, said of positions, bytes and bits
  alone;
* `Machine.hits_iff` — the picture of the sprite has these pixels and no others;
* `Machine.pixel_drawSprite`, `Machine.flag_drawSprite` — hence drawing flips the pixels
  that are hit, and tells if one of them was on;
* `Machine.draw_flips_what_it_hits` — so does the word, on the loose machine too, which
  goes through lines and columns one after another.
-/

namespace Machine

variable {ρ : Type}

/-- The sprite of `n` lines at the index register, drawn where two registers say, has a set
    bit over a pixel.  The position counts modulo the size of the screen, and the lines are
    read modulo the size of the memory, the leftmost pixel from the highest bit. -/
def Hits (m : Machine ρ) (x y n : Nibble) (cx : Fin 64) (cy : Fin 32) : Prop :=
  let left := (m.reg x).toNat % 64
  let top := (m.reg y).toNat % 32
  left ≤ cx.val ∧ cx.val < left + 8 ∧ top ≤ cy.val ∧ cy.val < top + n.toNat
    ∧ m.memory.bytes[(m.index.toNat + (cy.val - top)) % 4096].getLsbD (7 - (cx.val - left)) = true

instance (m : Machine ρ) (x y n : Nibble) (cx : Fin 64) (cy : Fin 32) :
    Decidable (m.Hits x y n cx cy) :=
  inferInstanceAs (Decidable (_ ∧ _ ∧ _ ∧ _ ∧ _))

/-- The picture of a sprite has the pixels that the sprite hits. -/
theorem hits_iff (m : Machine ρ) (x y n : Nibble) (cx : Fin 64) (cy : Fin 32) :
    m.Hits x y n cx cy ↔ (m.sprite x y n).pixel cx cy = true := by
  rw [sprite, Picture.pixel_stamp, Memory.read_add, Bool.and_eq_true, decide_eq_true_eq,
    BitVec.getMsbD, Bool.and_eq_true, decide_eq_true_eq, Hits]
  constructor
  · rintro ⟨left, right, top, bottom, bit⟩
    exact ⟨⟨left, top, bottom⟩, by omega, bit⟩
  · rintro ⟨⟨left, top, bottom⟩, narrow, bit⟩
    exact ⟨left, by omega, top, bottom, bit⟩

/-- **Drawing flips the pixels that the sprite hits**, and leaves all others alone. -/
theorem pixel_drawSprite (m : Machine ρ) (x y n : Nibble) (cx : Fin 64) (cy : Fin 32) :
    (m.drawSprite x y n).picture.pixel cx cy
      = if m.Hits x y n cx cy then !m.picture.pixel cx cy else m.picture.pixel cx cy := by
  show (m.picture.invert (m.sprite x y n)).pixel cx cy = _
  rw [Picture.pixel_invert]
  by_cases hit : m.Hits x y n cx cy
  · rw [if_pos hit, (hits_iff m x y n cx cy).mp hit, Bool.xor_true]
  · rw [if_neg hit, Bool.eq_false_iff.mpr (mt (hits_iff m x y n cx cy).mpr hit), Bool.xor_false]

/-- The flag register then has the flag of the two pictures. -/
theorem reg_flagRegister_drawSprite (m : Machine ρ) (x y n : Nibble) :
    (m.drawSprite x y n).reg flagRegister = flagByte (m.picture.meets (m.sprite x y n)) := by
  refine (reg_setReg m flagRegister flagRegister _).trans ?_
  exact if_pos rfl

/-- It tells if one of these pixels was on. -/
theorem flag_drawSprite (m : Machine ρ) (x y n : Nibble) :
    ((∃ cx cy, m.Hits x y n cx cy ∧ m.picture.pixel cx cy = true)
        → (m.drawSprite x y n).reg flagRegister = 1)
      ∧ ((¬ ∃ cx cy, m.Hits x y n cx cy ∧ m.picture.pixel cx cy = true)
        → (m.drawSprite x y n).reg flagRegister = 0) := by
  have meets : m.picture.meets (m.sprite x y n) = true
      ↔ ∃ cx cy, m.Hits x y n cx cy ∧ m.picture.pixel cx cy = true := by
    simp only [Picture.meets_eq_true_iff, hits_iff, and_comm]
  rw [reg_flagRegister_drawSprite, ← meets]
  refine ⟨fun common => ?_, fun none => ?_⟩
  · rw [common]
    rfl
  · rw [Bool.eq_false_iff.mpr none]
    rfl

variable [RandomSource ρ]

/-- **A word that draws** flips the pixels that its sprite hits, tells in the flag register
    if one of them was on, asks for the picture to be shown again, and changes nothing else.
    The position is that of the registers before the word.  The loose machine, which goes
    through the lines of the sprite and their columns and stops at the edges, comes to the
    same state. -/
theorem draw_flips_what_it_hits (m : Machine ρ) {w : Word} (draws : w.family = 0xD) :
    let n := (m.execute w).machine
    (m.execute w).result = .ok w
      ∧ (∀ cx cy, n.picture.pixel cx cy
        = if m.Hits w.x w.y w.n cx cy then !m.picture.pixel cx cy else m.picture.pixel cx cy)
      ∧ ((∃ cx cy, m.Hits w.x w.y w.n cx cy ∧ m.picture.pixel cx cy = true)
        → n.reg flagRegister = 1)
      ∧ ((¬ ∃ cx cy, m.Hits w.x w.y w.n cx cy ∧ m.picture.pixel cx cy = true)
        → n.reg flagRegister = 0)
      ∧ n.redraw = true
      ∧ n = { m with
          registers := m.registers.put flagRegister (n.reg flagRegister)
          picture := n.picture
          redraw := true
          operand := w }
      ∧ Loose.execute w.toNat m.loose = .ok (w.toNat : Int) n.loose
      ∧ ∀ (cx : Fin 64) (cy : Fin 32), n.loose.cells[cy.val * 64 + cx.val]?
        = some (if n.picture.pixel cx cy then Window.cellOn else 0) := by
  have names : w.Names (.draw w.x w.y w.n) := ⟨draws, rfl, rfl, rfl⟩
  have executed : m.execute w = ⟨(m.noting w).drawSprite w.x w.y w.n, [.executing m.pc w], .ok w⟩ :=
    execute_of_decode (Instruction.decode?_of_names names)
  have drawn : (m.execute w).machine = (m.noting w).drawSprite w.x w.y w.n :=
    congrArg Outcome.machine executed
  obtain ⟨on, off⟩ := flag_drawSprite (m.noting w) w.x w.y w.n
  rw [drawn]
  refine ⟨congrArg Outcome.result executed, pixel_drawSprite (m.noting w) w.x w.y w.n, on, off,
    rfl, ?_, ?_, fun cx cy => Picture.getElem?_cells _ cx cy⟩
  · rw [reg_flagRegister_drawSprite]
    rfl
  · have loose := Loose.execute_loose m w.toNat
    have same : Word.ofInt w.toNat = w := Mask.ofInt_toNat w
    rw [same, executed] at loose
    exact loose

/-- The theorem at the digit `0`, drawn in the last row with two columns left: of the line of
    four pixels two are cut off, and none comes in at the left edge. -/
theorem digit_is_cut_off_in_the_corner :
    let m := { ((new false (Wheel.ofList [])).setReg 0x0 62).setReg 0x1 31 with index := 0x50 }
    let n := (m.execute 0xD015).machine
    (0xD015 : Word).family = 0xD
      ∧ n.picture.pixel 62 31 = true ∧ n.picture.pixel 63 31 = true
      ∧ n.picture.pixel 0 31 = false ∧ n.picture.pixel 0 0 = false
      ∧ n.reg flagRegister = 0 := by
  intro m n
  obtain ⟨-, pixels, -, off, -⟩ := draw_flips_what_it_hits m (w := 0xD015) (by decide)
  have line : Memory.initial.bytes[0x50] = 0xF0 := by
    simp [Memory.initial, Memory.overlay, Font.start, Font.bytes]
  have blank (cx : Fin 64) (cy : Fin 32) : m.picture.pixel cx cy = false :=
    Picture.pixel_blank cx cy
  have drawn (cx : Fin 64) (cy : Fin 32) :
      n.picture.pixel cx cy = decide (m.Hits 0x0 0x1 0x5 cx cy) := by
    refine (pixels cx cy).trans ?_
    rw [blank, Bool.not_false]
    rfl
  have below (cx : Fin 64) : m.Hits 0x0 0x1 0x5 cx 31
      ↔ 62 ≤ cx.val ∧ cx.val < 70 ∧ (0xF0 : Byte).getLsbD (7 - (cx.val - 62)) = true := by
    rw [← line]
    constructor
    · rintro ⟨left, right, -, -, bit⟩
      exact ⟨left, right, bit⟩
    · rintro ⟨left, right, bit⟩
      exact ⟨left, right, by decide, by decide, bit⟩
  have above (cx : Fin 64) : ¬ m.Hits 0x0 0x1 0x5 cx 0 := fun hit => absurd hit.2.2.1 (by decide)
  have common : ¬ ∃ cx cy, m.Hits 0x0 0x1 0x5 cx cy ∧ m.picture.pixel cx cy = true := by
    rintro ⟨cx, cy, -, on⟩
    exact absurd on (blank cx cy ▸ Bool.false_ne_true)
  refine ⟨by decide, ?_, ?_, ?_, ?_, off common⟩
  · rw [drawn, decide_eq_true_eq, below]
    decide
  · rw [drawn, decide_eq_true_eq, below]
    decide
  · rw [drawn, decide_eq_false_iff_not, below]
    decide
  · rw [drawn, decide_eq_false_iff_not]
    exact above 0

end Machine

end ChipEight
