import ChipEight.Machine.Execute
import ChipEight.Proofs.Picture

namespace ChipEight

/-!
# Sprites pixel by pixel

Drawing a sprite flips all of its pixels at once.  It may as well flip them one after
another, line by line and each line from the left.

* `Machine.flipPixel` — flip a pixel, and tell in the flag register if it was on;
* `Machine.lineHits` — the pixels of a sprite, in that order;
* `Machine.mem_spriteHits`, `Machine.nodup_spriteHits` — they are the pixels of the
  sprite, none of them twice;
* `Machine.drawSprite_eq_foldl` — hence flipping them in turn draws the sprite.
-/

namespace Machine

variable {ρ : Type}

/-! ### Flipping pixels in turn -/

/-- Flip a pixel, and tell in the flag register if it was on. -/
def flipPixel (m : Machine ρ) (c : Fin 64 × Fin 32) : Machine ρ :=
  { (if m.picture.pixel c.1 c.2 then m.setReg flagRegister 1 else m) with
    picture := m.picture.invert (.dot c.1 c.2) }

/-- A register that is set twice has the second value. -/
theorem setReg_setReg (m : Machine ρ) (x : Nibble) (a b : Byte) :
    (m.setReg x a).setReg x b = m.setReg x b := by
  have same : (m.registers.put x a).put x b = m.registers.put x b := by
    ext y : 1
    rw [Bank.entry_put, Bank.entry_put, Bank.entry_put]
    split <;> rfl
  show ({ m with registers := (m.registers.put x a).put x b } : Machine ρ) = _
  rw [same]
  rfl

/-- Flipping pixels in turn, none of them twice: the flag tells if one of them was on
    before. -/
theorem foldl_flipPixel (m : Machine ρ) {pixels : List (Fin 64 × Fin 32)} (once : pixels.Nodup) :
    pixels.foldl flipPixel m
      = { (if pixels.any fun c => m.picture.pixel c.1 c.2 then m.setReg flagRegister 1 else m) with
          picture := pixels.foldl (fun p c => p.invert (.dot c.1 c.2)) m.picture } := by
  induction pixels generalizing m with
  | nil => rfl
  | cons c pixels ih =>
    obtain ⟨fresh, once⟩ := List.nodup_cons.mp once
    -- Flipping the first one does not change what the others were.
    have same : ∀ d ∈ pixels, (m.flipPixel c).picture.pixel d.1 d.2 = m.picture.pixel d.1 d.2 := by
      intro d hd
      have apart : ¬ (d.1 = c.1 ∧ d.2 = c.2) := fun e => fresh ((Prod.ext e.1 e.2 : d = c) ▸ hd)
      show (m.picture.invert _).pixel d.1 d.2 = _
      rw [Picture.pixel_invert, Picture.pixel_dot, decide_eq_false apart, Bool.xor_false]
    have others : (pixels.any fun d => (m.flipPixel c).picture.pixel d.1 d.2)
        = pixels.any fun d => m.picture.pixel d.1 d.2 := by
      rw [Bool.eq_iff_iff, List.any_eq_true, List.any_eq_true]
      exact exists_congr fun d => and_congr_right fun hd => by rw [same d hd]
    rw [List.foldl_cons, ih _ once, others, List.any_cons, List.foldl_cons, flipPixel]
    cases m.picture.pixel c.1 c.2 <;> cases pixels.any fun d => m.picture.pixel d.1 d.2
    · rfl
    · rfl
    · rfl
    · show ({ (m.setReg flagRegister 1).setReg flagRegister 1 with picture := _ } : Machine ρ) = _
      rw [setReg_setReg]
      rfl

/-! ### The pixels of a sprite -/

/-- The pixels of the columns of a sprite line that are given, up to the right edge. -/
def columnHits (left : Nat) (row : Fin 32) (line : Byte) : List Nat → List (Fin 64 × Fin 32)
  | [] => []
  | j :: columns =>
    if h : left + j < 64 then
      (if line.getMsbD j then [(⟨left + j, h⟩, row)] else []) ++ columnHits left row line columns
    else []

/-- The pixels of the lines of a sprite that are given, up to the bottom edge. -/
def lineHits (left top : Nat) (bytes : Nat → Byte) : List Nat → List (Fin 64 × Fin 32)
  | [] => []
  | i :: lines =>
    if h : top + i < 32 then
      columnHits left ⟨top + i, h⟩ (bytes i) (List.range' 0 8) ++ lineHits left top bytes lines
    else []

/-- The pixels of some neighbouring columns of a sprite line. -/
theorem mem_columnHits (left : Nat) (row : Fin 32) (line : Byte) (count k : Nat)
    (c : Fin 64 × Fin 32) :
    c ∈ columnHits left row line (List.range' k count)
      ↔ c.2 = row ∧ ∃ j, k ≤ j ∧ j < k + count ∧ c.1.val = left + j ∧ line.getMsbD j = true := by
  induction count generalizing k with
  | zero =>
    refine ⟨nofun, ?_⟩
    rintro ⟨-, j, low, high, -⟩
    omega
  | succ count ih =>
    rw [List.range'_succ, columnHits]
    by_cases inside : left + k < 64
    · have first : c ∈ (if line.getMsbD k then [((⟨left + k, inside⟩ : Fin 64), row)] else [])
          ↔ c.2 = row ∧ c.1.val = left + k ∧ line.getMsbD k = true := by
        obtain ⟨x, y⟩ := c
        cases line.getMsbD k <;> simp [Fin.ext_iff, and_comm]
      rw [dif_pos inside, List.mem_append, ih, first]
      constructor
      · rintro (⟨row, column, bit⟩ | ⟨row, j, low, high, column, bit⟩)
        · exact ⟨row, k, Nat.le_refl k, by omega, column, bit⟩
        · exact ⟨row, j, by omega, by omega, column, bit⟩
      · rintro ⟨row, j, low, high, column, bit⟩
        by_cases here : j = k
        · exact .inl ⟨row, here ▸ column, here ▸ bit⟩
        · exact .inr ⟨row, j, by omega, by omega, column, bit⟩
    · -- The columns behind the edge are even further out.
      rw [dif_neg inside]
      refine ⟨nofun, ?_⟩
      rintro ⟨-, j, low, high, column, -⟩
      have := c.1.isLt
      omega

/-- No pixel of a sprite line comes twice. -/
theorem nodup_columnHits (left : Nat) (row : Fin 32) (line : Byte) (count k : Nat) :
    (columnHits left row line (List.range' k count)).Nodup := by
  induction count generalizing k with
  | zero => exact List.nodup_nil
  | succ count ih =>
    rw [List.range'_succ, columnHits]
    by_cases inside : left + k < 64
    · rw [dif_pos inside]
      cases line.getMsbD k
      · exact ih (k + 1)
      · refine List.nodup_cons.mpr ⟨fun again => ?_, ih (k + 1)⟩
        obtain ⟨-, j, low, -, column, -⟩ := (mem_columnHits left row line count (k + 1) _).mp again
        have : left + k = left + j := column
        omega
    · rw [dif_neg inside]
      exact List.nodup_nil

/-- The pixels of some neighbouring lines of a sprite. -/
theorem mem_lineHits (left top : Nat) (bytes : Nat → Byte) (count k : Nat)
    (c : Fin 64 × Fin 32) :
    c ∈ lineHits left top bytes (List.range' k count)
      ↔ ∃ i, k ≤ i ∧ i < k + count ∧ c.2.val = top + i
        ∧ ∃ j < 8, c.1.val = left + j ∧ (bytes i).getMsbD j = true := by
  induction count generalizing k with
  | zero =>
    refine ⟨nofun, ?_⟩
    rintro ⟨i, low, high, -⟩
    omega
  | succ count ih =>
    rw [List.range'_succ, lineHits]
    by_cases inside : top + k < 32
    · rw [dif_pos inside, List.mem_append, ih, mem_columnHits]
      constructor
      · rintro (⟨row, j, -, narrow, column, bit⟩ | ⟨i, low, high, rest⟩)
        · exact ⟨k, Nat.le_refl k, by omega, congrArg Fin.val row, j, by omega, column, bit⟩
        · exact ⟨i, by omega, by omega, rest⟩
      · rintro ⟨i, low, high, row, j, narrow, column, bit⟩
        by_cases here : i = k
        · subst here
          exact .inl ⟨Fin.ext row, j, Nat.zero_le j, by omega, column, bit⟩
        · exact .inr ⟨i, by omega, by omega, row, j, narrow, column, bit⟩
    · -- The lines behind the edge are even further down.
      rw [dif_neg inside]
      refine ⟨nofun, ?_⟩
      rintro ⟨i, low, high, row, -⟩
      have := c.2.isLt
      omega

/-- No pixel of a sprite comes twice. -/
theorem nodup_lineHits (left top : Nat) (bytes : Nat → Byte) (count k : Nat) :
    (lineHits left top bytes (List.range' k count)).Nodup := by
  induction count generalizing k with
  | zero => exact List.nodup_nil
  | succ count ih =>
    rw [List.range'_succ, lineHits]
    by_cases inside : top + k < 32
    · rw [dif_pos inside]
      refine List.nodup_append.mpr ⟨nodup_columnHits _ _ _ _ _, ih (k + 1), ?_⟩
      intro c hc d hd same
      -- They lie in different rows.
      obtain ⟨row, -⟩ := (mem_columnHits _ _ _ _ _ _).mp hc
      obtain ⟨i, low, -, row', -⟩ := (mem_lineHits _ _ _ _ _ _).mp hd
      have : c.2.val = top + k := congrArg Fin.val row
      rw [same] at this
      omega
    · rw [dif_neg inside]
      exact List.nodup_nil

/-! ### Drawing a sprite -/

/-- The pixels of a sprite, line by line and each line from the left. -/
def spriteHits (m : Machine ρ) (x y n : Nibble) : List (Fin 64 × Fin 32) :=
  lineHits ((m.reg x).toNat % 64) ((m.reg y).toNat % 32)
    (fun i => m.memory.read (m.index + BitVec.ofNat 16 i)) (List.range' 0 n.toNat)

/-- They are the pixels of the sprite. -/
theorem mem_spriteHits (m : Machine ρ) (x y n : Nibble) (cx : Fin 64) (cy : Fin 32) :
    (cx, cy) ∈ m.spriteHits x y n ↔ (m.sprite x y n).pixel cx cy = true := by
  rw [spriteHits, mem_lineHits, sprite, Picture.pixel_stamp, Bool.and_eq_true, decide_eq_true_eq]
  constructor
  · rintro ⟨i, -, high, row, j, narrow, column, bit⟩
    have row : cy.val = (m.reg y).toNat % 32 + i := row
    have column : cx.val = (m.reg x).toNat % 64 + j := column
    rw [show cy.val - (m.reg y).toNat % 32 = i by omega,
      show cx.val - (m.reg x).toNat % 64 = j by omega]
    exact ⟨by omega, bit⟩
  · rintro ⟨⟨column, row, high⟩, bit⟩
    refine ⟨cy.val - (m.reg y).toNat % 32, Nat.zero_le _, by omega, ?_,
      cx.val - (m.reg x).toNat % 64, ?_, ?_, bit⟩
    · show cy.val = _
      omega
    · apply Nat.lt_of_not_le
      intro wide
      rw [BitVec.getMsbD_of_ge _ _ wide] at bit
      exact nomatch bit
    · show cx.val = _
      omega

/-- **Drawing.** Flipping the pixels of a sprite in turn, with the flag taken back
    before, draws the sprite. -/
theorem drawSprite_eq_foldl (m : Machine ρ) (x y n : Nibble) :
    m.drawSprite x y n
      = { (m.spriteHits x y n).foldl flipPixel (m.setReg flagRegister 0) with redraw := true } := by
  have once : (m.spriteHits x y n).Nodup := nodup_lineHits _ _ _ _ _
  have picture : (m.spriteHits x y n).foldl (fun p c => p.invert (.dot c.1 c.2)) m.picture
      = m.picture.invert (m.sprite x y n) := by
    ext cx cy
    rw [Picture.pixel_foldl_dot _ once, Picture.pixel_invert, Bool.eq_iff_iff]
    cases m.picture.pixel cx cy <;> simp [mem_spriteHits]
  have flag : ((m.spriteHits x y n).any fun c => m.picture.pixel c.1 c.2)
      = m.picture.meets (m.sprite x y n) := by
    rw [Bool.eq_iff_iff, List.any_eq_true, Picture.meets_eq_true_iff]
    constructor
    · rintro ⟨⟨cx, cy⟩, hit, on⟩
      exact ⟨cx, cy, on, (mem_spriteHits m x y n cx cy).mp hit⟩
    · rintro ⟨cx, cy, on, hit⟩
      exact ⟨(cx, cy), (mem_spriteHits m x y n cx cy).mpr hit, on⟩
  rw [foldl_flipPixel _ once]
  show _ = ({ (if ((m.spriteHits x y n).any fun c => m.picture.pixel c.1 c.2) then
      (m.setReg flagRegister 0).setReg flagRegister 1 else m.setReg flagRegister 0) with
    picture := (m.spriteHits x y n).foldl (fun p c => p.invert (.dot c.1 c.2)) m.picture
    redraw := true } : Machine ρ)
  rw [flag, picture, setReg_setReg, drawSprite]
  cases m.picture.meets (m.sprite x y n) <;> rfl

end Machine

end ChipEight
