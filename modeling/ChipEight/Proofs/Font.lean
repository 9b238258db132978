import ChipEight.Proofs.Hits
import ChipEight.Proofs.Loading

namespace ChipEight

/-!
# The font over a run

The font lies below the place of programs, so loading does not reach it, and only the two words
that store bytes can write over it.

* `Memory.HoldsFont` — the font is where it should be;
* `Word.SparesFont`, `Machine.SparesFont` — a word, and all words of a run, store nothing there;
* `Machine.holdsFont_apply`, `Machine.holdsFont_after` — an operation, and hence a run, then
  leaves the font alone;
* `Machine.DigitHits` — the pixels that a digit covers, told by the table of the font alone;
* `Machine.digitHits_iff` — they are those that the sprite hits, once the index register points
  at the digit;
* `Machine.digits_show_while_font_survives` — all of it.
-/

/-- The font is where it should be. -/
def Memory.HoldsFont (memory : Memory) : Prop :=
  ∀ i, (inside : i < 80) → Font.bytes[i]? = some memory.bytes[0x50 + i]

/-- A memory without a program holds it. -/
theorem Memory.holdsFont_initial : initial.HoldsFont := by
  intro i inside
  have size : Font.bytes.size = 80 := Font.size_bytes
  have behind : Font.start ≤ 0x50 + i := Nat.le_add_right _ _
  have place : 0x50 + i - Font.start = i := Nat.add_sub_cancel_left _ _
  rw [getElem_initial, if_pos behind, place, Array.getElem?_eq_getElem (size ▸ inside)]
  rfl

/-- A block that lies behind it leaves it alone. -/
theorem Memory.HoldsFont.overlay {memory : Memory} (holds : memory.HoldsFont) {start : Nat}
    (behind : 0xA0 ≤ start) (block : Array Byte) : (memory.overlay start block).HoldsFont := by
  intro i inside
  rw [getElem_overlay_outside memory (by omega) (.inl (by omega))]
  exact holds i inside

/-- The word stores no byte over the font. -/
def Word.SparesFont (w index : Word) : Prop :=
  ∀ c : Fin 4096, 0x50 ≤ c.val → c.val ≤ 0x9F → ¬ w.WritesCell index c

namespace Machine

variable {ρ : Type} [RandomSource ρ]

/-! ### Whole runs -/

/-- No word of a run stores a byte over the font. -/
def SparesFont (m : Machine ρ) (operations : List Operation) : Prop :=
  ∀ p ∈ m.history operations, ∀ w ∈ p.1.word? p.2, w.SparesFont p.1.index

/-- A word that stores nothing there leaves the font alone. -/
theorem holdsFont_execute {m : Machine ρ} {w : Word} (spares : w.SparesFont m.index)
    (holds : m.memory.HoldsFont) : (m.execute w).machine.memory.HoldsFont := by
  intro i inside
  have kept := (footprint_execute m w).memory ⟨0x50 + i, by omega⟩
    (spares _ (Nat.le_add_right _ _) (by simp; omega))
  rw [holds i inside]
  exact congrArg some kept.symm

/-- So does an operation, whatever is loaded. -/
theorem holdsFont_apply {m : Machine ρ} {operation : Operation}
    (spares : ∀ w ∈ m.word? operation, w.SparesFont m.index) (holds : m.memory.HoldsFont) :
    (m.apply operation).machine.memory.HoldsFont := by
  cases operation with
  | cycle =>
    have executed : (m.fetched.execute m.fetch).machine.memory.HoldsFont :=
      holdsFont_execute (spares m.fetch rfl) holds
    show m.cycle.machine.memory.HoldsFont
    rw [cycle_eq_ticked, ticked]
    split <;> exact executed
  | execute operand => exact holdsFont_execute (spares _ rfl) holds
  | load program => exact holds.overlay (by decide) program
  | loadContents path contents =>
    cases contents with
    | ok program => exact holds.overlay (by decide) program
    | error reason => exact holds
  | reset => exact Memory.holdsFont_initial
  | setKey key down => exact holds
  | tick => exact holds

/-- **The font survives a run** that stores nothing over it, in every state of the run. -/
theorem holdsFont_after {m : Machine ρ} {operations : List Operation}
    (spares : m.SparesFont operations) (holds : m.memory.HoldsFont) :
    (∀ p ∈ m.history operations, p.1.memory.HoldsFont)
      ∧ (m.after operations).memory.HoldsFont := by
  induction operations generalizing m with
  | nil => exact ⟨nofun, holds⟩
  | cons operation operations ih =>
    have first := holdsFont_apply (spares (m, operation) List.mem_cons_self) holds
    obtain ⟨rest, last⟩ := ih (fun p hp => spares p (List.mem_cons_of_mem _ hp)) first
    exact ⟨List.forall_mem_cons.mpr ⟨holds, rest⟩, last⟩

end Machine

/-! ### Digits -/

namespace Word

/-- The word points the index register at the digit of a register. -/
def FindsDigit (w : Word) : Prop := w.family = 0xF ∧ w.kk = 0x29

/-- The word draws as many lines as a digit has. -/
def DrawsDigit (w : Word) : Prop := w.family = 0xD ∧ w.n = 5

instance (w : Word) : Decidable w.FindsDigit := inferInstanceAs (Decidable (_ ∧ _))

instance (w : Word) : Decidable w.DrawsDigit := inferInstanceAs (Decidable (_ ∧ _))

/-- The word that finds a digit names the instruction that does so. -/
theorem FindsDigit.decode? {w : Word} (finds : w.FindsDigit) :
    Instruction.decode? w = some (.findDigit w.x) :=
  Instruction.decode?_of_names ⟨finds.1, finds.2, rfl⟩

end Word

namespace Machine

variable {ρ : Type}

/-- The digit of the register `x`, drawn where the registers `a` and `b` say, has a set bit over a
    pixel: the pixel is in some column and line of the digit, whose bytes are those of the
    table. -/
def DigitHits (m : Machine ρ) (x a b : Nibble) (cx : Fin 64) (cy : Fin 32) : Prop :=
  ∃ line < 5, ∃ column < 8,
    cx.val = (m.reg a).toNat % 64 + column ∧ cy.val = (m.reg b).toNat % 32 + line
      ∧ (Font.bytes[5 * ((m.reg x).toNat % 16) + line]?.getD 0).getLsbD (7 - column) = true

instance (m : Machine ρ) (x a b : Nibble) (cx : Fin 64) (cy : Fin 32) :
    Decidable (m.DigitHits x a b cx cy) :=
  inferInstanceAs (Decidable (∃ _ < 5, ∃ _ < 8, _ ∧ _ ∧ _))

variable [RandomSource ρ] {v w : Word}

/-- Finding a digit moves the index register and nothing else. -/
theorem execute_findDigit (m : Machine ρ) (finds : w.FindsDigit) :
    (m.execute w).machine
      = { m with index := Font.address ((m.reg w.x).setWidth 4), operand := w } := by
  rw [execute_of_decode finds.decode?]
  rfl

/-- The index register then points at the line of the digit in the table. -/
theorem line_of_findDigit {m : Machine ρ} (holds : m.memory.HoldsFont) (finds : w.FindsDigit)
    {line : Nat} (inside : line < 5) :
    let k := (m.execute w).machine
    Font.bytes[5 * ((m.reg w.x).toNat % 16) + line]?
      = some k.memory.bytes[(k.index.toNat + line) % 4096] := by
  intro k
  have found : k = _ := execute_findDigit m finds
  have memory : k.memory = m.memory := by rw [found]
  have index : k.index.toNat = 0x50 + 5 * ((m.reg w.x).toNat % 16) := by
    rw [found]
    show (BitVec.ofNat 16 (0x50 + 5 * ((m.reg w.x).setWidth 4).toNat)).toNat = _
    rw [BitVec.toNat_ofNat, BitVec.toNat_setWidth]
    omega
  have place : (k.index.toNat + line) % 4096 = 0x50 + (5 * ((m.reg w.x).toNat % 16) + line) := by
    omega
  simp only [place, memory]
  exact holds _ (by omega)

/-- So the sprite hits the pixels of the digit. -/
theorem digitHits_iff {m : Machine ρ} (holds : m.memory.HoldsFont) (finds : w.FindsDigit)
    (draws : v.DrawsDigit) (cx : Fin 64) (cy : Fin 32) :
    (m.execute w).machine.Hits v.x v.y v.n cx cy ↔ m.DigitHits w.x v.x v.y cx cy := by
  have reg (x : Nibble) : (m.execute w).machine.reg x = m.reg x := by
    rw [execute_findDigit m finds]
    rfl
  have height : v.n.toNat = 5 := by
    rw [draws.2]
    rfl
  have bits {line : Nat} (inside : line < 5) := line_of_findDigit holds finds inside
  rw [Hits, DigitHits]
  simp only [reg, height]
  constructor
  · rintro ⟨left, right, top, bottom, bit⟩
    refine ⟨cy.val - (m.reg v.y).toNat % 32, by omega, cx.val - (m.reg v.x).toNat % 64, by omega,
      by omega, by omega, ?_⟩
    rw [bits (by omega)]
    exact bit
  · rintro ⟨line, inside, column, among, left, top, bit⟩
    have line_eq : cy.val - (m.reg v.y).toNat % 32 = line := by omega
    have column_eq : cx.val - (m.reg v.x).toNat % 64 = column := by omega
    rw [bits inside] at bit
    refine ⟨by omega, by omega, by omega, by omega, ?_⟩
    simp only [line_eq, column_eq]
    exact bit

/-! ### All of it -/

/-- **Digits show while the font survives.**  In a run in which no word stores a byte over the
    font, whatever is loaded, every state holds the font, and so does the loose machine.  In any
    state that holds it, finding the digit in a register and drawing five lines inverts the
    pixels under the set bits of that digit in the table, as far as they are on the screen, and
    leaves all others alone; the loose machine comes to the same states, cell by cell. -/
theorem digits_show_while_font_survives (strict : Bool) (random : ρ)
    (operations : List Operation) :
    let start := new strict random
    (start.SparesFont operations →
        (∀ p ∈ start.history operations, p.1.memory.HoldsFont)
          ∧ (start.after operations).memory.HoldsFont
          ∧ ∀ i, (inside : i < 80) →
            ((Loose.new strict random).after operations).memory[0x50 + i]?
              = (Font.bytes[i]?).map fun b => (b.toNat : Int))
      ∧ ∀ (m : Machine ρ) (w v : Word), m.memory.HoldsFont → w.FindsDigit → v.DrawsDigit →
        let k := (m.execute w).machine
        let n := (k.execute v).machine
        (m.execute w).result = .ok w ∧ (k.execute v).result = .ok v
          ∧ (∀ cx cy, n.picture.pixel cx cy
            = if m.DigitHits w.x v.x v.y cx cy then !m.picture.pixel cx cy
              else m.picture.pixel cx cy)
          ∧ Loose.execute w.toNat m.loose = .ok (w.toNat : Int) k.loose
          ∧ Loose.execute v.toNat k.loose = .ok (v.toNat : Int) n.loose
          ∧ ∀ (cx : Fin 64) (cy : Fin 32), n.loose.cells[cy.val * 64 + cx.val]?
            = some (if n.picture.pixel cx cy then Window.cellOn else 0) := by
  intro start
  refine ⟨fun spares => ?_, fun m w v holds finds draws => ?_⟩
  · obtain ⟨every, last⟩ := holdsFont_after spares Memory.holdsFont_initial
    refine ⟨every, last, fun i inside => ?_⟩
    have same : (Loose.new strict random).after operations = (start.after operations).loose := by
      rw [← Loose.after_loose, Loose.loose_new]
    rw [same, last i inside]
    show (Loose.numbers (start.after operations).memory.bytes.toList)[0x50 + i]? = _
    have place : 0x50 + i < 4096 := by omega
    rw [Loose.getElem?_numbers, Vector.getElem?_toList, Vector.getElem?_eq_getElem place]
  · intro k n
    have draw : Instruction.decode? v = some (.draw v.x v.y v.n) :=
      Instruction.decode?_of_names ⟨draws.1, rfl, rfl, rfl⟩
    have drawn : n = (k.noting v).drawSprite v.x v.y v.n := by
      show (k.execute v).machine = _
      rw [execute_of_decode draw]
      rfl
    have picture : k.picture = m.picture := by
      show (m.execute w).machine.picture = _
      rw [execute_findDigit m finds]
    refine ⟨?_, ?_, fun cx cy => ?_, Loose.Runs.execute finds.decode?, Loose.Runs.execute draw,
      fun cx cy => Picture.getElem?_cells _ cx cy⟩
    · rw [execute_of_decode finds.decode?]
    · rw [execute_of_decode draw]
    · have hits : (k.noting v).Hits v.x v.y v.n cx cy ↔ m.DigitHits w.x v.x v.y cx cy :=
        digitHits_iff holds finds draws cx cy
      have scene : (k.noting v).picture = m.picture := picture
      simp only [drawn, pixel_drawSprite, hits, scene]

/-- The theorem at a run that stores the digits of ten across the end of the memory, after a file
    that was not there, and at the digit `A` that is drawn then. -/
theorem digit_shows_after_storing_across_the_end :
    let start := new false (Wheel.ofList [])
    let run := [.loadContents "a" (.error (.refused "No such file or directory")),
      .execute 0x600A, .execute 0xAFFE, .execute 0xF033]
    let m := start.after run
    let n := ((m.execute 0xF029).machine.execute 0xD115).machine
    start.SparesFont run ∧ m.memory.HoldsFont
      ∧ (0xF029 : Word).FindsDigit ∧ (0xD115 : Word).DrawsDigit
      ∧ n.picture.pixel 0 1 = true ∧ n.picture.pixel 1 1 = false ∧ n.picture.pixel 3 1 = true := by
  intro start run m n
  have elsewhere {w index : Word} (family : w.family ≠ 0xF) : w.SparesFont index := by
    rintro c - - (⟨same, -⟩ | ⟨same, -⟩) <;> exact family same
  have around {w : Word} (variant : w.kk = 0x33) : w.SparesFont 0x0FFE := by
    rintro c from_ to_ (⟨-, -, j, few, place⟩ | ⟨-, other, -⟩)
    · have index : (0x0FFE : Word).toNat = 0xFFE := rfl
      omega
    · rw [variant] at other
      exact absurd other (by decide)
  have spares : start.SparesFont run := by
    intro p hp w hw
    simp only [run, history, List.mem_cons, List.not_mem_nil, or_false] at hp
    obtain rfl | rfl | rfl | rfl := hp
    · cases hw
    · obtain rfl := Option.some.inj hw
      exact elsewhere (by decide)
    · obtain rfl := Option.some.inj hw
      exact elsewhere (by decide)
    · obtain rfl := Option.some.inj hw
      exact around (by decide)
  obtain ⟨survives, shows⟩ := digits_show_while_font_survives false (Wheel.ofList []) run
  have holds : m.memory.HoldsFont := (survives spares).2.1
  have finds : (0xF029 : Word).FindsDigit := by decide
  have draws : (0xD115 : Word).DrawsDigit := by decide
  have ten : m.reg (0xF029 : Word).x = 0x0A := rfl
  have zero : m.reg (0xD115 : Word).x = 0 ∧ m.reg (0xD115 : Word).y = 0 := ⟨rfl, rfl⟩
  have blank (cx : Fin 64) (cy : Fin 32) : m.picture.pixel cx cy = false :=
    Picture.pixel_blank cx cy
  have hits (cx : Fin 64) (cy : Fin 32) :
      m.DigitHits (0xF029 : Word).x (0xD115 : Word).x (0xD115 : Word).y cx cy
        ↔ cx.val < 8 ∧ cy.val < 5
          ∧ (Font.bytes[50 + cy.val]?.getD 0).getLsbD (7 - cx.val) = true := by
    rw [DigitHits, ten, zero.1, zero.2]
    constructor
    · rintro ⟨line, inside, column, among, left, top, bit⟩
      have left : column = cx.val := by simpa using left.symm
      have top : line = cy.val := by simpa using top.symm
      subst left top
      exact ⟨among, inside, bit⟩
    · rintro ⟨among, inside, bit⟩
      exact ⟨cy.val, inside, cx.val, among, by simp, by simp, bit⟩
  obtain ⟨-, -, pixels, -⟩ := shows m _ _ holds finds draws
  have drawn (cx : Fin 64) (cy : Fin 32) : n.picture.pixel cx cy
      = decide (m.DigitHits (0xF029 : Word).x (0xD115 : Word).x (0xD115 : Word).y cx cy) := by
    refine (pixels cx cy).trans ?_
    rw [blank, Bool.not_false]
    rfl
  refine ⟨spares, holds, finds, draws, ?_, ?_, ?_⟩
  · rw [drawn, decide_eq_true_eq, hits]
    decide
  · rw [drawn, decide_eq_false_iff_not, hits]
    decide
  · rw [drawn, decide_eq_true_eq, hits]
    decide

end Machine

end ChipEight
