import ChipEight.Proofs.Naming
import ChipEight.Proofs.Step

namespace ChipEight

/-!
# The footprint of a word

Which parts of the machine executing a word may write, told by the fields of the word.

* `Word.Draws`, `Word.WritesRegister`, `Word.WritesCell` and their like — the words that
  may write a part of the machine;
* `Machine.Footprint` — two machines that differ at most in the parts that a word may
  write: one clause for each field of the state but the word executed last;
* `Machine.footprint_perform` — an instruction keeps to the footprint of its words;
* `Machine.execute_keeps_to_its_footprint` — hence executing any integer keeps to the
  footprint of its word, and a word that names no instruction writes nothing at all.
-/

/-! ### Words that write -/

namespace Word

/-- The word draws on the picture. -/
def Draws (w : Word) : Prop := w = 0x00E0 ∨ w.family = 0xD

/-- The word calls or returns. -/
def MovesStack (w : Word) : Prop := w.family = 0x2 ∨ w = 0x00EE

/-- The word may go on elsewhere: it jumps, calls, returns, skips or waits. -/
def Branches (w : Word) : Prop :=
  w.family ∈ [0x1, 0x2, 0x3, 0x4, 0x5, 0x9, 0xB] ∨ w = 0x00EE
    ∨ (w.family = 0xE ∧ w.kk ∈ [0x9E, 0xA1]) ∨ (w.family = 0xF ∧ w.kk = 0x0A)

/-- The word writes the index register. -/
def WritesIndex (w : Word) : Prop := w.family = 0xA ∨ (w.family = 0xF ∧ w.kk ∈ [0x1E, 0x29])

/-- The word may write a register: its own one, its own one and the flags, the flags
    alone, or all up to its own one. -/
def WritesRegister (w : Word) (i : Nibble) : Prop :=
  (w.family ∈ [0x6, 0x7, 0xC] ∧ i = w.x)
    ∨ (w.family = 0x8 ∧ w.n ∈ [0x0, 0x1, 0x2, 0x3] ∧ i = w.x)
    ∨ (w.family = 0x8 ∧ w.n ∈ [0x4, 0x5, 0x6, 0x7, 0xE] ∧ (i = w.x ∨ i = 0xF))
    ∨ (w.family = 0xD ∧ i = 0xF)
    ∨ (w.family = 0xF ∧ w.kk ∈ [0x07, 0x0A] ∧ i = w.x)
    ∨ (w.family = 0xF ∧ w.kk = 0x65 ∧ i.toNat ≤ w.x.toNat)

/-- The word may write a cell of the memory, given the index register: one of three, or
    one for each register up to its own one. -/
def WritesCell (w index : Word) (cell : Fin 4096) : Prop :=
  (w.family = 0xF ∧ w.kk = 0x33 ∧ ∃ j ≤ 2, cell.val = (index.toNat + j) % 4096)
    ∨ (w.family = 0xF ∧ w.kk = 0x55 ∧ ∃ j ≤ w.x.toNat, cell.val = (index.toNat + j) % 4096)

/-- The value of the word of an integer. -/
theorem toNat_ofInt (operand : Int) : ((ofInt operand).toNat : Int) = operand % 65536 := by
  rw [ofInt, BitVec.toNat_ofInt]
  omega

end Word

/-- Bytes that are stored leave the other cells alone. -/
theorem Memory.getElem_store_of_ne (m : Memory) (a : Word) (bs : List Byte) (c : Fin 4096)
    (apart : ∀ j < bs.length, c.val ≠ (a.toNat + j) % 4096) :
    (m.store a bs).bytes[c] = m.bytes[c] := by
  induction bs generalizing m a with
  | nil => rfl
  | cons b bs ih =>
    have first : (cell a).val ≠ c.val := by
      have := apart 0 (Nat.zero_lt_succ _)
      rw [val_cell]
      omega
    -- The cells of the rest are counted from the next address, which may wrap around.
    have rest : ∀ j < bs.length, c.val ≠ ((a + 1).toNat + j) % 4096 := by
      intro j hj
      have next : (a + 1).toNat = (a.toNat + 1) % 65536 := BitVec.toNat_add a 1
      have := apart (j + 1) (Nat.succ_lt_succ hj)
      omega
    rw [store, ih _ _ rest]
    exact Vector.getElem_set_ne (cell a).isLt c.isLt first

namespace Machine

variable {ρ : Type}

/-! ### Differing at most in what a word writes -/

/-- Two machines of which the second one differs from the first one at most in the parts
    that a word may write, and in the word executed last. -/
structure Footprint (w : Word) (m n : Machine ρ) : Prop where
  memory : ∀ c, ¬ w.WritesCell m.index c → n.memory.bytes[c] = m.memory.bytes[c] := by
    intros; rfl
  registers : ∀ i, ¬ w.WritesRegister i → n.reg i = m.reg i := by intros; rfl
  index : ¬ w.WritesIndex → n.index = m.index := by intros; rfl
  pc : ¬ w.Branches → n.pc = m.pc := by intros; rfl
  stack : ¬ w.MovesStack → n.stack = m.stack := by intros; rfl
  delay : ¬ (w.family = 0xF ∧ w.kk = 0x15) → n.delay = m.delay := by intros; rfl
  sound : ¬ (w.family = 0xF ∧ w.kk = 0x18) → n.sound = m.sound := by intros; rfl
  picture : ¬ w.Draws → n.picture = m.picture := by intros; rfl
  redraw : ¬ w.Draws → n.redraw = m.redraw := by intros; rfl
  keypad : n.keypad = m.keypad := by rfl
  strict : n.strict = m.strict := by rfl
  random : w.family ≠ 0xC → n.random = m.random := by intros; rfl

namespace Footprint

variable {w : Word} {m n : Machine ρ}

/-- Taking down the word to execute makes no difference. -/
theorem of_noting {operand : Word} (within : Footprint w (m.noting operand) n) :
    Footprint w m n :=
  ⟨within.memory, within.registers, within.index, within.pc, within.stack, within.delay,
    within.sound, within.picture, within.redraw, within.keypad, within.strict, within.random⟩

/-- Giving values to registers that the word may write. -/
theorem bank (m : Machine ρ) {registers : Bank Byte}
    (same : ∀ i, ¬ w.WritesRegister i → registers.entry i = m.reg i) :
    Footprint w m { m with registers := registers } where
  registers := same

/-- Giving a value to one register that the word may write. -/
theorem setReg {i : Nibble} (writes : w.WritesRegister i) (m : Machine ρ) (value : Byte) :
    Footprint w m (m.setReg i value) :=
  bank m fun j apart => by
    rw [Bank.entry_put, if_neg]
    · rfl
    · rintro rfl
      exact apart writes

/-- Giving values to two of them. -/
theorem setReg_setReg {i j : Nibble} (first : w.WritesRegister i) (second : w.WritesRegister j)
    (m : Machine ρ) (a b : Byte) : Footprint w m ((m.setReg i a).setReg j b) :=
  bank m fun k apart => by
    have inner := (setReg first m a).registers k apart
    exact ((setReg second (m.setReg i a) b).registers k apart).trans inner

/-- Going on elsewhere. -/
theorem branch (branches : w.Branches) (m : Machine ρ) (pc : Word) :
    Footprint w m { m with pc := pc } where
  pc apart := absurd branches apart

end Footprint

/-! ### Instructions -/

/-- Combining two registers writes the first one, and the flags in the five operations that
    have some. -/
theorem footprint_combine {w : Word} (family : w.family = 0x8) {op : Arithmetic}
    (variant : w.n = op.variant) (m : Machine ρ) (y : Nibble) :
    Footprint w m (m.combine op w.x y) := by
  cases op with
  | move | or | and | xor =>
    exact .setReg (.inr (.inl ⟨family, by rw [variant]; decide, rfl⟩)) m _
  | _ =>
    have writes : ∀ i, i = w.x ∨ i = 0xF → w.WritesRegister i := fun i hi =>
      .inr (.inr (.inl ⟨family, by rw [variant]; decide, hi⟩))
    exact .setReg_setReg (writes _ (.inl rfl)) (writes _ (.inr rfl)) m _ _

variable [RandomSource ρ] {w : Word}

/-- **An instruction keeps to the footprint of its words.** -/
theorem footprint_perform (m : Machine ρ) {i : Instruction} (names : w.Names i) :
    Footprint w m (m.perform i) := by
  cases i with
  | clear => exact { picture := absurd (.inl names), redraw := absurd (.inl names) }
  | ret =>
    simp only [perform]
    split
    · exact { stack := absurd (.inr names), pc := absurd (.inr (.inl names)) }
    · exact {}
  | jump target =>
    obtain ⟨family, rfl⟩ := names
    exact .branch (.inl (by simp [family])) m _
  | call target =>
    obtain ⟨family, rfl⟩ := names
    simp only [perform]
    split
    · exact { stack := absurd (.inl family), pc := absurd (.inl (by simp [family])) }
    · exact {}
  | skip condition =>
    simp only [perform]
    split
    · refine .branch ?_ m _
      cases condition with
      | keyDown | keyUp => exact .inr (.inr (.inl ⟨names.1, by rw [names.2.1]; decide⟩))
      | _ => exact .inl (by rw [names.1]; decide)
    · exact {}
  | set x value =>
    obtain ⟨family, rfl, rfl⟩ := names
    exact .setReg (.inl ⟨by simp [family], rfl⟩) m _
  | add x value =>
    obtain ⟨family, rfl, rfl⟩ := names
    exact .setReg (.inl ⟨by simp [family], rfl⟩) m _
  | arithmetic op x y =>
    obtain ⟨family, variant, rfl, rfl⟩ := names
    exact footprint_combine family variant m w.y
  | setIndex target => exact { index := absurd (.inl names.1) }
  | jumpFrom base =>
    obtain ⟨family, rfl⟩ := names
    exact .branch (.inl (by simp [family])) m _
  | random x mask =>
    obtain ⟨family, rfl, rfl⟩ := names
    exact
      { registers := (Footprint.setReg (.inl ⟨by simp [family], rfl⟩) m _).registers
        random := absurd family }
  | draw x y n =>
    obtain ⟨family, rfl, rfl, rfl⟩ := names
    exact
      { registers := (Footprint.setReg (.inr (.inr (.inr (.inl ⟨family, rfl⟩)))) m _).registers
        picture := absurd (.inr family)
        redraw := absurd (.inr family) }
  | readDelay x =>
    obtain ⟨family, variant, rfl⟩ := names
    exact .setReg (.inr (.inr (.inr (.inr (.inl ⟨family, by simp [variant], rfl⟩))))) m _
  | awaitKey x =>
    obtain ⟨family, variant, rfl⟩ := names
    simp only [perform, awaitKey]
    split
    · exact .setReg (.inr (.inr (.inr (.inr (.inl ⟨family, by simp [variant], rfl⟩))))) m _
    · exact .branch (.inr (.inr (.inr ⟨family, variant⟩))) m _
  | setDelay x => exact { delay := absurd ⟨names.1, names.2.1⟩ }
  | setSound x => exact { sound := absurd ⟨names.1, names.2.1⟩ }
  | addIndex x => exact { index := absurd (.inr ⟨names.1, by rw [names.2.1]; decide⟩) }
  | findDigit x => exact { index := absurd (.inr ⟨names.1, by rw [names.2.1]; decide⟩) }
  | storeDecimal x =>
    obtain ⟨family, variant, rfl⟩ := names
    refine { memory := fun c apart => Memory.getElem_store_of_ne _ _ _ c fun j few same => ?_ }
    exact apart (.inl ⟨family, variant, j, Nat.le_of_lt_succ few, same⟩)
  | storeRegisters x =>
    obtain ⟨family, variant, rfl⟩ := names
    refine { memory := fun c apart => Memory.getElem_store_of_ne _ _ _ c fun j few same => ?_ }
    have few := Nat.lt_of_lt_of_le few (List.length_take_le _ _)
    exact apart (.inr ⟨family, variant, j, Nat.le_of_lt_succ few, same⟩)
  | loadRegisters x =>
    obtain ⟨family, variant, rfl⟩ := names
    refine .bank m fun i apart => ?_
    have above : ¬ i.toNat ≤ w.x.toNat := fun upTo =>
      apart (.inr (.inr (.inr (.inr (.inr ⟨family, variant, upTo⟩)))))
    rw [Bank.entry_ofFn, if_neg above]

/-! ### Words -/

/-- A word keeps to its footprint, whether it names an instruction or not. -/
theorem footprint_execute (m : Machine ρ) (w : Word) : Footprint w m (m.execute w).machine := by
  cases known : Instruction.decode? w with
  | some i =>
    rw [execute_of_decode known]
    exact .of_noting (footprint_perform (m.noting w) (Instruction.names_of_decode? known))
  | none =>
    cases strict : m.strict
    · rw [execute_of_skip known strict]
      exact {}
    · rw [execute_of_trap known strict]
      exact {}

/-- The word executed last is known. -/
theorem operand_execute (m : Machine ρ) (w : Word) : (m.execute w).machine.operand = w := by
  cases known : Instruction.decode? w with
  | some i =>
    rw [execute_of_decode known]
    exact (framed_perform (m.noting w) i).operand
  | none =>
    cases strict : m.strict
    · rw [execute_of_skip known strict]
      rfl
    · rw [execute_of_trap known strict]
      rfl

/-- After a cycle it is the word that the cycle fetched. -/
theorem operand_cycle (m : Machine ρ) : m.cycle.machine.operand = m.fetch := by
  rw [cycle_eq_ticked, ticked]
  split <;> exact operand_execute m.fetched m.fetch

/-- A word that draws asks for the picture to be shown again. -/
theorem redraw_execute (m : Machine ρ) (draws : w.Draws) :
    (m.execute w).machine.redraw = true := by
  rcases draws with rfl | family
  · rfl
  · have names : w.Names (.draw w.x w.y w.n) := ⟨family, rfl, rfl, rfl⟩
    rw [execute_of_decode (Instruction.decode?_of_names names)]
    rfl

/-- A word that names no instruction is only taken down. -/
theorem execute_of_isUnknown (m : Machine ρ) (unknown : w.IsUnknown) :
    (m.execute w).machine = m.noting w := by
  have unknown := (Instruction.decode?_eq_none_iff w).mpr unknown
  cases strict : m.strict
  · rw [execute_of_skip unknown strict]
  · rw [execute_of_trap unknown strict]

/-- **Every word keeps to its footprint.**  Executing an integer takes down its word, the
    integer modulo `2 ^ 16`, and otherwise changes at most the parts that the fields of
    the word allow: the cells, registers, timers and so on of `Footprint`, and no key and
    not the strictness.  A word that draws asks for the picture to be shown again, and one
    that names no instruction changes nothing else, whether it stops the machine or not. -/
theorem execute_keeps_to_its_footprint (m : Machine ρ) (operand : Int) :
    let w := Word.ofInt operand
    let n := (m.apply (.execute operand)).machine
    (w.toNat : Int) = operand % 65536
      ∧ n.operand = w
      ∧ Footprint w m n
      ∧ (w.Draws → n.redraw = true)
      ∧ (w.IsUnknown → n = { m with operand := w }) :=
  ⟨Word.toNat_ofInt operand, operand_execute m _, footprint_execute m _, redraw_execute m,
    execute_of_isUnknown m⟩

end Machine

end ChipEight
