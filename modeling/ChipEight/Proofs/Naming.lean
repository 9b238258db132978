import ChipEight.Proofs.Decoding

namespace ChipEight

/-!
# Words that name an instruction

The other side of the gaps: which words there are for each instruction.

* `Arithmetic.variant`, `Word.Tests`, `Word.Names` — the words of an operation on two
  registers, of a condition and of an instruction, said of their fields alone;
* `Instruction.decode?_eq_some_iff` — decoding a word gives the instruction that it names,
  and no other one.
-/

/-- The last nibble of the words of an operation on two registers. -/
def Arithmetic.variant : Arithmetic → Nibble
  | move => 0x0
  | or => 0x1
  | and => 0x2
  | xor => 0x3
  | add => 0x4
  | subtract => 0x5
  | shiftRight => 0x6
  | subtractFrom => 0x7
  | shiftLeft => 0xE

namespace Word

/-- The word skips the next instruction on a condition. -/
def Tests (w : Word) : Condition → Prop
  | .isByte x value => w.family = 0x3 ∧ w.x = x ∧ w.kk = value
  | .isNotByte x value => w.family = 0x4 ∧ w.x = x ∧ w.kk = value
  | .agree x y => w.family = 0x5 ∧ w.x = x ∧ w.y = y
  | .differ x y => w.family = 0x9 ∧ w.x = x ∧ w.y = y
  | .keyDown x => w.family = 0xE ∧ w.kk = 0x9E ∧ w.x = x
  | .keyUp x => w.family = 0xE ∧ w.kk = 0xA1 ∧ w.x = x

/-- The word names an instruction. -/
def Names (w : Word) : Instruction → Prop
  | .clear => w = 0x00E0
  | .ret => w = 0x00EE
  | .jump target => w.family = 0x1 ∧ w.nnn = target
  | .call target => w.family = 0x2 ∧ w.nnn = target
  | .skip condition => w.Tests condition
  | .set x value => w.family = 0x6 ∧ w.x = x ∧ w.kk = value
  | .add x value => w.family = 0x7 ∧ w.x = x ∧ w.kk = value
  | .arithmetic op x y => w.family = 0x8 ∧ w.n = op.variant ∧ w.x = x ∧ w.y = y
  | .setIndex target => w.family = 0xA ∧ w.nnn = target
  | .jumpFrom base => w.family = 0xB ∧ w.nnn = base
  | .random x mask => w.family = 0xC ∧ w.x = x ∧ w.kk = mask
  | .draw x y n => w.family = 0xD ∧ w.x = x ∧ w.y = y ∧ w.n = n
  | .readDelay x => w.family = 0xF ∧ w.kk = 0x07 ∧ w.x = x
  | .awaitKey x => w.family = 0xF ∧ w.kk = 0x0A ∧ w.x = x
  | .setDelay x => w.family = 0xF ∧ w.kk = 0x15 ∧ w.x = x
  | .setSound x => w.family = 0xF ∧ w.kk = 0x18 ∧ w.x = x
  | .addIndex x => w.family = 0xF ∧ w.kk = 0x1E ∧ w.x = x
  | .findDigit x => w.family = 0xF ∧ w.kk = 0x29 ∧ w.x = x
  | .storeDecimal x => w.family = 0xF ∧ w.kk = 0x33 ∧ w.x = x
  | .storeRegisters x => w.family = 0xF ∧ w.kk = 0x55 ∧ w.x = x
  | .loadRegisters x => w.family = 0xF ∧ w.kk = 0x65 ∧ w.x = x

end Word

namespace Instruction

/-! ### The variants of a family -/

/-- The operation of a nibble has that nibble for its variant. -/
theorem ofNibble?_eq_some_iff (n : Nibble) (op : Arithmetic) :
    Arithmetic.ofNibble? n = some op ↔ n = op.variant := by
  revert n
  cases op <;> decide

/-- The conditions of the family `E`. -/
theorem keyCondition?_eq_some_iff (w : Word) (c : Condition) :
    keyCondition? w = some c
      ↔ (w.kk = 0x9E ∧ c = .keyDown w.x) ∨ (w.kk = 0xA1 ∧ c = .keyUp w.x) := by
  unfold keyCondition?
  split
  case h_1 down => simp [BitVec.toNat_eq, down, eq_comm]
  case h_2 up => simp [BitVec.toNat_eq, up, eq_comm]
  case h_3 neither notDown notUp =>
    refine ⟨nofun, ?_⟩
    rintro (⟨down, -⟩ | ⟨up, -⟩)
    · exact (notDown (congrArg BitVec.toNat down)).elim
    · exact (notUp (congrArg BitVec.toNat up)).elim

/-- The instructions of the family `F`. -/
theorem names_of_device? {w : Word} {i : Instruction} (family : w.family = 0xF)
    (decoded : device? w = some i) : w.Names i := by
  unfold device? at decoded
  split at decoded
  case h_10 => exact nomatch decoded
  all_goals
    next variant =>
    obtain rfl := Option.some.inj decoded
    exact ⟨family, BitVec.eq_of_toNat_eq variant, rfl⟩

/-! ### Both directions -/

/-- What decoding gives is what the word names. -/
theorem names_of_decode? {w : Word} {i : Instruction} (decoded : decode? w = some i) :
    w.Names i := by
  have bound : w.family.toNat < 16 := w.family.isLt
  unfold decode? at decoded
  -- One case for each family; those of one instruction are closed together at the end.
  split at decoded
  case h_1 zero =>
    rcases (system?_eq_some_iff w i).mp decoded with ⟨word, rfl⟩ | ⟨word, rfl⟩ <;> exact word
  case h_9 eight =>
    obtain ⟨op, variant, rfl⟩ := Option.map_eq_some_iff.mp decoded
    exact ⟨BitVec.eq_of_toNat_eq eight, (ofNibble?_eq_some_iff w.n op).mp variant, rfl, rfl⟩
  case h_15 fourteen =>
    obtain ⟨c, tested, rfl⟩ := Option.map_eq_some_iff.mp decoded
    rcases (keyCondition?_eq_some_iff w c).mp tested with ⟨variant, rfl⟩ | ⟨variant, rfl⟩ <;>
      exact ⟨BitVec.eq_of_toNat_eq fourteen, variant, rfl⟩
  case h_16 =>
    -- Only the family `F` is left.
    have fifteen : w.family.toNat = 15 := by grind
    exact names_of_device? (BitVec.eq_of_toNat_eq fifteen) decoded
  all_goals
    obtain rfl := Option.some.inj decoded
    simp_all [Word.Names, Word.Tests, BitVec.toNat_eq]

/-- A word decodes to the instruction that it names. -/
theorem decode?_of_names {w : Word} {i : Instruction} (names : w.Names i) :
    decode? w = some i := by
  cases i with
  | clear | ret =>
    obtain rfl : w = _ := names
    rfl
  | arithmetic op x y =>
    obtain ⟨family, variant, rfl, rfl⟩ := names
    simp [decode?, family, (ofNibble?_eq_some_iff w.n op).mpr variant]
  | skip condition =>
    cases condition with
    | keyDown x | keyUp x =>
      obtain ⟨family, variant, rfl⟩ := names
      simp [decode?, family, keyCondition?, variant]
    | _ =>
      obtain ⟨family, rfl, rfl⟩ := names
      simp [decode?, family]
  | jump target | call target | setIndex target | jumpFrom base =>
    obtain ⟨family, rfl⟩ := names
    simp [decode?, family]
  | set x value | add x value | random x mask =>
    obtain ⟨family, rfl, rfl⟩ := names
    simp [decode?, family]
  | draw x y n =>
    obtain ⟨family, rfl, rfl, rfl⟩ := names
    simp [decode?, family]
  | _ =>
    obtain ⟨family, variant, rfl⟩ := names
    simp [decode?, family, device?, variant]

/-- **Decoding gives what the word names.**  Together with the gaps this says of every word
    what it decodes to. -/
theorem decode?_eq_some_iff (w : Word) (i : Instruction) :
    decode? w = some i ↔ w.Names i :=
  ⟨names_of_decode?, decode?_of_names⟩

end Instruction

end ChipEight
