import ChipEight.Instruction

namespace ChipEight

/-!
# Words that name no instruction

Four families of words have gaps: there is no instruction for most words of the
family `0`, and in the families `8`, `E` and `F` only some variants are taken.

* `Word.IsUnknown` — a word in one of the gaps, said of its fields alone;
* `Instruction.decode?_eq_none_iff` — decoding refuses exactly these words;
* `Instruction.decode?_eq_call_iff`, `Instruction.decode?_eq_ret_iff` — the words
  that call and return.
-/

/-- A word that names no instruction: it lies in a gap of its family. -/
def Word.IsUnknown (w : Word) : Prop :=
  (w.family = 0x0 ∧ w ≠ 0x00E0 ∧ w ≠ 0x00EE)
    ∨ (w.family = 0x8 ∧ w.n ∉ [0x0, 0x1, 0x2, 0x3, 0x4, 0x5, 0x6, 0x7, 0xE])
    ∨ (w.family = 0xE ∧ w.kk ∉ [0x9E, 0xA1])
    ∨ (w.family = 0xF ∧ w.kk ∉ [0x07, 0x0A, 0x15, 0x18, 0x1E, 0x29, 0x33, 0x55, 0x65])

instance (w : Word) : Decidable w.IsUnknown := inferInstanceAs (Decidable (_ ∨ _ ∨ _ ∨ _))

namespace Instruction

/-! ### The gaps of a family -/

/-- The family `0` has two instructions. -/
theorem system?_eq_none_iff (w : Word) : system? w = none ↔ w ≠ 0x00E0 ∧ w ≠ 0x00EE := by
  unfold system?
  split <;> simp_all

/-- The family `8` has nine variants. -/
theorem ofNibble?_eq_none_iff (n : Nibble) :
    Arithmetic.ofNibble? n = none ↔ n ∉ [0x0, 0x1, 0x2, 0x3, 0x4, 0x5, 0x6, 0x7, 0xE] := by
  revert n
  decide

/-- The family `E` has two variants. -/
theorem keyCondition?_eq_none_iff (w : Word) :
    keyCondition? w = none ↔ w.kk ∉ [0x9E, 0xA1] := by
  unfold keyCondition?
  split <;> simp_all [BitVec.toNat_eq]

/-- The family `F` has nine variants. -/
theorem device?_eq_none_iff (w : Word) :
    device? w = none ↔ w.kk ∉ [0x07, 0x0A, 0x15, 0x18, 0x1E, 0x29, 0x33, 0x55, 0x65] := by
  unfold device?
  split <;> simp_all [BitVec.toNat_eq]

/-- **Decoding is exact.** A word is refused exactly if it lies in a gap of its
    family. -/
theorem decode?_eq_none_iff (w : Word) : decode? w = none ↔ w.IsUnknown := by
  have bound : w.family.toNat < 16 := w.family.isLt
  unfold decode? Word.IsUnknown
  -- One case for each family; those without gaps are closed together at the end.
  split
  case h_1 zero => simp [BitVec.toNat_eq, zero, system?_eq_none_iff]
  case h_9 eight => simp [BitVec.toNat_eq, eight, ofNibble?_eq_none_iff]
  case h_15 fourteen => simp [BitVec.toNat_eq, fourteen, keyCondition?_eq_none_iff]
  case h_16 =>
    -- Only the family `F` is left.
    have fifteen : w.family.toNat = 15 := by grind
    simp [BitVec.toNat_eq, fifteen, device?_eq_none_iff]
  all_goals simp_all [BitVec.toNat_eq]

/-! ### Calls and returns -/

/-- No word of the family `0` is a call, and one is a return. -/
theorem system?_eq_some_iff (w : Word) (i : Instruction) :
    system? w = some i ↔ (w = 0x00E0 ∧ i = .clear) ∨ (w = 0x00EE ∧ i = .ret) := by
  unfold system?
  split
  · next clear =>
    subst clear
    simp [eq_comm]
  · next clear =>
    split
    · next ret =>
      subst ret
      simp [eq_comm]
    · next ret => exact ⟨nofun, fun h => (h.elim (fun c => clear c.1) fun r => ret r.1).elim⟩

/-- No word of the family `F` is a call. -/
theorem device?_ne_call (w : Word) (target : Address) : device? w ≠ some (.call target) := by
  unfold device?
  split <;> simp

/-- No word of the family `F` is a return. -/
theorem device?_ne_ret (w : Word) : device? w ≠ some .ret := by
  unfold device?
  split <;> simp

/-- The calls are the words of the family `2`. -/
theorem decode?_eq_call_iff (w : Word) (target : Address) :
    decode? w = some (.call target) ↔ w.family = 0x2 ∧ w.nnn = target := by
  unfold decode?
  split
  case h_3 two => simp [BitVec.toNat_eq, two]
  all_goals simp_all [BitVec.toNat_eq, system?_eq_some_iff, device?_ne_call]

/-- There is one word that returns. -/
theorem decode?_eq_ret_iff (w : Word) : decode? w = some .ret ↔ w = 0x00EE := by
  constructor
  · intro h
    unfold decode? at h
    split at h
    case h_1 => simpa [system?_eq_some_iff] using h
    all_goals simp_all [device?_ne_ret]
  · rintro rfl
    rfl

end Instruction

end ChipEight
