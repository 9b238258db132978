import ChipEight.Proofs.Loose.Drawing

namespace ChipEight

/-!
# Finding the routine of a word

* `Loose.Follows` — a routine does what an instruction does, or what is done with a word
  that names none;
* `Loose.follows_system`, `Loose.follows_arithmetic`, `Loose.follows_keyboard`,
  `Loose.follows_device` — the second tables;
* `Loose.follows_dispatch` — hence the tables lead every word to its instruction, and
  none of them lacks a key.
-/

namespace Loose

variable {ρ : Type} [RandomSource ρ] {m : Machine ρ}

/-- A routine does what an instruction does, or what is done with a word that names
    none. -/
def Follows (p : Step ρ Unit) (m : Machine ρ) : Option Instruction → Prop
  | some i => Runs p m () (m.perform i)
  | none => p m.loose = unknown m.loose

/-- It is enough that another routine does so from the same state. -/
theorem Follows.of_eq {p q : Step ρ Unit} (same : p m.loose = q m.loose)
    {instruction : Option Instruction} (follows : Follows q m instruction) :
    Follows p m instruction := by
  cases instruction <;> exact same.trans follows

/-- It is enough that the rest does so after a step that changes nothing. -/
theorem Follows.bind {α : Type} {p : Step ρ α} {f : α → Step ρ Unit} {a : α}
    (first : Runs p m a m) {instruction : Option Instruction}
    (rest : Follows (f a) m instruction) : Follows (p >>= f) m instruction :=
  Follows.of_eq (bind_loose first) rest

omit [RandomSource ρ] in
/-- The routine of a key that a table has. -/
theorem routine_of_lookup {table : List (Int × Step ρ Unit)} {key : Int} {p : Step ρ Unit}
    (found : table.lookup key = some p) (otherwise : Step ρ Unit) :
    routine table key otherwise = p := by
  rw [routine, found]
  rfl

omit [RandomSource ρ] in
/-- The routine of a key that a table does not have. -/
theorem routine_of_ne {table : List (Int × Step ρ Unit)} {key : Int}
    (missing : ∀ p ∈ table, key ≠ p.1) (otherwise : Step ρ Unit) :
    routine table key otherwise = otherwise := by
  have none : table.lookup key = none :=
    List.lookup_eq_none_iff.mpr fun p hp => bne_iff_ne.mpr (missing p hp)
  rw [routine, none]
  rfl

/-! ### Arithmetic -/

/-- A flag as a number. -/
theorem flag_eq {p : Prop} [Decidable p] {told : Bool} (h : p ↔ told = true) :
    (if p then (1 : Int) else 0) = (Machine.flagByte told).toNat := by
  cases told with
  | true =>
    rw [if_pos (h.mpr rfl)]
    rfl
  | false =>
    rw [if_neg fun hp => nomatch h.mp hp]
    rfl

/-- The lowest bit of a number as a flag. -/
theorem land_one_eq (a : Nat) {told : Bool} (h : a % 2 = 1 ↔ told = true) :
    Int.land a 0x1 = (Machine.flagByte told).toNat := by
  show ((a &&& 1 : Nat) : Int) = _
  rw [Nat.and_one_is_mod]
  cases told with
  | true =>
    rw [h.mpr rfl]
    rfl
  | false =>
    have even : a % 2 = 0 := by
      have := Nat.mod_two_eq_zero_or_one a
      have : ¬ a % 2 = 1 := fun odd => nomatch h.mp odd
      omega
    rw [even]
    rfl

/-- Words whose first nibble is 8. -/
theorem follows_arithmetic :
    Follows arithmetic m
      ((Arithmetic.ofNibble? m.operand.n).map (.arithmetic · m.operand.x m.operand.y)) := by
  refine Follows.bind Runs.fieldN ?_
  rw [Arithmetic.ofNibble?]
  split
  case h_1 n =>
    rw [n, routine_of_lookup rfl]
    exact Runs.combine fun a b => ⟨b, rfl, rfl⟩
  case h_2 n =>
    rw [n, routine_of_lookup rfl]
    exact Runs.combine fun a b => ⟨a ||| b, rfl, by rw [BitVec.toNat_or]; rfl⟩
  case h_3 n =>
    rw [n, routine_of_lookup rfl]
    exact Runs.combine fun a b => ⟨a &&& b, rfl, by rw [BitVec.toNat_and]; rfl⟩
  case h_4 n =>
    rw [n, routine_of_lookup rfl]
    exact Runs.combine fun a b => ⟨a ^^^ b, rfl, by rw [BitVec.toNat_xor]; rfl⟩
  case h_5 n =>
    rw [n, routine_of_lookup rfl]
    refine Runs.combineFlagged fun a b => ⟨a + b, _, rfl, Mask.land_add a b, flag_eq ?_⟩
    rw [decide_eq_true_iff]
    omega
  case h_6 n =>
    rw [n, routine_of_lookup rfl]
    refine Runs.combineFlagged fun a b => ⟨a - b, _, rfl, Mask.land_sub a b, flag_eq ?_⟩
    rw [decide_eq_true_iff]
    omega
  case h_7 n =>
    rw [n, routine_of_lookup rfl]
    refine Runs.shift fun a _ => ⟨a >>> 1, _, rfl, ?_, land_one_eq a.toNat ?_⟩
    · rw [BitVec.toNat_ushiftRight]
      rfl
    · rw [BitVec.getLsbD, Nat.testBit_zero, decide_eq_true_iff]
  case h_8 n =>
    rw [n, routine_of_lookup rfl]
    refine Runs.combineFlagged fun a b => ⟨b - a, _, rfl, Mask.land_sub b a, flag_eq ?_⟩
    rw [decide_eq_true_iff]
    omega
  case h_9 n =>
    rw [n, routine_of_lookup rfl]
    refine Runs.shift fun a _ =>
      ⟨a <<< 1, _, rfl, Mask.land_shiftLeft a, land_one_eq (a.toNat >>> 7) ?_⟩
    have := a.isLt
    rw [BitVec.msb_eq_decide, decide_eq_true_iff, Nat.shiftRight_eq_div_pow]
    omega
  case h_10 =>
    -- The keys that are left have no routine.
    refine Follows.of_eq (congrFun (routine_of_ne ?_ _) m.loose) rfl
    simp only [List.forall_mem_cons, List.not_mem_nil, false_implies, implies_true, and_true,
      imp_false] at *
    omega

/-- Words whose first nibble is E. -/
theorem follows_keyboard :
    Follows keyboard m ((Instruction.keyCondition? m.operand).map .skip) := by
  refine Follows.bind Runs.fieldKK ?_
  rw [Instruction.keyCondition?]
  split
  case h_1 kk =>
    rw [kk, routine_of_lookup rfl]
    exact Runs.skipIf true Runs.keyIsDown
  case h_2 kk =>
    rw [kk, routine_of_lookup rfl]
    exact Runs.skipUnless Runs.keyIsDown
  case h_3 =>
    refine Follows.of_eq (congrFun (routine_of_ne ?_ _) m.loose) rfl
    simp only [List.forall_mem_cons, List.not_mem_nil, false_implies, implies_true, and_true,
      imp_false] at *
    omega

/-- The middle byte of a word, looked at with a mask. -/
theorem land_middle (w : Word) : Int.land w.toNat 0x0FF0 = (w.toNat / 16 % 256 * 16 : Nat) := by
  show ((w.toNat &&& 255 <<< 4 : Nat) : Int) = _
  have middle : w.toNat &&& 255 <<< 4 = ((w.toNat >>> 4) &&& 255) <<< 4 := by
    apply Nat.eq_of_testBit_eq
    intro i
    simp only [Nat.testBit_and, Nat.testBit_shiftLeft, Nat.testBit_shiftRight]
    by_cases low : i ≥ 4
    · simp [low, Nat.add_sub_cancel' low]
    · simp [low]
  rw [middle, show (255 : Nat) = 2 ^ 8 - 1 from rfl, Nat.and_two_pow_sub_one_eq_mod,
    Nat.shiftRight_eq_div_pow, Nat.shiftLeft_eq]

/-- Words whose first nibble is 0. -/
theorem follows_system (family : m.operand.family.toNat = 0) :
    Follows system m (Instruction.system? m.operand) := by
  refine Follows.bind (Runs.look Loose.operand) ?_
  show Follows (if Int.land m.operand.toNat 0x0FF0 = 0x00E0 then
    routine _ (Int.land m.operand.toNat 0x000F) unknown else unknown) m _
  have family : m.operand.toNat / 4096 % 16 = 0 := by
    rw [Word.family, BitVec.extractLsb'_toNat, Nat.shiftRight_eq_div_pow] at family
    exact family
  -- With the family known, the middle byte and the last nibble make up the whole word.
  have low : Int.land m.operand.toNat 0x000F = (m.operand.toNat % 16 : Nat) := by
    rw [Mask.n, Word.n, BitVec.extractLsb'_toNat]
    rfl
  have below := m.operand.isLt
  rw [land_middle, low, Instruction.system?]
  by_cases clear : m.operand = 0x00E0
  · have word : m.operand.toNat = 0x00E0 := congrArg BitVec.toNat clear
    rw [if_pos clear, word, if_pos (by decide), routine_of_lookup rfl]
    exact Runs.clear
  · rw [if_neg clear]
    by_cases ret : m.operand = 0x00EE
    · have word : m.operand.toNat = 0x00EE := congrArg BitVec.toNat ret
      rw [if_pos ret, word, if_pos (by decide), routine_of_lookup rfl]
      exact Runs.ret
    · have notClear : m.operand.toNat ≠ 0x00E0 := fun word => clear (BitVec.eq_of_toNat_eq word)
      have notRet : m.operand.toNat ≠ 0x00EE := fun word => ret (BitVec.eq_of_toNat_eq word)
      rw [if_neg ret]
      by_cases middle : m.operand.toNat / 16 % 256 = 0x0E
      · rw [if_pos (by omega)]
        -- The middle byte is right, but the last nibble has no routine.
        refine Follows.of_eq (congrFun (routine_of_ne ?_ _) m.loose) rfl
        simp only [List.forall_mem_cons, List.not_mem_nil, false_implies, implies_true, and_true]
        omega
      · rw [if_neg (by omega)]
        exact rfl

/-- Words whose first nibble is F. -/
theorem follows_device : Follows device m (Instruction.device? m.operand) := by
  refine Follows.bind Runs.fieldKK ?_
  rw [Instruction.device?]
  split
  case h_1 kk =>
    rw [kk, routine_of_lookup rfl]
    exact Runs.readTimer
  case h_2 kk =>
    rw [kk, routine_of_lookup rfl]
    exact Runs.awaitKey
  case h_3 kk =>
    rw [kk, routine_of_lookup rfl]
    exact Runs.setDelay
  case h_4 kk =>
    rw [kk, routine_of_lookup rfl]
    exact Runs.setSound
  case h_5 kk =>
    rw [kk, routine_of_lookup rfl]
    exact Runs.addIndex
  case h_6 kk =>
    rw [kk, routine_of_lookup rfl]
    exact Runs.findDigit
  case h_7 kk =>
    rw [kk, routine_of_lookup rfl]
    exact Runs.storeDecimal
  case h_8 kk =>
    rw [kk, routine_of_lookup rfl]
    exact Runs.storeRegisters
  case h_9 kk =>
    rw [kk, routine_of_lookup rfl]
    exact Runs.loadRegisters
  case h_10 =>
    refine Follows.of_eq (congrFun (routine_of_ne ?_ _) m.loose) rfl
    simp only [List.forall_mem_cons, List.not_mem_nil, false_implies, implies_true, and_true,
      imp_false] at *
    omega

/-! ### All words -/

/-- **Dispatch.** The tables lead every word to its instruction. -/
theorem follows_dispatch : Follows dispatch m (Instruction.decode? m.operand) := by
  refine Follows.bind (Runs.look Loose.operand) ?_
  show Follows (routine families (Int.land m.operand.toNat 0xF000 >>> (12 : Nat)) _) m _
  rw [Mask.family, Instruction.decode?]
  split
  case h_1 family =>
    rw [family, routine_of_lookup rfl]
    exact follows_system family
  case h_2 family =>
    rw [family, routine_of_lookup rfl]
    exact Runs.jump
  case h_3 family =>
    rw [family, routine_of_lookup rfl]
    exact Runs.call
  case h_4 family =>
    rw [family, routine_of_lookup rfl]
    exact Runs.skipIf true Runs.holdsConstant
  case h_5 family =>
    rw [family, routine_of_lookup rfl]
    exact Runs.skipUnless Runs.holdsConstant
  case h_6 family =>
    rw [family, routine_of_lookup rfl]
    exact Runs.skipIf true Runs.registersAgree
  case h_7 family =>
    rw [family, routine_of_lookup rfl]
    exact Runs.setConstant
  case h_8 family =>
    rw [family, routine_of_lookup rfl]
    exact Runs.addConstant
  case h_9 family =>
    rw [family, routine_of_lookup rfl]
    exact follows_arithmetic
  case h_10 family =>
    rw [family, routine_of_lookup rfl]
    exact Runs.skipUnless Runs.registersAgree
  case h_11 family =>
    rw [family, routine_of_lookup rfl]
    exact Runs.setIndexConstant
  case h_12 family =>
    rw [family, routine_of_lookup rfl]
    exact Runs.jumpFrom
  case h_13 family =>
    rw [family, routine_of_lookup rfl]
    exact Runs.setRandom
  case h_14 family =>
    rw [family, routine_of_lookup rfl]
    exact Runs.drawSprite
  case h_15 family =>
    rw [family, routine_of_lookup rfl]
    exact follows_keyboard
  case h_16 =>
    -- Only one family is left.
    have family : m.operand.family.toNat = 0xF := by
      have := m.operand.family.isLt
      simp only [imp_false] at *
      omega
    rw [family, routine_of_lookup rfl]
    exact follows_device

end Loose

end ChipEight
