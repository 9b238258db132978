import ChipEight.Proofs.Loose.Operations
import ChipEight.Proofs.Naming

namespace ChipEight

/-!
# The flags of the arithmetic

Five operations on two registers have a result and a flag.  The target, the source and the
register of the flag may be the same register, so the order in which they are read and written
matters.

* `Arithmetic.inNumbers?` — result and flag, told by the numbers in the two registers;
* `Arithmetic.inNumbers?_eq` — evaluating an operation on bytes gives these numbers;
* `Machine.Leaves` — what a word leaves in the registers, whichever of them are the same;
* `Machine.leaves_of_inNumbers?` — a word of the arithmetic leaves the result and the flag of
  what the registers held before it.
-/

namespace Arithmetic

/-- Result and flag of an operation with a flag, on the numbers of its two registers.  The
    flag of a sum is its carry, that of a difference says that it is above zero, and that of a
    shift is the bit that is lost. -/
def inNumbers? (op : Arithmetic) (a b : Int) : Option (Int × Int) :=
  match op with
  | add => some ((a + b) % 256, if 255 < a + b then 1 else 0)
  | subtract => some ((a - b) % 256, if b < a then 1 else 0)
  | shiftRight => some (a / 2, a % 2)
  | subtractFrom => some ((b - a) % 256, if a < b then 1 else 0)
  | shiftLeft => some (2 * a % 256, a / 128)
  | _ => none

/-- A flag as a number. -/
theorem toNat_flagByte (flag : Bool) :
    ((Machine.flagByte flag).toNat : Int) = if flag = true then 1 else 0 := by
  cases flag <;> simp [Machine.flagByte]

/-- A difference of bytes, counted modulo `256`. -/
theorem toNat_sub (a b : Byte) : ((a - b).toNat : Int) = ((a.toNat : Int) - b.toNat) % 256 := by
  rw [BitVec.toNat_sub]
  omega

/-- Evaluating an operation gives the numbers. -/
theorem inNumbers?_eq (op : Arithmetic) (a b : Byte) :
    op.inNumbers? a.toNat b.toNat
      = (op.eval a b).2.map fun flag =>
        (((op.eval a b).1.toNat : Int), ((Machine.flagByte flag).toNat : Int)) := by
  have bound := a.isLt
  cases op with
  | move | or | and | xor => rfl
  | add =>
    simp only [inNumbers?, eval, Option.map_some, toNat_flagByte, BitVec.toNat_add,
      decide_eq_true_eq]
    congr 2
    omega
  | subtract =>
    simp only [inNumbers?, eval, Option.map_some, toNat_flagByte, toNat_sub, decide_eq_true_eq,
      Int.ofNat_lt]
  | shiftRight =>
    have half : (a >>> 1).toNat = a.toNat / 2 := by
      rw [BitVec.toNat_ushiftRight, Nat.shiftRight_eq_div_pow]
    have lost : a.getLsbD 0 = decide (a.toNat % 2 = 1) := Nat.testBit_zero a.toNat
    simp only [inNumbers?, eval, Option.map_some, toNat_flagByte, half, lost, decide_eq_true_eq]
    congr 2
    split <;> omega
  | subtractFrom =>
    simp only [inNumbers?, eval, Option.map_some, toNat_flagByte, toNat_sub, decide_eq_true_eq,
      Int.ofNat_lt]
  | shiftLeft =>
    have double : (a <<< 1).toNat = 2 * a.toNat % 256 := by
      rw [BitVec.toNat_shiftLeft, Nat.shiftLeft_eq, Nat.mul_comm]
    simp only [inNumbers?, eval, Option.map_some, toNat_flagByte, double, BitVec.msb_eq_decide,
      decide_eq_true_eq]
    congr 2
    split <;> omega

end Arithmetic

namespace Machine

variable {ρ : Type}

/-- Combining two registers with a flag: the flag is there to stay, even where the result
    should be. -/
theorem reg_combine_of_flag {m : Machine ρ} {op : Arithmetic} {x y : Nibble} {value : Byte}
    {flag : Bool} (eval : op.eval (m.reg x) (m.reg y) = (value, some flag)) (i : Nibble) :
    (m.combine op x y).reg i
      = if i = flagRegister then flagByte flag else if i = x then value else m.reg i := by
  simp only [combine, eval, reg_setReg]

variable [RandomSource ρ]

/-- What a word leaves: the flag in its register, the result in the target unless that is the
    register of the flag, and everything else as it was.  The loose machine, which writes first
    the one and then the other, comes to the same state. -/
structure Leaves (m : Machine ρ) (w : Word) (value flag : Int) : Prop where
  result : (m.execute w).result = .ok w
  flag : ((m.execute w).machine.reg flagRegister).toNat = flag
  target : w.x ≠ flagRegister → ((m.execute w).machine.reg w.x).toNat = value
  others : ∀ i, i ≠ w.x → i ≠ flagRegister → (m.execute w).machine.reg i = m.reg i
  rest : (m.execute w).machine
    = { m with registers := (m.execute w).machine.registers, operand := w }
  loose : Loose.execute w.toNat m.loose = .ok (w.toNat : Int) (m.execute w).machine.loose

/-- A word of the arithmetic leaves the numbers of what its registers held before it. -/
theorem leaves_of_inNumbers? {m : Machine ρ} {w : Word} {value flag : Int} (op : Arithmetic)
    (family : w.family = 0x8) (variant : w.n = op.variant)
    (numbers : op.inNumbers? (m.reg w.x).toNat (m.reg w.y).toNat = some (value, flag)) :
    m.Leaves w value flag := by
  have known : Instruction.decode? w = some (.arithmetic op w.x w.y) :=
    Instruction.decode?_of_names ⟨family, variant, rfl, rfl⟩
  have executed : (m.execute w).machine = (m.noting w).combine op w.x w.y := by
    rw [execute_of_decode known]
    simp only [perform]
  obtain ⟨result, told, evaluated, numbers⟩ :
      ∃ result told, op.eval (m.reg w.x) (m.reg w.y) = (result, some told)
        ∧ ((result.toNat : Int), ((flagByte told).toNat : Int)) = (value, flag) := by
    rw [Arithmetic.inNumbers?_eq, Option.map_eq_some_iff] at numbers
    obtain ⟨told, some, numbers⟩ := numbers
    exact ⟨_, told, Prod.ext rfl some, numbers⟩
  obtain ⟨rfl, rfl⟩ := Prod.mk.inj numbers
  have registers (i : Nibble) : (m.execute w).machine.reg i
      = if i = flagRegister then flagByte told else if i = w.x then result else m.reg i := by
    rw [executed]
    exact reg_combine_of_flag (m := m.noting w) evaluated i
  constructor
  · rw [execute_of_decode known]
  · rw [registers, if_pos rfl]
  · intro apart
    rw [registers, if_neg apart, if_pos rfl]
  · intro i notTarget notFlag
    rw [registers, if_neg notFlag, if_neg notTarget]
  · have whole : (m.noting w).combine op w.x w.y
        = ((m.noting w).setReg w.x result).setReg flagRegister (flagByte told) := by
      unfold combine
      rw [show op.eval ((m.noting w).reg w.x) ((m.noting w).reg w.y) = _ from evaluated]
    rw [executed, whole]
    rfl
  · exact Loose.Runs.execute known

/-- **Flags are right whichever registers are the same.**  With the numbers `a` and `b` that the
    two registers hold before the word, an addition leaves their sum and its carry, the
    subtractions leave the difference and whether it is above zero, and the shifts, which do not
    depend on `b`, leave half or double of `a` and the bit that is lost.  So in a target other
    than the register of the flag nothing is lost at all, and the flag of a subtraction says that
    there is no borrow, but for equal numbers, where it is zero. -/
theorem flags_survive_aliasing (m : Machine ρ) {w : Word} (family : w.family = 0x8) :
    let a : Int := (m.reg w.x).toNat
    let b : Int := (m.reg w.y).toNat
    let target : Int := ((m.execute w).machine.reg w.x).toNat
    let flag : Int := ((m.execute w).machine.reg flagRegister).toNat
    (w.n = 0x4 → m.Leaves w ((a + b) % 256) (if 255 < a + b then 1 else 0))
      ∧ (w.n = 0x5 → m.Leaves w ((a - b) % 256) (if b < a then 1 else 0))
      ∧ (w.n = 0x7 → m.Leaves w ((b - a) % 256) (if a < b then 1 else 0))
      ∧ (w.n = 0x6 → m.Leaves w (a / 2) (a % 2))
      ∧ (w.n = 0xE → m.Leaves w (2 * a % 256) (a / 128))
      ∧ (w.x ≠ flagRegister →
        (w.n = 0x4 → target + 256 * flag = a + b)
          ∧ (w.n = 0x6 → 2 * target + flag = a)
          ∧ (w.n = 0xE → target + 256 * flag = 2 * a))
      ∧ (w.n = 0x5 → (a = b → flag = 0) ∧ (a ≠ b → (flag = 1 ↔ 0 ≤ a - b)))
      ∧ (w.n = 0x7 → (a = b → flag = 0) ∧ (a ≠ b → (flag = 1 ↔ 0 ≤ b - a))) := by
  intro a b target flag
  have added : w.n = 0x4 → m.Leaves w ((a + b) % 256) (if 255 < a + b then 1 else 0) :=
    fun variant => leaves_of_inNumbers? .add family variant rfl
  have subtracted : w.n = 0x5 → m.Leaves w ((a - b) % 256) (if b < a then 1 else 0) :=
    fun variant => leaves_of_inNumbers? .subtract family variant rfl
  have subtractedFrom : w.n = 0x7 → m.Leaves w ((b - a) % 256) (if a < b then 1 else 0) :=
    fun variant => leaves_of_inNumbers? .subtractFrom family variant rfl
  have halved : w.n = 0x6 → m.Leaves w (a / 2) (a % 2) :=
    fun variant => leaves_of_inNumbers? .shiftRight family variant rfl
  have doubled : w.n = 0xE → m.Leaves w (2 * a % 256) (a / 128) :=
    fun variant => leaves_of_inNumbers? .shiftLeft family variant rfl
  have byte : 0 ≤ a ∧ a < 256 := ⟨Int.natCast_nonneg _, Int.ofNat_lt.mpr (m.reg w.x).isLt⟩
  have byte' : 0 ≤ b ∧ b < 256 := ⟨Int.natCast_nonneg _, Int.ofNat_lt.mpr (m.reg w.y).isLt⟩
  refine ⟨added, subtracted, subtractedFrom, halved, doubled, fun apart => ⟨?_, ?_, ?_⟩, ?_, ?_⟩
  · intro variant
    have sum : target = (a + b) % 256 := (added variant).target apart
    have carry : flag = if 255 < a + b then 1 else 0 := (added variant).flag
    split at carry <;> omega
  · intro variant
    have half : target = a / 2 := (halved variant).target apart
    have lost : flag = a % 2 := (halved variant).flag
    omega
  · intro variant
    have double : target = 2 * a % 256 := (doubled variant).target apart
    have lost : flag = a / 128 := (doubled variant).flag
    omega
  · intro variant
    have larger : flag = if b < a then 1 else 0 := (subtracted variant).flag
    split at larger <;> omega
  · intro variant
    have larger : flag = if a < b then 1 else 0 := (subtractedFrom variant).flag
    split at larger <;> omega

/-- The theorem at the register of the flag added to itself, where only the carry stays, and at
    equal numbers one of which is in that register, which leave no flag. -/
theorem flag_register_is_added_to_itself :
    let m := (new false (Wheel.ofList [])).setReg 0xF 0x90
    let n := m.setReg 0xA 0x90
    (0x8FF4 : Word).family = 0x8 ∧ (0x8AF5 : Word).family = 0x8
      ∧ ((m.execute 0x8FF4).machine.reg flagRegister).toNat = 1
      ∧ ((n.execute 0x8AF5).machine.reg flagRegister).toNat = 0
      ∧ ((n.execute 0x8AF5).machine.reg 0xA).toNat = 0 := by
  intro m n
  have held : m.reg 0xF = 0x90 := reg_setReg _ _ _ _
  have held' : n.reg 0xF = 0x90 := (reg_setReg _ _ _ _).trans held
  have target : n.reg 0xA = 0x90 := reg_setReg _ _ _ _
  have fields : (0x8FF4 : Word).x = 0xF ∧ (0x8FF4 : Word).y = 0xF ∧ (0x8AF5 : Word).x = 0xA
      ∧ (0x8AF5 : Word).y = 0xF := by decide
  obtain ⟨added, -⟩ := flags_survive_aliasing m (w := 0x8FF4) (by decide)
  obtain ⟨-, subtracted, -⟩ := flags_survive_aliasing n (w := 0x8AF5) (by decide)
  simp only [fields, held, held', target] at added subtracted
  refine ⟨by decide, by decide, ?_, ?_, ?_⟩
  · exact Int.ofNat.inj (added (by decide)).flag
  · exact Int.ofNat.inj (subtracted (by decide)).flag
  · exact Int.ofNat.inj ((subtracted (by decide)).target (by decide))

end Machine

end ChipEight
