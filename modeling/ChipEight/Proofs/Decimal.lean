import ChipEight.Proofs.Transfer

namespace ChipEight

/-!
# Decimal digits in the memory

One word stores the three decimal digits of its register from the index register on.  The word
`F265` loads them into the first three registers, of which that register may be one.

* `Byte.Decimal` — three digits that a byte is written with, and `Byte.decimal_iff`, which says
  that there are no others;
* `Word.StoresDecimal` — the word that stores them;
* `Machine.indexed_execute_storeDecimal`, `Machine.cell_execute_storeDecimal_of_ne` — what it does
  to the memory, cell by cell;
* `Machine.DigitsComeBack`, `Machine.decimal_digits_come_back` — the number is found again in
  the first three registers, wherever its digits were stored.
-/

/-- A byte is written with three decimal digits. -/
structure Byte.Decimal (value hundreds tens ones : Byte) : Prop where
  hundreds_le : hundreds.toNat ≤ 9
  tens_le : tens.toNat ≤ 9
  ones_le : ones.toNat ≤ 9
  sum_eq : 100 * hundreds.toNat + 10 * tens.toNat + ones.toNat = value.toNat

/-- It is written with its digits, and with no others. -/
theorem Byte.decimal_iff (value a b c : Byte) :
    Decimal value a b c ↔ [a, b, c] = Machine.decimalDigits value := by
  have small : value.toNat < 256 := value.isLt
  have hundreds : (value / 100).toNat = value.toNat / 100 := BitVec.toNat_udiv
  have tens : ((value / 10) % 10).toNat = value.toNat / 10 % 10 := BitVec.toNat_umod
  have ones : (value % 10).toNat = value.toNat % 10 := BitVec.toNat_umod
  simp only [Machine.decimalDigits, List.cons.injEq, and_true, BitVec.toNat_eq, hundreds, tens,
    ones]
  constructor
  · rintro ⟨a_le, b_le, c_le, sum⟩
    omega
  · rintro ⟨a_eq, b_eq, c_eq⟩
    constructor <;> omega

namespace Word

/-- The word stores the decimal digits of its register. -/
def StoresDecimal (w : Word) : Prop := w.family = 0xF ∧ w.kk = 0x33

instance (w : Word) : Decidable w.StoresDecimal := inferInstanceAs (Decidable (_ ∧ _))

variable {w : Word}

/-- It names the instruction that does so. -/
theorem StoresDecimal.decode? (stores : w.StoresDecimal) :
    Instruction.decode? w = some (.storeDecimal w.x) :=
  Instruction.decode?_of_names ⟨stores.1, stores.2, rfl⟩

end Word

namespace Machine

variable {ρ : Type} [RandomSource ρ] {v : Word}

/-- The digits are stored, and nothing else happens. -/
theorem execute_storeDecimal (m : Machine ρ) (stores : v.StoresDecimal) :
    (m.execute v).result = .ok v
      ∧ (m.execute v).machine
        = { m with
            memory := m.memory.store m.index (decimalDigits (m.reg v.x))
            operand := v } := by
  rw [execute_of_decode stores.decode?]
  exact ⟨rfl, rfl⟩

/-- The byte some places behind the index register, counted modulo the size of the memory. -/
def indexed (m : Machine ρ) (offset : Nat) : Byte :=
  m.memory.read (m.index + BitVec.ofNat 16 offset)

/-- The three cells behind the index register hold the digits. -/
theorem indexed_execute_storeDecimal (m : Machine ρ) (stores : v.StoresDecimal) {j : Nat}
    (among : j < 3) : (m.execute v).machine.indexed j = (decimalDigits (m.reg v.x))[j] := by
  simp only [indexed, (execute_storeDecimal m stores).2, Memory.read_add]
  exact m.memory.getElem_store m.index (decimalDigits (m.reg v.x)) (by simp [decimalDigits]) among

/-- All other cells are as they were. -/
theorem cell_execute_storeDecimal_of_ne (m : Machine ρ) (stores : v.StoresDecimal) {i : Nat}
    (hi : i < 4096) (apart : ∀ j < 3, i ≠ (m.index.toNat + j) % 4096) :
    (m.execute v).machine.memory.bytes[i] = m.memory.bytes[i] := by
  simp only [(execute_storeDecimal m stores).2]
  exact m.memory.getElem_store_of_ne m.index (decimalDigits (m.reg v.x)) ⟨i, hi⟩ apart

/-- The register whose digits are stored is written with what the three cells then hold. -/
theorem decimal_indexed (m : Machine ρ) (stores : v.StoresDecimal) :
    let stored := (m.execute v).machine
    (m.reg v.x).Decimal (stored.indexed 0) (stored.indexed 1) (stored.indexed 2) := by
  intro stored
  have cells {j : Nat} (among : j < 3) := indexed_execute_storeDecimal m stores among
  rw [Byte.decimal_iff, cells (j := 0) (by decide), cells (j := 1) (by decide),
    cells (j := 2) (by decide)]
  rfl

/-- The digits of a register's value go through the memory: `stored` is the machine with the
    digits stored, and `n` the one with these loaded. -/
structure DigitsComeBack (m : Machine ρ) (v : Word) (stored n : Machine ρ) : Prop where
  result : (m.execute v).result = .ok v
  /-- Only the memory changes, and there only three different cells. -/
  scene : stored = { m with memory := stored.memory, operand := v }
  cells : ∀ i < 3, ∀ j < 3, (m.index.toNat + i) % 4096 = (m.index.toNat + j) % 4096 → i = j
  beside : ∀ i, (inside : i < 4096) → (∀ j < 3, i ≠ (m.index.toNat + j) % 4096) →
    stored.memory.bytes[i] = m.memory.bytes[i]
  /-- These hold the digits, and so do the first three registers after they are loaded. -/
  digits : (m.reg v.x).Decimal (stored.indexed 0) (stored.indexed 1) (stored.indexed 2)
  registers : (m.reg v.x).Decimal (n.reg 0x0) (n.reg 0x1) (n.reg 0x2)
  /-- The rest stays. -/
  others : ∀ j : Nibble, 2 < j.toNat → n.reg j = m.reg j
  index : n.index = m.index
  memory : n.memory = stored.memory
  /-- There are no other digits, so another value has left others. -/
  unique : ∀ a b c : Byte, (m.reg v.x).Decimal a b c →
    a = n.reg 0x0 ∧ b = n.reg 0x1 ∧ c = n.reg 0x2
  differ : ∀ (k : Machine ρ) (u : Word), u.StoresDecimal → k.reg u.x ≠ m.reg v.x →
    ∃ j < 3, (k.execute u).machine.indexed j ≠ stored.indexed j
  /-- The loose machine comes to the same states. -/
  stores : Loose.execute v.toNat m.loose = .ok (v.toNat : Int) stored.loose
  loads : Loose.execute 0xF265 stored.loose = .ok 0xF265 n.loose

/-- **Decimal digits come back.**  Storing the digits of a register puts one digit, at most nine,
    into each of three different cells, counted modulo the size of the memory, and changes
    nothing else.  Loading them by `F265` leaves them in the first three registers, where they add
    up to what the register held, be it one of these three or not; the other registers and the
    index register stay.  The digits are the only ones that add up to it, so registers that hold
    different values leave different digits, whatever machines they belong to.  The loose machine,
    which divides integers and stores and loads the cells one by one, comes to the same states. -/
theorem decimal_digits_come_back (m : Machine ρ) (stores : v.StoresDecimal) :
    let stored := (m.execute v).machine
    DigitsComeBack m v stored (stored.execute 0xF265).machine := by
  intro stored
  set n := (stored.execute 0xF265).machine
  have loads : (0xF265 : Word).Loads := by decide
  have loose := Loose.Runs.execute (m := stored) loads.decode?
  rw [show ((0xF265 : Word).toNat : Int) = 0xF265 from rfl] at loose
  have executed : stored = _ := (execute_storeDecimal m stores).2
  have index : stored.index = m.index := by rw [executed]
  have digits : (m.reg v.x).Decimal (stored.indexed 0) (stored.indexed 1) (stored.indexed 2) :=
    decimal_indexed m stores
  have loaded (j : Nibble) (low : j.toNat ≤ 2) : n.reg j = stored.indexed j.toNat := by
    refine (reg_execute_load stored loads j).trans ((if_pos low).trans ?_)
    rw [indexed, Memory.read_add]
  have registers : (m.reg v.x).Decimal (n.reg 0x0) (n.reg 0x1) (n.reg 0x2) := by
    rw [loaded 0x0 (by decide), loaded 0x1 (by decide), loaded 0x2 (by decide)]
    exact digits
  exact {
    result := (execute_storeDecimal m stores).1
    scene := by rw [executed]
    cells := fun i hi j hj same => by omega
    beside := fun i inside => cell_execute_storeDecimal_of_ne m stores inside
    digits := digits
    registers := registers
    others := by
      intro j above
      refine (reg_execute_load stored loads j).trans ((if_neg (Nat.not_le.mpr above)).trans ?_)
      rw [executed]
      rfl
    index := (scene_execute_load stored loads).1.trans index
    memory := (scene_execute_load stored loads).2
    unique := by
      intro a b c other
      have same : [a, b, c] = [n.reg 0x0, n.reg 0x1, n.reg 0x2] :=
        ((Byte.decimal_iff (m.reg v.x) a b c).mp other).trans
          ((Byte.decimal_iff (m.reg v.x) _ _ _).mp registers).symm
      simpa using same
    differ := by
      intro k u storesToo different
      -- The same digits would add up to the same value.
      by_contra same
      push Not at same
      have others := decimal_indexed k storesToo
      simp only [same 0 (by decide), same 1 (by decide), same 2 (by decide)] at others
      exact different (BitVec.eq_of_toNat_eq (others.sum_eq.symm.trans digits.sum_eq))
    stores := Loose.Runs.execute stores.decode?
    loads := loose }

/-- The theorem at the register `V1`, which holds 254 and is loaded over, with the last digit in
    the first cell of the memory. -/
theorem digits_come_back_across_the_end :
    let m := { (new false (Wheel.ofList [])).setReg 0x1 254 with index := 0x0FFE }
    let n := ((m.execute 0xF133).machine.execute 0xF265).machine
    (0xF133 : Word).StoresDecimal ∧ n.reg 0x0 = 2 ∧ n.reg 0x1 = 5 ∧ n.reg 0x2 = 4 := by
  intro m n
  have stores : (0xF133 : Word).StoresDecimal := by decide
  have value : m.reg (0xF133 : Word).x = 254 := rfl
  -- From here on the 4096 bytes of this machine must not be looked at.
  clear_value m
  have digits : (m.reg (0xF133 : Word).x).Decimal 2 5 4 := by
    rw [value, Byte.decimal_iff]
    decide
  obtain ⟨hundreds, tens, ones⟩ := (decimal_digits_come_back m stores).unique 2 5 4 digits
  exact ⟨stores, hundreds.symm, tens.symm, ones.symm⟩

end Machine

end ChipEight
