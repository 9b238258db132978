import ChipEight.Proofs.Footprint
import ChipEight.Proofs.Loose.Operations

namespace ChipEight

/-!
# Registers to the memory and back

One word stores the first registers in the memory from the index register on, another one loads
them from there.  The cells are counted modulo the size of the memory, so a block may go on at
the first cell behind the last one.

* `Memory.getElem_store` — bytes that were stored are found where they were put, since at most
  as many bytes as there are cells lie in different cells;
* `Word.Stores`, `Word.Loads` — the two words;
* `Machine.cell_execute_store`, `Machine.reg_execute_load` — what they do, cell by cell and
  register by register;
* `Machine.load_of_store`, `Machine.store_of_load` — each of them undoes the other.
-/

/-- Bytes that are stored are found where they were put, if no cell is met twice. -/
theorem Memory.getElem_store (m : Memory) (a : Word) (bs : List Byte) (short : bs.length ≤ 4096)
    {j : Nat} (inside : j < bs.length) :
    (m.store a bs).bytes[(a.toNat + j) % 4096] = bs[j] := by
  induction bs generalizing m a j with
  | nil => exact nomatch inside
  | cons b bs ih =>
    have next : (a + 1).toNat = (a.toNat + 1) % 65536 := BitVec.toNat_add a 1
    have short : bs.length + 1 ≤ 4096 := short
    cases j with
    | zero =>
      -- The bytes behind the first one do not reach its cell again.
      have apart : ∀ k < bs.length, (cell a).val ≠ ((a + 1).toNat + k) % 4096 := by
        intro k hk
        rw [val_cell, next]
        omega
      have kept := getElem_store_of_ne (m.write a b) (a + 1) bs (cell a) apart
      have put : (m.write a b).bytes[cell a] = b := Vector.getElem_set_self (cell a).isLt
      simpa [store, put] using kept
    | succ j =>
      have place : (a.toNat + (j + 1)) % 4096 = ((a + 1).toNat + j) % 4096 := by omega
      have rest := ih (m.write a b) (a + 1) (by omega) (Nat.lt_of_succ_lt_succ inside)
      simpa [store, place] using rest

namespace Word

/-- The word stores the registers up to its own one. -/
def Stores (w : Word) : Prop := w.family = 0xF ∧ w.kk = 0x55

/-- The word loads the registers up to its own one. -/
def Loads (w : Word) : Prop := w.family = 0xF ∧ w.kk = 0x65

instance (w : Word) : Decidable w.Stores := inferInstanceAs (Decidable (_ ∧ _))

instance (w : Word) : Decidable w.Loads := inferInstanceAs (Decidable (_ ∧ _))

variable {w : Word}

/-- A word that stores names the instruction that stores. -/
theorem Stores.decode? (stores : w.Stores) :
    Instruction.decode? w = some (.storeRegisters w.x) :=
  Instruction.decode?_of_names ⟨stores.1, stores.2, rfl⟩

/-- A word that loads names the instruction that loads. -/
theorem Loads.decode? (loads : w.Loads) :
    Instruction.decode? w = some (.loadRegisters w.x) :=
  Instruction.decode?_of_names ⟨loads.1, loads.2, rfl⟩

end Word

namespace Machine

variable {ρ : Type} [RandomSource ρ] {v w : Word}

/-! ### One word -/

/-- Storing leaves the index register alone. -/
theorem index_execute_store (m : Machine ρ) (stores : v.Stores) :
    (m.execute v).machine.index = m.index := by
  rw [execute_of_decode stores.decode?]
  rfl

/-- The cells of a word that stores hold the registers. -/
theorem cell_execute_store (m : Machine ρ) (stores : v.Stores) {j : Nibble}
    (within : j.toNat ≤ v.x.toNat) :
    (m.execute v).machine.memory.bytes[(m.index.toNat + j.toNat) % 4096] = m.reg j := by
  have few : v.x.toNat + 1 ≤ 16 := v.x.isLt
  have count : (m.registers.toList.take (v.x.toNat + 1)).length = v.x.toNat + 1 := by
    simp [Bank.toList, few]
  have executed : (m.execute v).machine.memory
      = m.memory.store m.index (m.registers.toList.take (v.x.toNat + 1)) := by
    rw [execute_of_decode stores.decode?]
    rfl
  have stored := m.memory.getElem_store m.index (m.registers.toList.take (v.x.toNat + 1))
    (by omega) (j := j.toNat) (by omega)
  simp only [executed, stored, List.getElem_take]
  simp [Bank.toList, reg, Bank.entry]

/-- All other cells are as they were. -/
theorem cell_execute_store_of_ne (m : Machine ρ) (stores : v.Stores) {i : Nat} (hi : i < 4096)
    (apart : ∀ j ≤ v.x.toNat, i ≠ (m.index.toNat + j) % 4096) :
    (m.execute v).machine.memory.bytes[i] = m.memory.bytes[i] := by
  apply (footprint_execute m v).memory ⟨i, hi⟩
  rintro (⟨-, decimal, -⟩ | ⟨-, -, j, within, same⟩)
  · rw [stores.2] at decimal
    exact absurd decimal (by decide)
  · exact apart j within same

/-- Loading leaves the index register and the memory alone. -/
theorem scene_execute_load (m : Machine ρ) (loads : w.Loads) :
    (m.execute w).machine.index = m.index ∧ (m.execute w).machine.memory = m.memory := by
  rw [execute_of_decode loads.decode?]
  simp only [perform, loadRegisters, noting, and_self]

/-- The registers of a word that loads hold the cells, all others are as they were. -/
theorem reg_execute_load (m : Machine ρ) (loads : w.Loads) (j : Nibble) :
    (m.execute w).machine.reg j
      = if j.toNat ≤ w.x.toNat then m.memory.bytes[(m.index.toNat + j.toNat) % 4096]
        else m.reg j := by
  have wide : j.setWidth 16 = BitVec.ofNat 16 j.toNat := (BitVec.ofNat_toNat 16 j).symm
  unfold reg
  rw [execute_of_decode loads.decode?]
  simp only [perform, loadRegisters, Bank.entry_ofFn, wide, Memory.read_add, noting, reg]

/-! ### One word after the other -/

/-- **Loading undoes storing.**  What happens in between may change everything but the memory
    and the index register. -/
theorem load_of_store {m k : Machine ρ} (stores : v.Stores) (loads : w.Loads)
    (memory : k.memory = (m.execute v).machine.memory) (index : k.index = m.index) (j : Nibble) :
    (k.execute w).machine.reg j
      = if j.toNat ≤ w.x.toNat then
          if j.toNat ≤ v.x.toNat then m.reg j
          else m.memory.bytes[(m.index.toNat + j.toNat) % 4096]
        else k.reg j := by
  simp only [reg_execute_load k loads, memory, index]
  split
  · split
    · next within => exact cell_execute_store m stores within
    · next above =>
      -- Of sixteen cells in a row no two are the same.
      have apart : ∀ i ≤ v.x.toNat,
          (m.index.toNat + j.toNat) % 4096 ≠ (m.index.toNat + i) % 4096 := by
        have := j.isLt
        omega
      exact cell_execute_store_of_ne m stores (Nat.mod_lt _ (by decide)) apart
  · rfl

/-- **Storing carries what was loaded.**  The cells at the new place hold what the cells at the
    old one held, also if some of them are the same. -/
theorem store_of_load {m k : Machine ρ} (stores : v.Stores) (loads : w.Loads)
    (same : v.x = w.x) (registers : k.registers = (m.execute w).machine.registers) {j : Nat}
    (within : j ≤ v.x.toNat) :
    (k.execute v).machine.memory.bytes[(k.index.toNat + j) % 4096]
      = m.memory.bytes[(m.index.toNat + j) % 4096] := by
  have narrow : (BitVec.ofNat 4 j).toNat = j := by
    have := v.x.isLt
    rw [BitVec.toNat_ofNat]
    omega
  have stored := cell_execute_store k stores (j := BitVec.ofNat 4 j) (by omega)
  have held : k.reg (BitVec.ofNat 4 j) = (m.execute w).machine.reg (BitVec.ofNat 4 j) := by
    unfold reg
    rw [registers]
  rw [held, reg_execute_load m loads, if_pos (by rw [narrow, ← same]; exact within)] at stored
  simpa only [narrow] using stored

/-- All other cells are as they were before loading. -/
theorem store_of_load_of_ne {m k : Machine ρ} (stores : v.Stores) (loads : w.Loads)
    (memory : k.memory = (m.execute w).machine.memory) {i : Nat} (hi : i < 4096)
    (apart : ∀ j ≤ v.x.toNat, i ≠ (k.index.toNat + j) % 4096) :
    (k.execute v).machine.memory.bytes[i] = m.memory.bytes[i] := by
  have held : k.memory = m.memory := memory.trans (scene_execute_load m loads).2
  have kept := cell_execute_store_of_ne k stores hi apart
  simp only [held] at kept
  exact kept

/-- Storing at the place that was loaded from changes nothing. -/
theorem memory_of_load_of_store {m k : Machine ρ} (stores : v.Stores) (loads : w.Loads)
    (same : v.x = w.x) (memory : k.memory = (m.execute w).machine.memory)
    (registers : k.registers = (m.execute w).machine.registers) (index : k.index = m.index) :
    (k.execute v).machine.memory = m.memory := by
  ext i hi : 1
  by_cases met : ∃ j ≤ v.x.toNat, i = (k.index.toNat + j) % 4096
  · obtain ⟨j, within, place⟩ := met
    have carried := store_of_load stores loads same registers within
    simp only [← place, ← index] at carried
    exact carried
  · push Not at met
    exact store_of_load_of_ne stores loads memory hi met

/-! ### All of it -/

/-- **Blocks come back whole.**  Registers that were stored are loaded again as they were, as far
    as both words go, whatever happened to the registers in between; further registers get the
    cells behind those that were stored, which storing has not touched, and the rest are left
    alone.  The other way round, cells that were loaded are stored as they were, at any new place,
    and no other cell changes, so at the old place none does.  The index register stays, and the
    loose machine, which goes through the registers one by one, comes to the same states. -/
theorem blocks_come_back (m : Machine ρ) (stores : v.Stores) (loads : w.Loads) :
    let stored := (m.execute v).machine
    let loaded := (m.execute w).machine
    stored.index = m.index ∧ loaded.index = m.index
      ∧ (∀ k : Machine ρ, k.memory = stored.memory → k.index = m.index →
        let n := (k.execute w).machine
        (∀ j : Nibble, j.toNat ≤ min v.x.toNat w.x.toNat → n.reg j = m.reg j)
          ∧ (∀ j : Nibble, v.x.toNat < j.toNat → j.toNat ≤ w.x.toNat →
            n.reg j = m.memory.bytes[(m.index.toNat + j.toNat) % 4096])
          ∧ (∀ j : Nibble, w.x.toNat < j.toNat → n.reg j = k.reg j)
          ∧ n.memory = stored.memory)
      ∧ (v.x = w.x → ∀ k : Machine ρ, k.memory = loaded.memory → k.registers = loaded.registers →
        let n := (k.execute v).machine
        (∀ j ≤ v.x.toNat, n.memory.bytes[(k.index.toNat + j) % 4096]
            = m.memory.bytes[(m.index.toNat + j) % 4096])
          ∧ (∀ i, (inside : i < 4096) → (∀ j ≤ v.x.toNat, i ≠ (k.index.toNat + j) % 4096) →
            n.memory.bytes[i] = m.memory.bytes[i])
          ∧ (k.index = m.index → n.memory = m.memory))
      ∧ ∀ k : Machine ρ,
        Loose.execute v.toNat k.loose = .ok (v.toNat : Int) (k.execute v).machine.loose
          ∧ Loose.execute w.toNat k.loose = .ok (w.toNat : Int) (k.execute w).machine.loose := by
  intro stored loaded
  refine ⟨index_execute_store m stores, (scene_execute_load m loads).1, ?_, ?_, fun k =>
    ⟨Loose.Runs.execute stores.decode?, Loose.Runs.execute loads.decode?⟩⟩
  · intro k memory index n
    have registers := load_of_store stores loads memory index
    refine ⟨fun j both => ?_, fun j above within => ?_, fun j above => ?_, ?_⟩
    · rw [registers, if_pos (by omega), if_pos (by omega)]
    · rw [registers, if_pos within, if_neg (by omega)]
    · rw [registers, if_neg (by omega)]
    · rw [(scene_execute_load k loads).2, memory]
  · intro same k memory registers n
    exact ⟨fun j => store_of_load stores loads same registers,
      fun i => store_of_load_of_ne stores loads memory,
      memory_of_load_of_store stores loads same memory registers⟩

/-- The theorem at four registers that are stored across the end of the memory, and six that are
    loaded from there after all registers were cleared. -/
theorem registers_come_back_across_the_end :
    let m := { new false (Wheel.ofList []) with
      index := 0xFFFE, registers := .ofFn fun i => i.setWidth 8 + 0x40 }
    let cleared := { (m.execute 0xF355).machine with registers := .fill 0 }
    let n := (cleared.execute 0xF565).machine
    (0xF355 : Word).Stores ∧ (0xF565 : Word).Loads
      ∧ n.reg 0x1 = 0x41 ∧ n.reg 0x3 = 0x43 ∧ n.reg 0x5 = 0 ∧ n.reg 0x6 = 0 := by
  intro m cleared n
  have stores : (0xF355 : Word).Stores := by decide
  have loads : (0xF565 : Word).Loads := by decide
  have held (j : Nibble) : m.reg j = j.setWidth 8 + 0x40 := by
    show (Bank.ofFn fun i => i.setWidth 8 + 0x40 : Bank Byte).entry j = _
    rw [Bank.entry_ofFn]
  have place : (m.index.toNat + (0x5 : Nibble).toNat) % 4096 = 3 := by decide
  have zero : m.memory.bytes[3] = 0 := by
    show Memory.initial.bytes[3] = 0
    simp [Memory.getElem_initial, Font.start]
  -- From here on the 4096 bytes of this machine must not be looked at.
  clear_value m
  obtain ⟨index, -, back, -, -⟩ := blocks_come_back m stores loads
  obtain ⟨both, behind, above, -⟩ := back cleared rfl index
  refine ⟨stores, loads, ?_, ?_, ?_, ?_⟩
  · exact (both 0x1 (by decide)).trans (held 0x1)
  · exact (both 0x3 (by decide)).trans (held 0x3)
  · have loaded := behind 0x5 (by decide) (by decide)
    simp only [place, zero] at loaded
    exact loaded
  · exact (above 0x6 (by decide)).trans (Bank.entry_fill 0 0x6)

end Machine

end ChipEight
