import ChipEight.Proofs.Fields
import ChipEight.Proofs.Loose.Masks
import ChipEight.Proofs.Loose.Routines

namespace ChipEight

/-!
# The machine as a loose machine

* `Machine.loose` — the state of the machine in integers and lists;
* `Loose.Runs` — a step of the loose machine, from the state of one machine to that of
  another;
* `Loose.Runs.bind` — one step after another;
* `Loose.Runs.register`, `Loose.Runs.byteAt` and their like — the parts of routines.
-/

open Loose

/-- The state of the machine in integers and lists. -/
def Machine.loose {ρ : Type} (m : Machine ρ) : Loose ρ where
  memory := numbers m.memory.bytes.toList
  registers := numbers m.registers.toList
  index := m.index.toNat
  pc := m.pc.toNat
  slots := numbers m.stack.slots.toList
  depth := m.stack.depth.val
  delay := m.delay.toNat
  sound := m.sound.toNat
  cells := m.picture.cells.toList
  redraw := m.redraw
  keys := m.keypad.keys.toList
  operand := m.operand.toNat
  strict := m.strict
  random := m.random

namespace Loose

variable {ρ α β : Type} {m m' m'' : Machine ρ}

/-! ### Lists -/

@[simp] theorem length_numbers {width : Nat} (xs : List (BitVec width)) :
    (numbers xs).length = xs.length := List.length_map _

@[simp] theorem getElem?_numbers {width : Nat} (xs : List (BitVec width)) (i : Nat) :
    (numbers xs)[i]? = xs[i]?.map fun b => (b.toNat : Int) := List.getElem?_map

/-- Every number of a list of bit vectors is in their range. -/
theorem range_of_mem_numbers {width : Nat} {xs : List (BitVec width)} {n : Int}
    (h : n ∈ numbers xs) : 0 ≤ n ∧ n ≤ 2 ^ width - 1 := by
  obtain ⟨b, -, rfl⟩ := List.mem_map.mp h
  have below : ((b.toNat : Nat) : Int) < ((2 ^ width : Nat) : Int) := Int.ofNat_lt.mpr b.isLt
  push_cast at below
  omega

/-- A place of the list is found from its start. -/
theorem place?_of_lt {size k : Nat} (h : k < size) : place? size k = some k := by
  rw [place?, if_pos (by omega), Int.toNat_natCast]

/-- An entry that is there is read. -/
theorem entry_of_getElem? {xs : List α} {k : Nat} {a : α} (h : xs[k]? = some a) :
    entry xs k = .ok a := by
  have below : k < xs.length := (List.getElem?_eq_some_iff.mp h).1
  have found : (place? xs.length k).bind (fun k => xs[k]?) = some a := by
    rw [place?_of_lt below, Option.bind_some, h]
  rw [entry, found]

/-- A place that is there is written. -/
theorem replace_of_lt {xs : List α} {k : Nat} (h : k < xs.length) (a : α) :
    replace xs k a = .ok (xs.set k a) := by
  rw [replace, place?_of_lt h]

/-! ### Steps -/

/-- A step of the loose machine goes well, from the state of one machine to that of
    another. -/
def Runs (p : Step ρ α) (m : Machine ρ) (a : α) (m' : Machine ρ) : Prop :=
  p m.loose = .ok a m'.loose

/-- A step after one that went well. -/
theorem bind_loose {p : Step ρ α} {f : α → Step ρ β} {a : α} (first : Runs p m a m') :
    (p >>= f) m.loose = f a m'.loose := by
  have first : p m.loose = .ok a m'.loose := first
  show EStateM.bind p f m.loose = _
  rw [EStateM.bind, first]

namespace Runs

/-- One step after another. -/
theorem bind {p : Step ρ α} {f : α → Step ρ β} {a : α} {b : β} (first : Runs p m a m')
    (rest : Runs (f a) m' b m'') : Runs (p >>= f) m b m'' :=
  (bind_loose first).trans rest

/-- Nothing to do. -/
theorem pure (a : α) : Runs (Pure.pure a) m a m := rfl

/-- Looking at the state. -/
theorem look (f : Loose ρ → α) : Runs (look f) m (f m.loose) m := rfl

/-- Changing the state. -/
theorem change {f : Loose ρ → Loose ρ} (h : f m.loose = m'.loose) : Runs (change f) m () m' :=
  congrArg (EStateM.Result.ok ()) h

/-- Reading an entry that is there. -/
theorem readAt {list : Loose ρ → List α} {k : Nat} {a : α} (h : (list m.loose)[k]? = some a) :
    Runs (readAt list k) m a m := by
  refine bind (look list) ?_
  rw [entry_of_getElem? h]
  rfl

/-- Writing a place that is there. -/
theorem writeAt {list : Loose ρ → List α} {put : Loose ρ → List α → Loose ρ} {k : Nat} {a : α}
    (h : k < (list m.loose).length) (after : put m.loose ((list m.loose).set k a) = m'.loose) :
    Runs (writeAt list put k a) m () m' := by
  refine bind (look list) ?_
  rw [replace_of_lt h]
  exact bind (pure _) (change after)

/-- One step for each item of a list. -/
theorem forM {f : α → Step ρ Unit} {g : Machine ρ → α → Machine ρ} (xs : List α)
    (step : ∀ a ∈ xs, ∀ m, Runs (f a) m () (g m a)) (m : Machine ρ) :
    Runs (xs.forM f) m () (xs.foldl g m) := by
  induction xs generalizing m with
  | nil => exact pure ()
  | cons a xs ih =>
    exact bind (step a List.mem_cons_self m)
      (ih (fun b hb => step b (List.mem_cons_of_mem a hb)) (g m a))

/-! ### The fields of the word -/

theorem fieldX : Runs fieldX m (m.operand.x.toNat : Int) m :=
  congrArg (EStateM.Result.ok · m.loose) (Mask.x m.operand)

theorem fieldY : Runs fieldY m (m.operand.y.toNat : Int) m :=
  congrArg (EStateM.Result.ok · m.loose) (Mask.y m.operand)

theorem fieldN : Runs fieldN m (m.operand.n.toNat : Int) m :=
  congrArg (EStateM.Result.ok · m.loose) (Mask.n m.operand)

theorem fieldKK : Runs fieldKK m (m.operand.kk.toNat : Int) m :=
  congrArg (EStateM.Result.ok · m.loose) (Mask.kk m.operand)

theorem fieldNNN : Runs fieldNNN m (m.operand.nnn.toNat : Int) m :=
  congrArg (EStateM.Result.ok · m.loose) (Mask.nnn m.operand)

/-! ### Registers and counters -/

/-- Reading a register. -/
theorem register (x : Nibble) : Runs (register x.toNat) m ((m.reg x).toNat : Int) m := by
  refine readAt ?_
  have below : x.toNat < m.registers.toList.length := by
    rw [Bank.toList, Vector.length_toList]
    exact x.isLt
  show (numbers m.registers.toList)[x.toNat]? = _
  rw [getElem?_numbers, List.getElem?_eq_getElem below]
  rfl

/-- Setting a register to a byte. -/
theorem setRegister (x : Nibble) (b : Byte) :
    Runs (setRegister x.toNat b.toNat) m () (m.setReg x b) := by
  refine writeAt ?_ ?_
  · show x.toNat < (numbers m.registers.toList).length
    rw [length_numbers, Bank.toList, Vector.length_toList]
    exact x.isLt
  -- Changing a place of the list is changing the entry of the bank.
  · have set : (numbers m.registers.toList).set x.toNat (b.toNat : Int)
        = numbers (m.registers.put x b).toList := by
      rw [numbers, ← List.map_set]
      exact congrArg numbers (Vector.toList_set x.isLt).symm
    show ({ m.loose with
      registers := (numbers m.registers.toList).set x.toNat b.toNat } : Loose ρ) = _
    rw [set]
    rfl

/-- Setting the program counter to a word. -/
theorem setPc {n : Int} {w : Word} (h : n = w.toNat) : Runs (setPc n) m () { m with pc := w } :=
  change (congrArg (fun n => ({ m.loose with pc := n } : Loose ρ)) h)

/-- Setting the index register to a word. -/
theorem setIndex {n : Int} {w : Word} (h : n = w.toNat) :
    Runs (setIndex n) m () { m with index := w } :=
  change (congrArg (fun n => ({ m.loose with index := n } : Loose ρ)) h)

/-! ### Memory -/

/-- A memory cell of an integer: its low twelve bits. -/
theorem land_cell (n : Int) : Int.land n 0xFFF = ((Memory.cell (Word.ofInt n)).val : Nat) := by
  rw [Mask.land_address, Memory.val_cell, Word.ofInt, BitVec.toNat_ofInt, BitVec.toNat_ofInt]
  omega

/-- Reading a byte of the memory. -/
theorem byteAt (n : Int) :
    Runs (byteAt (Int.land n 0xFFF)) m ((m.memory.read (Word.ofInt n)).toNat : Int) m := by
  rw [land_cell]
  refine readAt ?_
  show (numbers m.memory.bytes.toList)[(Memory.cell (Word.ofInt n)).val]? = _
  have below : (Memory.cell (Word.ofInt n)).val < m.memory.bytes.toList.length := by
    rw [Vector.length_toList]
    exact Fin.isLt _
  rw [getElem?_numbers, List.getElem?_eq_getElem below]
  rfl

/-- Putting a byte into the memory. -/
theorem setByte (n : Int) (b : Byte) :
    Runs (setByte (Int.land n 0xFFF) b.toNat) m ()
      (m.withMemory (m.memory.write (Word.ofInt n) b)) := by
  have byte : (0 : Int) ≤ b.toNat ∧ (b.toNat : Int) ≤ 255 := by
    have := b.isLt
    omega
  rw [Loose.setByte, if_pos byte, land_cell]
  refine writeAt ?_ ?_
  · show (Memory.cell (Word.ofInt n)).val < (numbers m.memory.bytes.toList).length
    rw [length_numbers, Vector.length_toList]
    exact Fin.isLt _
  · have set : (numbers m.memory.bytes.toList).set (Memory.cell (Word.ofInt n)).val (b.toNat : Int)
        = numbers (m.memory.write (Word.ofInt n) b).bytes.toList := by
      rw [numbers, ← List.map_set]
      exact congrArg numbers (Vector.toList_set (Fin.isLt _)).symm
    show ({ m.loose with memory := List.set _ _ _ } : Loose ρ) = _
    -- The memory is named through the machine that has it, so that no byte is computed.
    rw [← Machine.memory_withMemory m (m.memory.write (Word.ofInt n) b)] at set
    exact congrArg (fun xs => ({ m.loose with memory := xs } : Loose ρ)) set

end Runs

end Loose

end ChipEight
