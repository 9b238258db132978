import ChipEight.Basic

namespace ChipEight

/-!
# Memory

The 4096 bytes that programs, sprites and the font share.

* `Memory.read`, `Memory.write` — one byte; an address counts by its low twelve
  bits, so `0x0FFF` is followed by `0x0000`;
* `Memory.readWord` — two neighbouring bytes, the first one the high byte;
* `Memory.store` — a list of bytes at an address and those after it;
* `Memory.overlay` — a block laid over the memory without wrapping, as loading
  does it;
* `programStart`, `programCapacity` — where programs lie, and how long they may be.
-/

/-- The number of bytes. -/
def Memory.size : Nat := 4096

/-- The address at which programs are loaded and started. -/
def programStart : Nat := 0x200

/-- The number of bytes from there to the end of the memory: the longest program
    that fits. -/
def programCapacity : Nat := Memory.size - programStart

/-- The memory: 4096 bytes. -/
structure Memory where
  bytes : Vector Byte 4096
deriving DecidableEq

namespace Memory

/-- Memories with the same bytes are the same. -/
@[ext] theorem ext_bytes {m n : Memory} (h : ∀ i, (hi : i < 4096) → m.bytes[i] = n.bytes[i]) :
    m = n := by
  obtain ⟨bs⟩ := m
  obtain ⟨cs⟩ := n
  congr 1
  apply Vector.ext
  intro i hi
  exact h i hi

/-- The cell that a word addresses: its low twelve bits. -/
def cell (a : Word) : Fin 4096 := (a.setWidth 12).toFin

/-- The cell of an address is the address modulo the size of the memory. -/
@[simp] theorem val_cell (a : Word) : (cell a).val = a.toNat % 4096 := by
  simp [cell]

/-- All bytes zero. -/
def blank : Memory := ⟨Vector.replicate 4096 0⟩

/-- The byte at an address. -/
def read (m : Memory) (a : Word) : Byte := m.bytes[cell a]

/-- Put a byte at an address. -/
def write (m : Memory) (a : Word) (b : Byte) : Memory :=
  ⟨m.bytes.set (cell a).val b (cell a).isLt⟩

/-- The word at an address, whose high byte comes first. -/
def readWord (m : Memory) (a : Word) : Word := m.read a ++ m.read (a + 1)

/-- Put bytes at an address and the ones after it, in order. -/
def store (m : Memory) (a : Word) : List Byte → Memory
  | [] => m
  | b :: bs => (m.write a b).store (a + 1) bs

/-- Lay a block of bytes over the memory from a cell on.  What would come to lie
    past the last cell is dropped. -/
def overlay (m : Memory) (start : Nat) (block : Array Byte) : Memory :=
  ⟨Vector.ofFn fun i =>
    have inside := i.isLt
    if start ≤ i.val then (block[i.val - start]?).getD m.bytes[i] else m.bytes[i]⟩

/-- The byte some places behind an address, counted modulo the size of the memory. -/
theorem read_add (m : Memory) (a : Word) (offset : Nat) :
    m.read (a + BitVec.ofNat 16 offset) = m.bytes[(a.toNat + offset) % 4096] := by
  have place : (cell (a + BitVec.ofNat 16 offset)).val = (a.toNat + offset) % 4096 := by
    rw [val_cell, BitVec.toNat_add, BitVec.toNat_ofNat]
    omega
  simp only [read, Fin.getElem_fin, place]

/-- Reading after a write: the written byte where the addresses meet, the old one
    elsewhere. -/
theorem read_write (m : Memory) (a c : Word) (b : Byte) :
    (m.write a b).read c = if cell c = cell a then b else m.read c := by
  simp only [read, write, Fin.getElem_fin, Vector.getElem_set, Fin.ext_iff, eq_comm]

/-- A cell with a block laid over the memory: the byte of the block where it lies, the old one
    elsewhere. -/
theorem getElem_overlay (m : Memory) (start : Nat) (block : Array Byte) {i : Nat}
    (hi : i < 4096) :
    (m.overlay start block).bytes[i] =
      if start ≤ i then (block[i - start]?).getD m.bytes[i] else m.bytes[i] := by
  simp [overlay]

/-- Reading under a block: its byte where it lies, the old one elsewhere. -/
theorem read_overlay (m : Memory) (start : Nat) (block : Array Byte) (a : Word) :
    (m.overlay start block).read a =
      if start ≤ (cell a).val then (block[(cell a).val - start]?).getD (m.read a)
      else m.read a := by
  simp only [read, Fin.getElem_fin, getElem_overlay]

end Memory

end ChipEight
