import ChipEight.Machine.Operation
import ChipEight.Window
import Mathlib

namespace ChipEight

/-!
# The loose machine

The machine once more, over integers and lists.  Its types keep nothing in range: a
routine has to cut its results down itself, a place that a list does not have can be
neither read nor written, and what is no byte cannot be put into the memory.

* `Loose` — the state;
* `Loose.Fault` — everything that can go wrong;
* `Loose.Step` — what a routine does: it may fail halfway and leaves the state that it
  came to;
* `Loose.readAt`, `Loose.writeAt` — the entries of a list, counted from its end below
  zero;
* `Loose.splice` — a stretch of a list replaced by a list of any length;
* `Loose.InRange` — the state of a machine.
-/

/-- The state of the loose machine. -/
structure Loose (ρ : Type) where
  memory : List Int
  registers : List Int
  index : Int
  pc : Int
  /-- The slots of the call stack. -/
  slots : List Int
  /-- How many of the slots are in use. -/
  depth : Int
  delay : Int
  sound : Int
  /-- The display memory, row by row. -/
  cells : List Int
  redraw : Bool
  keys : List Bool
  operand : Int
  strict : Bool
  random : ρ

namespace Loose

variable {ρ α : Type}

/-- Everything that can go wrong. -/
inductive Fault
  /-- A list has no such place. -/
  | noPlace (place : Int)
  /-- The value is no byte. -/
  | noByte (value : Int)
  /-- There is no routine for the key. -/
  | noRoutine (key : Int)
  /-- A word that names no instruction stopped the machine. -/
  | trap (operand : Int)
  /-- The file at a path cannot be read. -/
  | unreadable (path : String) (reason : ReadFault)
  /-- The text is no path. -/
  | noPath (text : String)
deriving DecidableEq

/-! ### Lists -/

/-- The place of an index in a list of some size.  A negative index counts from the
    end. -/
def place? (size : Nat) (i : Int) : Option Nat :=
  if 0 ≤ i ∧ i < size then some i.toNat
  else if i < 0 ∧ 0 ≤ i + size then some (i + size).toNat
  else none

/-- The entry at an index. -/
def entry (xs : List α) (i : Int) : Except Fault α :=
  match (place? xs.length i).bind fun k => xs[k]? with
  | some a => .ok a
  | none => .error (.noPlace i)

/-- The list with another entry at an index. -/
def replace (xs : List α) (i : Int) (a : α) : Except Fault (List α) :=
  match place? xs.length i with
  | some k => .ok (xs.set k a)
  | none => .error (.noPlace i)

/-- The list with the stretch from `start` up to `stop`, which is left out, replaced by
    another list.  The length changes with that of the other list. -/
def splice (xs : List α) (start stop : Nat) (ys : List α) : List α :=
  xs.take start ++ ys ++ xs.drop (max start stop)

/-! ### Steps -/

/-- What a routine does. -/
abbrev Step (ρ α : Type) := EStateM Fault (Loose ρ) α

/-- Look at the state. -/
def look (f : Loose ρ → α) : Step ρ α := fun s => .ok (f s) s

/-- Change the state. -/
def change (f : Loose ρ → Loose ρ) : Step ρ Unit := fun s => .ok () (f s)

/-- Go on with a result, or fail. -/
def orFail (r : Except Fault α) : Step ρ α := fun s =>
  match r with
  | .ok a => .ok a s
  | .error fault => .error fault s

/-- Read an entry of a list of the state. -/
def readAt (list : Loose ρ → List α) (i : Int) : Step ρ α := do
  let xs ← look list
  orFail (entry xs i)

/-- Write an entry of a list of the state. -/
def writeAt (list : Loose ρ → List α) (put : Loose ρ → List α → Loose ρ) (i : Int) (a : α) :
    Step ρ Unit := do
  let xs ← look list
  let ys ← orFail (replace xs i a)
  change fun s => put s ys

/-- The value of a register. -/
def register (i : Int) : Step ρ Int := readAt Loose.registers i

/-- Give a register a value. -/
def setRegister (i value : Int) : Step ρ Unit :=
  writeAt Loose.registers (fun s xs => { s with registers := xs }) i value

/-- The byte at a place of the memory. -/
def byteAt (i : Int) : Step ρ Int := readAt Loose.memory i

/-- Put a byte at a place of the memory.  Nothing else can be put there. -/
def setByte (i value : Int) : Step ρ Unit :=
  if 0 ≤ value ∧ value ≤ 255 then
    writeAt Loose.memory (fun s xs => { s with memory := xs }) i value
  else orFail (.error (.noByte value))

/-- A cell of the display memory. -/
def cellAt (i : Int) : Step ρ Int := readAt Loose.cells i

/-- Set a cell of the display memory. -/
def setCell (i value : Int) : Step ρ Unit :=
  writeAt Loose.cells (fun s xs => { s with cells := xs }) i value

/-- Set the program counter. -/
def setPc (value : Int) : Step ρ Unit := change fun s => { s with pc := value }

/-- Set the index register. -/
def setIndex (value : Int) : Step ρ Unit := change fun s => { s with index := value }

/-- Draw a random number. -/
def draw [RandomSource ρ] : Step ρ Int := fun s =>
  .ok (RandomSource.next s.random).1 { s with random := (RandomSource.next s.random).2 }

/-! ### The fields of the word -/

/-- The first register that the word names. -/
def fieldX : Step ρ Int := look fun s => Int.land s.operand 0x0F00 >>> (8 : Nat)

/-- The second register that the word names. -/
def fieldY : Step ρ Int := look fun s => Int.land s.operand 0x00F0 >>> (4 : Nat)

/-- The last nibble of the word. -/
def fieldN : Step ρ Int := look fun s => Int.land s.operand 0x000F

/-- The constant in the word. -/
def fieldKK : Step ρ Int := look fun s => Int.land s.operand 0x00FF

/-- The address in the word. -/
def fieldNNN : Step ρ Int := look fun s => Int.land s.operand 0x0FFF

/-! ### Ranges -/

/-- A state with every list of its length and every number in its range. -/
structure InRange (s : Loose ρ) : Prop where
  memory : s.memory.length = 4096 ∧ ∀ b ∈ s.memory, 0 ≤ b ∧ b ≤ 255
  registers : s.registers.length = 16 ∧ ∀ b ∈ s.registers, 0 ≤ b ∧ b ≤ 255
  index : 0 ≤ s.index ∧ s.index ≤ 65535
  pc : 0 ≤ s.pc ∧ s.pc ≤ 65535
  operand : 0 ≤ s.operand ∧ s.operand ≤ 65535
  slots : s.slots.length = 16 ∧ ∀ a ∈ s.slots, 0 ≤ a ∧ a ≤ 65535
  depth : 0 ≤ s.depth ∧ s.depth ≤ 16
  delay : 0 ≤ s.delay ∧ s.delay ≤ 255
  sound : 0 ≤ s.sound ∧ s.sound ≤ 255
  cells : s.cells.length = 2048 ∧ ∀ c ∈ s.cells, c = Window.cellOn ∨ c = 0
  keys : s.keys.length = 16

end Loose

end ChipEight
