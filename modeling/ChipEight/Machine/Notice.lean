import ChipEight.Log
import ChipEight.Memory
import ChipEight.Text.Hex

namespace ChipEight

open Text

/-!
# Notices of the machine

What the machine has to tell while it works, as data: `Notice`, with
`Notice.level`, `Notice.text` and the log record `Notice.record` made of them.
Addresses are those of the instruction that a notice is about.
-/

/-- What the machine has to tell. -/
inductive Notice
  /-- A word is about to be executed, with the program counter past it. -/
  | executing (pc operand : Word)
  /-- A word that names no instruction was left out. -/
  | skipped (operand address : Word)
  /-- A return found no return address. -/
  | underflow (address : Word)
  /-- A call found no slot for its return address. -/
  | overflow (address : Word) (target : Address)
  /-- A program of this many bytes does not fit. -/
  | truncated (size : Nat)
  /-- This many bytes of a program were copied. -/
  | loaded (size : Nat)
deriving DecidableEq, Repr

namespace Notice

/-- How serious a notice is. -/
def level : Notice → Level
  | executing .. => .debug
  | skipped .. => .warning
  | underflow .. => .error
  | overflow .. => .error
  | truncated .. => .warning
  | loaded .. => .info

/-- The text of a notice. -/
def text : Notice → String
  | executing pc operand =>
    "PC: " ++ Hex.text 4 pc.toNat ++ "  OP: " ++ Hex.text 4 operand.toNat
  | skipped operand address =>
    "Unknown op-code " ++ Hex.text 4 operand.toNat ++ " at " ++ Hex.text 4 address.toNat
      ++ ", skipping"
  | underflow address =>
    "Stack underflow at " ++ Hex.text 4 address.toNat ++ ", ignoring return"
  | overflow address target =>
    "Stack overflow at " ++ Hex.text 4 address.toNat ++ ", ignoring call to "
      ++ Hex.text 3 target.toNat
  | truncated size =>
    "ROM is " ++ toString size ++ " bytes, truncating to " ++ toString programCapacity
  | loaded size => "Loaded " ++ toString size ++ " bytes of ROM"

/-- The log record of a notice. -/
def record (n : Notice) : Record := ⟨n.level, n.text⟩

end Notice

end ChipEight
