import ChipEight.Basic

namespace ChipEight

/-!
# Instructions

What an instruction word means.

* `Condition` — the test of an instruction that skips the next one;
* `Arithmetic` — the operations on two registers, with `Arithmetic.eval` giving
  result and flag from the two values;
* `Instruction` — everything the machine can be told to do;
* `Instruction.decode?` — the instruction of a word, `none` for a word that
  names none.

Unused fields are ignored: the last nibble of a register comparison and the
second register of a shift.
-/

/-! ### Conditions and arithmetic -/

/-- The test of a skipping instruction. -/
inductive Condition
  /-- `3xkk`: the register holds the constant. -/
  | isByte (x : Nibble) (value : Byte)
  /-- `4xkk`: the register does not hold the constant. -/
  | isNotByte (x : Nibble) (value : Byte)
  /-- `5xy0`: the two registers agree. -/
  | agree (x y : Nibble)
  /-- `9xy0`: the two registers differ. -/
  | differ (x y : Nibble)
  /-- `Ex9E`: the key named by the register's low nibble is down. -/
  | keyDown (x : Nibble)
  /-- `ExA1`: the key named by the register's low nibble is up. -/
  | keyUp (x : Nibble)
deriving DecidableEq, Repr

/-- The operations on a target and a source register, `8xy0` to `8xyE`. -/
inductive Arithmetic
  | move | or | and | xor | add | subtract | shiftRight | subtractFrom | shiftLeft
deriving DecidableEq, Repr

namespace Arithmetic

/-- The operation of the last nibble of an `8xyn` word. -/
def ofNibble? (n : Nibble) : Option Arithmetic :=
  match n.toNat with
  | 0x0 => some .move
  | 0x1 => some .or
  | 0x2 => some .and
  | 0x3 => some .xor
  | 0x4 => some .add
  | 0x5 => some .subtract
  | 0x6 => some .shiftRight
  | 0x7 => some .subtractFrom
  | 0xE => some .shiftLeft
  | _ => none

/-- Result and flag of an operation on the target's value `a` and the source's
    value `b`.  The flag of an addition is the carry, that of a subtraction says
    that the minuend was strictly larger, and that of a shift is the bit that
    fell out.  The bitwise operations have no flag. -/
def eval (op : Arithmetic) (a b : Byte) : Byte × Option Bool :=
  match op with
  | move => (b, none)
  | or => (a ||| b, none)
  | and => (a &&& b, none)
  | xor => (a ^^^ b, none)
  | add => (a + b, some (decide (255 < a.toNat + b.toNat)))
  | subtract => (a - b, some (decide (b.toNat < a.toNat)))
  | shiftRight => (a >>> 1, some (a.getLsbD 0))
  | subtractFrom => (b - a, some (decide (a.toNat < b.toNat)))
  | shiftLeft => (a <<< 1, some a.msb)

end Arithmetic

/-! ### Instructions -/

/-- What the machine can be told to do. -/
inductive Instruction
  /-- `00E0`: turn every pixel off. -/
  | clear
  /-- `00EE`: go back to where the last call came from. -/
  | ret
  /-- `1nnn`: go on at the address. -/
  | jump (target : Address)
  /-- `2nnn`: go on at the address and remember the way back. -/
  | call (target : Address)
  /-- `3xkk`, `4xkk`, `5xy0`, `9xy0`, `Ex9E`, `ExA1`: skip the next instruction
      if the condition holds. -/
  | skip (condition : Condition)
  /-- `6xkk`: put the constant into the register. -/
  | set (x : Nibble) (value : Byte)
  /-- `7xkk`: add the constant to the register, without a flag. -/
  | add (x : Nibble) (value : Byte)
  /-- `8xyn`: combine two registers. -/
  | arithmetic (op : Arithmetic) (x y : Nibble)
  /-- `Annn`: put the address into the index register. -/
  | setIndex (target : Address)
  /-- `Bnnn`: go on at the address plus the first register. -/
  | jumpFrom (base : Address)
  /-- `Cxkk`: put a random number, masked by the constant, into the register. -/
  | random (x : Nibble) (mask : Byte)
  /-- `Dxyn`: draw `n` sprite lines at the position held by two registers. -/
  | draw (x y n : Nibble)
  /-- `Fx07`: read the delay timer. -/
  | readDelay (x : Nibble)
  /-- `Fx0A`: wait for a key. -/
  | awaitKey (x : Nibble)
  /-- `Fx15`: set the delay timer. -/
  | setDelay (x : Nibble)
  /-- `Fx18`: set the sound timer. -/
  | setSound (x : Nibble)
  /-- `Fx1E`: add the register to the index register, without a flag. -/
  | addIndex (x : Nibble)
  /-- `Fx29`: point the index register at the font's digit. -/
  | findDigit (x : Nibble)
  /-- `Fx33`: store the three decimal digits of the register. -/
  | storeDecimal (x : Nibble)
  /-- `Fx55`: store the registers up to the named one. -/
  | storeRegisters (x : Nibble)
  /-- `Fx65`: load the registers up to the named one. -/
  | loadRegisters (x : Nibble)
deriving DecidableEq, Repr

/-! ### Decoding -/

namespace Instruction

/-- The instruction of a word of the family `0`, which has only two: the rest
    called routines of the host processor. -/
def system? (w : Word) : Option Instruction :=
  if w = 0x00E0 then some .clear
  else if w = 0x00EE then some .ret
  else none

/-- The condition of a word of the family `E`. -/
def keyCondition? (w : Word) : Option Condition :=
  match w.kk.toNat with
  | 0x9E => some (.keyDown w.x)
  | 0xA1 => some (.keyUp w.x)
  | _ => none

/-- The instruction of a word of the family `F`. -/
def device? (w : Word) : Option Instruction :=
  match w.kk.toNat with
  | 0x07 => some (.readDelay w.x)
  | 0x0A => some (.awaitKey w.x)
  | 0x15 => some (.setDelay w.x)
  | 0x18 => some (.setSound w.x)
  | 0x1E => some (.addIndex w.x)
  | 0x29 => some (.findDigit w.x)
  | 0x33 => some (.storeDecimal w.x)
  | 0x55 => some (.storeRegisters w.x)
  | 0x65 => some (.loadRegisters w.x)
  | _ => none

/-- The instruction of a word, `none` if the word names none.  The last case is
    that of the family `F`, the only one left. -/
def decode? (w : Word) : Option Instruction :=
  match w.family.toNat with
  | 0x0 => system? w
  | 0x1 => some (.jump w.nnn)
  | 0x2 => some (.call w.nnn)
  | 0x3 => some (.skip (.isByte w.x w.kk))
  | 0x4 => some (.skip (.isNotByte w.x w.kk))
  | 0x5 => some (.skip (.agree w.x w.y))
  | 0x6 => some (.set w.x w.kk)
  | 0x7 => some (.add w.x w.kk)
  | 0x8 => (Arithmetic.ofNibble? w.n).map (.arithmetic · w.x w.y)
  | 0x9 => some (.skip (.differ w.x w.y))
  | 0xA => some (.setIndex w.nnn)
  | 0xB => some (.jumpFrom w.nnn)
  | 0xC => some (.random w.x w.kk)
  | 0xD => some (.draw w.x w.y w.n)
  | 0xE => (keyCondition? w).map .skip
  | _ => device? w

end Instruction

end ChipEight
