import ChipEight.CallStack
import ChipEight.Font
import ChipEight.Keypad
import ChipEight.Machine.Notice
import ChipEight.Picture

namespace ChipEight

/-!
# The machine

* `Machine` — the whole state, over a random source `ρ`;
* `Machine.new`, `Machine.reset` — the state before a program is loaded;
* `Machine.reg`, `Machine.setReg` — a register by its number;
* `Machine.tick` — the timers count down to zero;
* `Outcome` — what comes of an operation: the machine after it, the notices that
  it gave, and its result or the reason for which there is none.
-/

/-- The state of the machine. -/
structure Machine (ρ : Type) where
  /-- Programs, sprites and the font. -/
  memory : Memory
  /-- The general registers `V0` to `VF`; the last one takes the flags. -/
  registers : Bank Byte
  /-- The index register `I`. -/
  index : Word
  /-- The program counter. -/
  pc : Word
  /-- The return addresses. -/
  stack : CallStack
  /-- The delay timer. -/
  delay : Byte
  /-- The sound timer. -/
  sound : Byte
  /-- The display memory. -/
  picture : Picture
  /-- Whether the last instruction drew on the picture. -/
  redraw : Bool
  /-- The keys, which the host moves. -/
  keypad : Keypad
  /-- The word executed last. -/
  operand : Word
  /-- Whether a word that names no instruction stops the machine. -/
  strict : Bool
  /-- Where random numbers come from. -/
  random : ρ

/-- The reason for which a strict machine stops: a word that names no
    instruction. -/
structure Trap where
  operand : Word
deriving DecidableEq, Repr

/-- The text of a trap. -/
def Trap.message (t : Trap) : String := "Unknown op-code: " ++ Text.Hex.text 4 t.operand.toNat

/-- What comes of an operation on a machine. -/
structure Outcome (ρ ε α : Type) where
  /-- The machine after the operation, also if it failed. -/
  machine : Machine ρ
  /-- What the machine had to tell, in order. -/
  notices : List Notice
  /-- The result, or the reason for which there is none. -/
  result : Except ε α

namespace Machine

variable {ρ : Type}

/-- The number of the register that takes the flags. -/
def flagRegister : Nibble := 0xF

/-- A machine without a program: the font in the memory, everything else at rest. -/
def new (strict : Bool) (random : ρ) : Machine ρ where
  memory := .initial
  registers := .fill 0
  index := 0
  pc := BitVec.ofNat 16 programStart
  stack := .empty
  delay := 0
  sound := 0
  picture := .blank
  redraw := false
  keypad := .released
  operand := 0
  strict := strict
  random := random

/-- Back to the state without a program.  The random source goes on from where it
    is, and the machine stays as strict as it was. -/
def reset (m : Machine ρ) : Machine ρ := new m.strict m.random

/-- The value of a register. -/
def reg (m : Machine ρ) (x : Nibble) : Byte := m.registers.entry x

/-- Give a register a value. -/
def setReg (m : Machine ρ) (x : Nibble) (value : Byte) : Machine ρ :=
  { m with registers := m.registers.put x value }

/-- A register that was set has the value, the others keep theirs. -/
theorem reg_setReg (m : Machine ρ) (x y : Nibble) (value : Byte) :
    (m.setReg x value).reg y = if y = x then value else m.reg y :=
  Bank.entry_put m.registers x y value

/-- Move a key of the keypad. -/
def setKey (m : Machine ρ) (key : Nibble) (down : Bool) : Machine ρ :=
  { m with keypad := m.keypad.put key down }

/-- Whether the buzzer sounds. -/
def sounding (m : Machine ρ) : Bool := m.sound != 0

/-- A timer one tick later: it stops at zero. -/
def countDown (timer : Byte) : Byte := if timer = 0 then 0 else timer - 1

/-- Both timers one tick later. -/
def tick (m : Machine ρ) : Machine ρ :=
  { m with delay := countDown m.delay, sound := countDown m.sound }

/-- A tick takes one off a timer, down to zero. -/
@[simp] theorem toNat_countDown (timer : Byte) : (countDown timer).toNat = timer.toNat - 1 := by
  unfold countDown
  split
  · next h => simp [h]
  · next h =>
    have : timer.toNat ≠ 0 := fun e => h (BitVec.eq_of_toNat_eq (by simpa using e))
    have := timer.isLt
    rw [BitVec.toNat_sub]
    simp
    omega

end Machine

end ChipEight
