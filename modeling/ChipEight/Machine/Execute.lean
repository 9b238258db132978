import ChipEight.Instruction
import ChipEight.Machine.Basic
import ChipEight.Random.Source

namespace ChipEight

/-!
# Execution

* `Condition.holds` — the tests of the skipping instructions;
* `Machine.perform` — what an instruction does;
* `Machine.mishap?` — the notice of a call or return that the stack refuses;
* `Machine.execute` — a word: the instruction that it names is performed, a word
  that names none is left out, or stops a strict machine.

When an instruction is performed the program counter is already past it, so the
instruction itself is at `pc - 2`.
-/

variable {ρ : Type}

/-! ### Parts of instructions -/

/-- Whether a condition holds on a machine. -/
def Condition.holds (m : Machine ρ) : Condition → Bool
  | isByte x value => m.reg x == value
  | isNotByte x value => m.reg x != value
  | agree x y => m.reg x == m.reg y
  | differ x y => m.reg x != m.reg y
  | keyDown x => m.keypad.isDown ((m.reg x).setWidth 4)
  | keyUp x => !m.keypad.isDown ((m.reg x).setWidth 4)

/-- The decimal digits of a byte: hundreds, tens, ones. -/
def Machine.decimalDigits (value : Byte) : List Byte :=
  [value / 100, (value / 10) % 10, value % 10]

/-- The value that a flag is stored as. -/
def Machine.flagByte (flag : Bool) : Byte := if flag then 1 else 0

namespace Machine

/-- The address of the instruction being performed. -/
def here (m : Machine ρ) : Word := m.pc - 2

/-- Pass over the next instruction. -/
def skipNext (m : Machine ρ) : Machine ρ := { m with pc := m.pc + 2 }

/-- Combine two registers.  The flag is written last, so that it survives if the
    target is the flag register itself. -/
def combine (m : Machine ρ) (op : Arithmetic) (x y : Nibble) : Machine ρ :=
  match op.eval (m.reg x) (m.reg y) with
  | (value, none) => m.setReg x value
  | (value, some flag) => (m.setReg x value).setReg flagRegister (flagByte flag)

/-- The pixels that a sprite at the index register covers. -/
def sprite (m : Machine ρ) (x y n : Nibble) : Picture :=
  Picture.stamp (m.reg x) (m.reg y) n fun line => m.memory.read (m.index + BitVec.ofNat 16 line)

/-- Draw a sprite: its pixels are flipped, and the flag says whether one of them
    was on. -/
def drawSprite (m : Machine ρ) (x y n : Nibble) : Machine ρ :=
  let sprite := m.sprite x y n
  { m.setReg flagRegister (flagByte (m.picture.meets sprite)) with
    picture := m.picture.invert sprite
    redraw := true }

/-- Load the registers up to `x` from the memory at the index register. -/
def loadRegisters (m : Machine ρ) (x : Nibble) : Machine ρ :=
  { m with
    registers := .ofFn fun i =>
      if i.toNat ≤ x.toNat then m.memory.read (m.index + i.setWidth 16) else m.reg i }

/-- Wait for a key: the lowest one that is down is taken, without one the
    instruction comes again. -/
def awaitKey (m : Machine ρ) (x : Nibble) : Machine ρ :=
  match m.keypad.lowest? with
  | some key => m.setReg x (key.setWidth 8)
  | none => { m with pc := m.here }

/-! ### Instructions and words -/

/-- What an instruction does.  A call on a full stack and a return on an empty one
    do nothing. -/
def perform [RandomSource ρ] (m : Machine ρ) : Instruction → Machine ρ
  | .clear => { m with picture := .blank, redraw := true }
  | .ret =>
    match m.stack.pop? with
    | some (address, stack) => { m with stack := stack, pc := address }
    | none => m
  | .jump target => { m with pc := target.setWidth 16 }
  | .call target =>
    match m.stack.push? m.pc with
    | some stack => { m with stack := stack, pc := target.setWidth 16 }
    | none => m
  | .skip condition => if condition.holds m then m.skipNext else m
  | .set x value => m.setReg x value
  | .add x value => m.setReg x (m.reg x + value)
  | .arithmetic op x y => m.combine op x y
  | .setIndex target => { m with index := target.setWidth 16 }
  | .jumpFrom base => { m with pc := base.setWidth 16 + (m.reg 0).setWidth 16 }
  | .random x mask =>
    let (number, random) := RandomSource.next m.random
    { m.setReg x (mask &&& BitVec.ofInt 8 number) with random := random }
  | .draw x y n => m.drawSprite x y n
  | .readDelay x => m.setReg x m.delay
  | .awaitKey x => m.awaitKey x
  | .setDelay x => { m with delay := m.reg x }
  | .setSound x => { m with sound := m.reg x }
  | .addIndex x => { m with index := m.index + (m.reg x).setWidth 16 }
  | .findDigit x => { m with index := Font.address ((m.reg x).setWidth 4) }
  | .storeDecimal x => { m with memory := m.memory.store m.index (decimalDigits (m.reg x)) }
  | .storeRegisters x =>
    { m with memory := m.memory.store m.index (m.registers.toList.take (x.toNat + 1)) }
  | .loadRegisters x => m.loadRegisters x

/-- The notice of an instruction that the call stack refuses. -/
def mishap? (m : Machine ρ) : Instruction → Option Notice
  | .ret => if m.stack.isEmpty then some (.underflow m.here) else none
  | .call target => if m.stack.isFull then some (.overflow m.here target) else none
  | _ => none

/-- Execute a word.  The program counter is left alone but by the instruction
    itself. -/
def execute [RandomSource ρ] (m : Machine ρ) (operand : Word) : Outcome ρ Trap Word :=
  let m := { m with operand := operand }
  -- The trace shows the program counter before the instruction moves it.
  let trace := Notice.executing m.pc operand
  match Instruction.decode? operand with
  | some i => ⟨m.perform i, trace :: (m.mishap? i).toList, .ok operand⟩
  | none =>
    if m.strict then ⟨m, [trace], .error ⟨operand⟩⟩
    else ⟨m, [trace, .skipped operand m.here], .ok operand⟩

/-! ### Cycles -/

/-- The word at the program counter. -/
def fetch (m : Machine ρ) : Word := m.memory.readWord m.pc

/-- One step: the word at the program counter is executed with the program counter
    past it, then the timers tick.  They stand still if the machine stops. -/
def cycle [RandomSource ρ] (m : Machine ρ) : Outcome ρ Trap Word :=
  let r := { m with redraw := false, pc := m.pc + 2 }.execute m.fetch
  match r.result with
  | .ok _ => { r with machine := r.machine.tick }
  | .error _ => r

end Machine

end ChipEight
