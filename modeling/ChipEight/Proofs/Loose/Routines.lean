import ChipEight.Proofs.Loose.Basic

namespace ChipEight

/-!
# The routines of the loose machine

One routine for each instruction, found through tables: the first by the first nibble of
the word, for four of its values a second one by the last nibble or the low byte.

* `Loose.execute` — execute the word of an integer;
* `Loose.cycle` — execute the word at the program counter, then tick the timers;
* `Loose.load`, `Loose.reset`, `Loose.tick` — the rest of what a host can ask for;
* `Loose.operate` — what comes of an operation;
* `Loose.after` — the state after a list of operations, failed ones included.
-/

namespace Loose

variable {ρ : Type}

/-! ### Jumps, calls and skips -/

/-- Pass over the next instruction. -/
def skipNext : Step ρ Unit := do
  let pc ← look Loose.pc
  setPc (Int.land (pc + 2) 0xFFFF)

/-- Go on at the address in the word. -/
def jump : Step ρ Unit := do
  let target ← fieldNNN
  setPc target

/-- Go on at the address in the word plus the first register.  There is nothing to cut
    down. -/
def jumpFrom : Step ρ Unit := do
  let base ← fieldNNN
  let offset ← register 0
  setPc (base + offset)

/-- Go on at the address in the word and remember the way back, if there is a slot for
    it. -/
def call : Step ρ Unit := do
  let depth ← look Loose.depth
  if 16 ≤ depth then pure ()
  else
    let pc ← look Loose.pc
    writeAt Loose.slots (fun s xs => { s with slots := xs }) depth pc
    change fun s => { s with depth := s.depth + 1 }
    let target ← fieldNNN
    setPc target

/-- Go back to where the last call came from, if there was one. -/
def ret : Step ρ Unit := do
  let depth ← look Loose.depth
  if depth = 0 then pure ()
  else
    change fun s => { s with depth := s.depth - 1 }
    let depth ← look Loose.depth
    let back ← readAt Loose.slots depth
    setPc back

/-- Skip the next instruction if a test comes out as wanted. -/
def skipIf (wanted : Bool) (test : Step ρ Bool) : Step ρ Unit := do
  let outcome ← test
  if outcome = wanted then skipNext else pure ()

/-- Whether the register holds the constant. -/
def holdsConstant : Step ρ Bool := do
  let x ← fieldX
  let value ← register x
  let constant ← fieldKK
  pure (value == constant)

/-- Whether the two registers agree. -/
def registersAgree : Step ρ Bool := do
  let x ← fieldX
  let y ← fieldY
  let a ← register x
  let b ← register y
  pure (a == b)

/-- Whether the key named by the register's low nibble is down. -/
def keyIsDown : Step ρ Bool := do
  let x ← fieldX
  let value ← register x
  readAt Loose.keys (Int.land value 0xF)

/-! ### Registers -/

/-- Put the constant into the register. -/
def setConstant : Step ρ Unit := do
  let x ← fieldX
  let constant ← fieldKK
  setRegister x constant

/-- Add the constant to the register. -/
def addConstant : Step ρ Unit := do
  let x ← fieldX
  let value ← register x
  let constant ← fieldKK
  setRegister x (Int.land (value + constant) 0xFF)

/-- Combine two registers without a flag. -/
def combine (f : Int → Int → Int) : Step ρ Unit := do
  let x ← fieldX
  let y ← fieldY
  let a ← register x
  let b ← register y
  setRegister x (f a b)

/-- Combine two registers, and put a flag into the last one. -/
def combineFlagged (f flag : Int → Int → Int) : Step ρ Unit := do
  let x ← fieldX
  let y ← fieldY
  let a ← register x
  let b ← register y
  setRegister x (f a b)
  setRegister 0xF (flag a b)

/-- Shift a register, and put the bit that fell out into the last one. -/
def shift (f flag : Int → Int) : Step ρ Unit := do
  let x ← fieldX
  let a ← register x
  setRegister x (f a)
  setRegister 0xF (flag a)

/-- Put a random number, masked by the constant, into the register. -/
def setRandom [RandomSource ρ] : Step ρ Unit := do
  let constant ← fieldKK
  let x ← fieldX
  let number ← draw
  setRegister x (Int.land constant number)

/-! ### Timers, keys and the index register -/

/-- Put a timer into the register. -/
def readTimer (timer : Loose ρ → Int) : Step ρ Unit := do
  let x ← fieldX
  let value ← look timer
  setRegister x value

/-- Put the register into a timer. -/
def setTimer (put : Loose ρ → Int → Loose ρ) : Step ρ Unit := do
  let x ← fieldX
  let value ← register x
  change fun s => put s value

/-- Take the first key that is down, or come again. -/
def awaitKey : Step ρ Unit := do
  let x ← fieldX
  let keys ← look Loose.keys
  match keys.findIdx? (· = true) with
  | some key => setRegister x key
  | none =>
    let pc ← look Loose.pc
    setPc (Int.land (pc - 2) 0xFFFF)

/-- Put the address into the index register. -/
def setIndexConstant : Step ρ Unit := do
  let target ← fieldNNN
  setIndex target

/-- Add the register to the index register. -/
def addIndex : Step ρ Unit := do
  let x ← fieldX
  let index ← look Loose.index
  let value ← register x
  setIndex (Int.land (index + value) 0xFFFF)

/-- Point the index register at the sprite of a digit. -/
def findDigit : Step ρ Unit := do
  let x ← fieldX
  let value ← register x
  setIndex (Font.start + Font.height * Int.land value 0xF)

/-! ### Memory -/

/-- Store the three decimal digits of the register. -/
def storeDecimal : Step ρ Unit := do
  let x ← fieldX
  let value ← register x
  let index ← look Loose.index
  setByte (Int.land index 0xFFF) (value / 100)
  setByte (Int.land (index + 1) 0xFFF) (value / 10 % 10)
  setByte (Int.land (index + 2) 0xFFF) (value % 10)

/-- Store the registers up to the named one. -/
def storeRegisters : Step ρ Unit := do
  let x ← fieldX
  let index ← look Loose.index
  (List.range (x + 1).toNat).forM fun i => do
    let value ← register i
    setByte (Int.land (index + i) 0xFFF) value

/-- Load the registers up to the named one. -/
def loadRegisters : Step ρ Unit := do
  let x ← fieldX
  let index ← look Loose.index
  (List.range (x + 1).toNat).forM fun i => do
    let value ← byteAt (Int.land (index + i) 0xFFF)
    setRegister i value

/-! ### The picture -/

/-- Turn every pixel off. -/
def clear : Step ρ Unit :=
  change fun s => { s with cells := List.replicate 2048 0, redraw := true }

/-- Flip a pixel.  The last register tells that a pixel was turned off. -/
def flip (place : Int) : Step ρ Unit := do
  let cell ← cellAt place
  if cell = Window.cellOn then
    setRegister 0xF 1
    setCell place 0
  else setCell place Window.cellOn

/-- Draw the columns of a sprite line that are given, up to the right edge. -/
def drawColumns (left row line : Int) : List Nat → Step ρ Unit
  | [] => pure ()
  | j :: columns =>
    if 64 ≤ left + j then pure ()
    else do
      if Int.land line ((0x80 : Int) >>> j) = 0 then pure ()
      else flip (row * 64 + (left + j))
      drawColumns left row line columns

/-- Draw the lines of a sprite that are given, up to the bottom edge. -/
def drawLines (left top : Int) : List Nat → Step ρ Unit
  | [] => pure ()
  | i :: lines =>
    if 32 ≤ top + i then pure ()
    else do
      let index ← look Loose.index
      let line ← byteAt (Int.land (index + i) 0xFFF)
      drawColumns left (top + i) line (List.range 8)
      drawLines left top lines

/-- Draw a sprite. -/
def drawSprite : Step ρ Unit := do
  let x ← fieldX
  let y ← fieldY
  let left ← register x
  let top ← register y
  let n ← fieldN
  setRegister 0xF 0
  drawLines (left % 64) (top % 32) (List.range n.toNat)
  change fun s => { s with redraw := true }

/-! ### Tables -/

/-- The routine of a key, or else another one. -/
def routine (table : List (Int × Step ρ Unit)) (key : Int) (otherwise : Step ρ Unit) :
    Step ρ Unit :=
  (table.lookup key).getD otherwise

/-- A word that names no instruction stops a strict machine. -/
def unknown : Step ρ Unit := do
  let strict ← look Loose.strict
  let operand ← look Loose.operand
  if strict then orFail (.error (.trap operand)) else pure ()

/-- Words whose first nibble is 0. -/
def system : Step ρ Unit := do
  let operand ← look Loose.operand
  if Int.land operand 0x0FF0 = 0x00E0 then
    routine [(0x0, clear), (0xE, ret)] (Int.land operand 0x000F) unknown
  else unknown

/-- Words whose first nibble is 8. -/
def arithmetic : Step ρ Unit := do
  let n ← fieldN
  routine [
    (0x0, combine fun _ b => b),
    (0x1, combine Int.lor),
    (0x2, combine Int.land),
    (0x3, combine Int.xor),
    (0x4, combineFlagged (fun a b => Int.land (a + b) 0xFF)
      fun a b => if 0xFF < a + b then 1 else 0),
    (0x5, combineFlagged (fun a b => Int.land (a - b) 0xFF) fun a b => if b < a then 1 else 0),
    (0x6, shift (fun a => a >>> (1 : Nat)) fun a => Int.land a 0x1),
    (0x7, combineFlagged (fun a b => Int.land (b - a) 0xFF) fun a b => if a < b then 1 else 0),
    (0xE, shift (fun a => Int.land (a <<< (1 : Nat)) 0xFF)
      fun a => Int.land (a >>> (7 : Nat)) 0x1)] n unknown

/-- Words whose first nibble is E. -/
def keyboard : Step ρ Unit := do
  let kk ← fieldKK
  routine [(0x9E, skipIf true keyIsDown), (0xA1, skipIf false keyIsDown)] kk unknown

/-- Words whose first nibble is F. -/
def device : Step ρ Unit := do
  let kk ← fieldKK
  routine [
    (0x07, readTimer Loose.delay),
    (0x0A, awaitKey),
    (0x15, setTimer fun s value => { s with delay := value }),
    (0x18, setTimer fun s value => { s with sound := value }),
    (0x1E, addIndex),
    (0x29, findDigit),
    (0x33, storeDecimal),
    (0x55, storeRegisters),
    (0x65, loadRegisters)] kk unknown

variable [RandomSource ρ]

/-- The routines by the first nibble of the word. -/
def families : List (Int × Step ρ Unit) := [
  (0x0, system),
  (0x1, jump),
  (0x2, call),
  (0x3, skipIf true holdsConstant),
  (0x4, skipIf false holdsConstant),
  (0x5, skipIf true registersAgree),
  (0x6, setConstant),
  (0x7, addConstant),
  (0x8, arithmetic),
  (0x9, skipIf false registersAgree),
  (0xA, setIndexConstant),
  (0xB, jumpFrom),
  (0xC, setRandom),
  (0xD, drawSprite),
  (0xE, keyboard),
  (0xF, device)]

/-- The routine of the word. -/
def dispatch : Step ρ Unit := do
  let operand ← look Loose.operand
  let key := Int.land operand 0xF000 >>> (12 : Nat)
  routine families key (orFail (.error (.noRoutine key)))

/-! ### Operations -/

/-- Execute the word of an integer. -/
def execute (operand : Int) : Step ρ Int := do
  change fun s => { s with operand := Int.land operand 0xFFFF }
  dispatch
  look Loose.operand

/-- Take one off a timer that runs. -/
def countDown (timer : Loose ρ → Int) (put : Loose ρ → Int → Loose ρ) : Step ρ Unit := do
  let value ← look timer
  if value = 0 then pure () else change fun s => put s (value - 1)

/-- Both timers one tick later. -/
def tick : Step ρ Unit := do
  countDown Loose.delay fun s value => { s with delay := value }
  countDown Loose.sound fun s value => { s with sound := value }

/-- Execute the word at the program counter, then tick the timers. -/
def cycle : Step ρ Int := do
  change fun s => { s with redraw := false }
  let pc ← look Loose.pc
  let high ← byteAt (Int.land pc 0xFFF)
  let low ← byteAt (Int.land (pc + 1) 0xFFF)
  let operand := Int.lor (high <<< (8 : Nat)) low
  setPc (Int.land (pc + 2) 0xFFFF)
  let _ ← execute operand
  tick
  pure operand

/-- Bytes as integers. -/
def numbers {width : Nat} (xs : List (BitVec width)) : List Int := xs.map fun b => (b.toNat : Int)

/-- The memory without a program: the font, and zero elsewhere. -/
def initialMemory : List Int :=
  splice (List.replicate 4096 0) Font.start (Font.start + Font.bytes.size)
    (numbers Font.bytes.toList)

/-- The state without a program. -/
def new (strict : Bool) (random : ρ) : Loose ρ where
  memory := initialMemory
  registers := List.replicate 16 0
  index := 0
  pc := programStart
  slots := List.replicate 16 0
  depth := 0
  delay := 0
  sound := 0
  cells := List.replicate 2048 0
  redraw := false
  keys := List.replicate 16 false
  operand := 0
  strict := strict
  random := random

/-- Back to the state without a program. -/
def reset : Step ρ Unit := change fun s => new s.strict s.random

/-- Load a program, as far as it fits. -/
def load (program : Array Byte) : Step ρ Int := do
  let bytes := numbers (program.toList.take programCapacity)
  change fun s => { s with
    memory := splice s.memory programStart (programStart + bytes.length) bytes }
  pure bytes.length

/-- What comes of an operation, with its number if it answers one. -/
def operate : Operation → Step ρ (Option Int)
  | .load program => do
    let size ← load program
    pure (some size)
  | .loadContents _ (.ok program) => do
    let size ← load program
    pure (some size)
  | .loadContents text (.error .noPath) => orFail (.error (.noPath text))
  | .loadContents path (.error reason) => orFail (.error (.unreadable path reason))
  | .setKey key down => do
    writeAt Loose.keys (fun s xs => { s with keys := xs }) key.toNat down
    pure none
  | .cycle => do
    let word ← cycle
    pure (some word)
  | .execute operand => do
    let word ← execute operand
    pure (some word)
  | .tick => do
    tick
    pure none
  | .reset => do
    reset
    pure none

/-- The state that a result leaves. -/
def stateOf {α : Type} : EStateM.Result Fault (Loose ρ) α → Loose ρ
  | .ok _ s => s
  | .error _ s => s

/-- The state after operations, failed ones included. -/
def after (s : Loose ρ) (operations : List Operation) : Loose ρ :=
  operations.foldl (fun s operation => stateOf (operate operation s)) s

end Loose

end ChipEight
