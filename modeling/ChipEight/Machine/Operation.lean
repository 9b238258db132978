import ChipEight.Machine.Execute
import ChipEight.Machine.Program

namespace ChipEight

/-!
# Operations

Everything that a host can do to a machine, as data.

* `Operation` — load a program, move a key, run a cycle, execute a word, tick the
  timers, reset;
* `Machine.apply` — what comes of an operation;
* `Machine.after` — the machine after a list of operations.

A host may go on after an operation that failed, with the machine as that
operation left it.
-/

/-- What a host can do to a machine. -/
inductive Operation
  /-- Load a program that is given as bytes. -/
  | load (program : Array Byte)
  /-- Load the program that reading a path gave. -/
  | loadContents (path : String) (contents : Except ReadFault (Array Byte))
  /-- Move a key of the keypad. -/
  | setKey (key : Nibble) (down : Bool)
  /-- Run a cycle. -/
  | cycle
  /-- Execute the word of an integer. -/
  | execute (operand : Int)
  /-- Tick the timers. -/
  | tick
  /-- Go back to the state without a program. -/
  | reset

/-- Why an operation failed. -/
inductive Operation.Fault
  | trap (trap : Trap)
  | load (fault : LoadFault)
deriving DecidableEq, Repr

/-- What an operation answers. -/
inductive Operation.Reply
  /-- Nothing. -/
  | none
  /-- The number of bytes loaded. -/
  | size (bytes : Nat)
  /-- The word executed. -/
  | operand (word : Word)
deriving DecidableEq, Repr

/-- What came of an operation, with its result and its fault among those of all
    operations. -/
def Outcome.widen {ρ ε α : Type} (r : Outcome ρ ε α) (fault : ε → Operation.Fault)
    (reply : α → Operation.Reply) : Outcome ρ Operation.Fault Operation.Reply :=
  ⟨r.machine, r.notices, (r.result.map reply).mapError fault⟩

namespace Machine

variable {ρ : Type} [RandomSource ρ]

/-- What comes of an operation. -/
def apply (m : Machine ρ) : Operation → Outcome ρ Operation.Fault Operation.Reply
  | .load program => (m.load program).widen .load .size
  | .loadContents path contents => (m.loadContents path contents).widen .load .size
  | .setKey key down => ⟨m.setKey key down, [], .ok .none⟩
  | .cycle => m.cycle.widen .trap .operand
  | .execute operand => (m.execute (Word.ofInt operand)).widen .trap .operand
  | .tick => ⟨m.tick, [], .ok .none⟩
  | .reset => ⟨m.reset, [], .ok .none⟩

/-- The machine after operations, failed ones included. -/
def after (m : Machine ρ) (operations : List Operation) : Machine ρ :=
  operations.foldl (fun m operation => (m.apply operation).machine) m

/-- No operation leaves the machine as it is. -/
@[simp] theorem after_nil (m : Machine ρ) : m.after [] = m := rfl

/-- The first operation comes first. -/
@[simp] theorem after_cons (m : Machine ρ) (operation : Operation) (operations : List Operation) :
    m.after (operation :: operations) = (m.apply operation).machine.after operations := rfl

end Machine

end ChipEight
