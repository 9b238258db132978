import ChipEight.FileTree
import ChipEight.Machine.Basic

namespace ChipEight

/-!
# Loading a program

* `Machine.place` — the machine with a program in its memory;
* `Machine.load` — load a program that is given as bytes, which always succeeds;
* `Machine.loadContents` — load the program that reading a path gave; if the path
  cannot be read the machine stays as it is.

What does not fit behind the start of programs is dropped, and the rest of the
memory keeps what it held.
-/

/-- Why no program was loaded: the path, and what is wrong with it. -/
structure LoadFault where
  path : String
  reason : ReadFault
deriving DecidableEq, Repr

/-- The text of a fault.  What is no path at all is not named. -/
def LoadFault.message (f : LoadFault) : String :=
  match f.reason with
  | .noPath => f.reason.message
  | _ => "Unable to load ROM " ++ f.path ++ ": " ++ f.reason.message

namespace Machine

variable {ρ : Type}

/-- The number of bytes of a program that fit. -/
def fittingSize (program : Array Byte) : Nat := min program.size programCapacity

/-- The machine with a program in its memory. -/
def place (m : Machine ρ) (program : Array Byte) : Machine ρ :=
  { m with memory := m.memory.overlay programStart program }

/-- What loading a program has to tell. -/
def loadNotices (program : Array Byte) : List Notice :=
  (if programCapacity < program.size then [Notice.truncated program.size] else [])
  ++ [.loaded (fittingSize program)]

/-- Load a program; the result is the number of bytes copied. -/
def load (m : Machine ρ) (program : Array Byte) : Outcome ρ LoadFault Nat :=
  ⟨m.place program, loadNotices program, .ok (fittingSize program)⟩

/-- Load the program that reading a path gave. -/
def loadContents (m : Machine ρ) (path : String) (contents : Except ReadFault (Array Byte)) :
    Outcome ρ LoadFault Nat :=
  match contents with
  | .ok program => m.load program
  | .error reason => ⟨m, [], .error ⟨path, reason⟩⟩

end Machine

end ChipEight
