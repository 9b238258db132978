import ChipEight.Machine.Basic

namespace ChipEight

open Text

/-!
# The state dump

`Machine.dump` is a text of 19 lines that shows the counters, the registers, the
timers and the live return addresses of a machine.  Memory, picture, keypad and
the unused slots of the stack do not show.
-/

namespace Machine

variable {ρ : Type}

/-- The depth of the stack, in as few digits as it takes: two if the stack is
    full, one otherwise. -/
def depthText (depth : Fin 17) : String :=
  Hex.text (if depth.val < 16 then 1 else 2) depth.val

/-- The lines of the dump that show the general registers. -/
def registerLines (m : Machine ρ) : List String :=
  Nibble.all.map fun x => "V" ++ Hex.text 1 x.toNat ++ ": " ++ Hex.text 2 (m.reg x).toNat

/-- The lines of the dump. -/
def dumpLines (m : Machine ρ) : List String :=
  ["PC: " ++ Hex.text 4 m.pc.toNat ++ "  OP: " ++ Hex.text 4 m.operand.toNat
    ++ "  I: " ++ Hex.text 4 m.index.toNat ++ "  SP: " ++ depthText m.stack.depth]
  ++ m.registerLines
  ++ ["DT: " ++ Hex.text 2 m.delay.toNat ++ "  ST: " ++ Hex.text 2 m.sound.toNat,
    "STACK: [" ++ ", ".intercalate (m.stack.live.map fun a => Hex.text 4 a.toNat) ++ "]"]

/-- The state of a machine as text. -/
def dump (m : Machine ρ) : String := "\n".intercalate m.dumpLines

end Machine

end ChipEight
