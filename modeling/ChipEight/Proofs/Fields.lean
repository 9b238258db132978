import ChipEight.Machine.Operation

namespace ChipEight

/-!
# Fields after loading and after a reset

Loading a program changes the memory and nothing else, and a reset keeps the strictness
and the random source.  These lemmas say so field by field, with the memory as a variable:
comparing whole machines would have the 4096 bytes written out.

* `Machine.withMemory`, `Machine.withStack` — the machine with another memory, which is
  what loading makes, or another call stack;
* `Machine.place_eq_withMemory` — loading in these terms.
-/

/-- Before a program is loaded there is the font, and zero elsewhere. -/
theorem Memory.getElem_initial {i : Nat} (hi : i < 4096) :
    initial.bytes[i]
      = if Font.start ≤ i then (Font.bytes[i - Font.start]?).getD 0 else 0 := by
  have zero : blank.bytes[i] = 0 := by simp [blank]
  rw [initial, getElem_overlay, zero]

/-- The same of addresses. -/
theorem Memory.read_initial (a : Word) :
    initial.read a
      = if Font.start ≤ (cell a).val then (Font.bytes[(cell a).val - Font.start]?).getD 0
        else 0 := by
  simp only [read, Fin.getElem_fin, getElem_initial]

namespace Machine

variable {ρ : Type}

/-- The machine with another memory. -/
def withMemory (m : Machine ρ) (memory : Memory) : Machine ρ := { m with memory := memory }

/-- The machine with another call stack. -/
def withStack (m : Machine ρ) (stack : CallStack) : Machine ρ := { m with stack := stack }

/-- Loading a program gives the machine another memory. -/
theorem place_eq_withMemory (m : Machine ρ) (program : Array Byte) :
    m.place program = m.withMemory (m.memory.overlay programStart program) := rfl

/-- So does the operation that loads it. -/
theorem after_load [RandomSource ρ] (m : Machine ρ) (program : Array Byte) :
    m.after [.load program] = m.withMemory (m.memory.overlay programStart program) := rfl

/-- All that comes of loading it. -/
theorem load_eq (m : Machine ρ) (program : Array Byte) :
    m.load program
      = ⟨m.withMemory (m.memory.overlay programStart program), loadNotices program,
          .ok (fittingSize program)⟩ := rfl

/-- The next cycle then executes a word of that memory. -/
@[simp] theorem fetch_withMemory (m : Machine ρ) (memory : Memory) :
    (m.withMemory memory).fetch = memory.readWord m.pc := rfl

@[simp] theorem withMemory_withMemory (m : Machine ρ) (memory memory' : Memory) :
    (m.withMemory memory).withMemory memory' = m.withMemory memory' := by
  simp only [withMemory]

@[simp] theorem memory_withMemory (m : Machine ρ) (memory : Memory) :
    (m.withMemory memory).memory = memory := rfl

@[simp] theorem stack_withMemory (m : Machine ρ) (memory : Memory) :
    (m.withMemory memory).stack = m.stack := rfl

@[simp] theorem picture_withMemory (m : Machine ρ) (memory : Memory) :
    (m.withMemory memory).picture = m.picture := rfl

@[simp] theorem strict_withMemory (m : Machine ρ) (memory : Memory) :
    (m.withMemory memory).strict = m.strict := rfl

@[simp] theorem random_withMemory (m : Machine ρ) (memory : Memory) :
    (m.withMemory memory).random = m.random := rfl

@[simp] theorem memory_new (strict : Bool) (random : ρ) :
    (new strict random).memory = .initial := rfl

@[simp] theorem pc_new (strict : Bool) (random : ρ) : (new strict random).pc = 0x200 := rfl

@[simp] theorem stack_new (strict : Bool) (random : ρ) :
    (new strict random).stack = .empty := rfl

@[simp] theorem picture_new (strict : Bool) (random : ρ) :
    (new strict random).picture = .blank := rfl

@[simp] theorem strict_new (strict : Bool) (random : ρ) :
    (new strict random).strict = strict := rfl

@[simp] theorem random_new (strict : Bool) (random : ρ) :
    (new strict random).random = random := rfl

end Machine

end ChipEight
