import ChipEight.Machine.Operation

namespace ChipEight

/-!
# One step, case by case

Executing a word and running a cycle each have three cases, which the rest of the
theory uses instead of the definitions.

* `Machine.noting` — the machine once it has taken down the word to execute;
* `Machine.advanced` — the machine as the instruction of a cycle finds it, with the
  word fetched and the program counter past it;
* `Machine.framed_perform` — what an instruction leaves alone;
* `Machine.execute_of_decode`, `Machine.execute_of_skip`, `Machine.execute_of_trap` —
  the word names an instruction, it is left out, or it stops the machine;
* `Machine.result_execute` — what comes of the word in these cases;
* `Machine.cycle_of_decode`, `Machine.cycle_of_skip`, `Machine.cycle_of_trap` — the
  same for a cycle, which ticks the timers unless the machine stops.
-/

namespace Machine

variable {ρ : Type}

/-- The machine once it has taken down the word to execute. -/
def noting (m : Machine ρ) (operand : Word) : Machine ρ := { m with operand := operand }

/-- The machine with the program counter past the instruction of a cycle, and nothing
    drawn yet. -/
def fetched (m : Machine ρ) : Machine ρ := { m with redraw := false, pc := m.pc + 2 }

/-- The machine as the instruction of a cycle finds it. -/
def advanced (m : Machine ρ) : Machine ρ := m.fetched.noting m.fetch

/-- The instruction of a cycle lies where the program counter was. -/
@[simp] theorem here_advanced (m : Machine ρ) : m.advanced.here = m.pc := by
  show m.pc + 2 - 2 = m.pc
  exact BitVec.add_sub_cancel m.pc 2

/-- What a cycle makes of the execution of its word: the timers tick, unless the
    machine stopped. -/
def ticked (r : Outcome ρ Trap Word) : Outcome ρ Trap Word :=
  match r.result with
  | .ok _ => { r with machine := r.machine.tick }
  | .error _ => r

variable [RandomSource ρ] {m : Machine ρ} {w : Word}

/-! ### Performing an instruction -/

/-- What an instruction leaves alone: the strictness and the word being executed, the call
    stack unless it calls or returns, and the picture unless it asks for the picture to be
    shown again. -/
structure Framed (i : Instruction) (m n : Machine ρ) : Prop where
  strict : n.strict = m.strict
  operand : n.operand = m.operand
  stack : (∀ target, i ≠ .call target) → i ≠ .ret → n.stack = m.stack
  picture : n.redraw = false → n.picture = m.picture

/-- Performing an instruction leaves alone what it should. -/
theorem framed_perform (m : Machine ρ) (i : Instruction) : Framed i m (m.perform i) := by
  cases i with
  -- The two that draw ask for the picture to be shown again.
  | clear => exact ⟨rfl, rfl, fun _ _ => rfl, fun undrawn => nomatch undrawn⟩
  | draw x y n => exact ⟨rfl, rfl, fun _ _ => rfl, fun undrawn => nomatch undrawn⟩
  | ret =>
    simp only [perform]
    split <;> exact ⟨rfl, rfl, fun _ notRet => absurd rfl notRet, fun _ => rfl⟩
  | call target =>
    simp only [perform]
    split <;> exact ⟨rfl, rfl, fun notCall _ => absurd rfl (notCall target), fun _ => rfl⟩
  | skip c =>
    simp only [perform]
    split <;> exact ⟨rfl, rfl, fun _ _ => rfl, fun _ => rfl⟩
  | arithmetic op x y => cases op <;> exact ⟨rfl, rfl, fun _ _ => rfl, fun _ => rfl⟩
  | awaitKey x =>
    simp only [perform, awaitKey]
    split <;> exact ⟨rfl, rfl, fun _ _ => rfl, fun _ => rfl⟩
  | loadRegisters x =>
    simp only [perform, loadRegisters]
    exact ⟨rfl, rfl, fun _ _ => rfl, fun _ => rfl⟩
  | _ => exact ⟨rfl, rfl, fun _ _ => rfl, fun _ => rfl⟩

/-! ### Executing a word -/

/-- A word that names an instruction: the instruction is performed. -/
theorem execute_of_decode {i : Instruction} (known : Instruction.decode? w = some i) :
    m.execute w = ⟨(m.noting w).perform i,
      .executing m.pc w :: ((m.noting w).mishap? i).toList, .ok w⟩ := by
  simp only [execute, known]
  rfl

/-- A word that names none on a lenient machine: it is left out. -/
theorem execute_of_skip (unknown : Instruction.decode? w = none) (lenient : m.strict = false) :
    m.execute w = ⟨m.noting w, [.executing m.pc w, .skipped w m.here], .ok w⟩ := by
  simp only [execute, unknown]
  exact if_neg (by simp [lenient])

/-- A word that names none on a strict machine: it stops the machine. -/
theorem execute_of_trap (unknown : Instruction.decode? w = none) (strict : m.strict = true) :
    m.execute w = ⟨m.noting w, [.executing m.pc w], .error ⟨w⟩⟩ := by
  simp only [execute, unknown]
  exact if_pos strict

/-- What executing a word answers: the word, unless it stops the machine. -/
theorem result_execute (m : Machine ρ) (w : Word) :
    (m.execute w).result
      = if Instruction.decode? w = none ∧ m.strict = true then .error ⟨w⟩ else .ok w := by
  cases known : Instruction.decode? w with
  | some i => rw [execute_of_decode known, if_neg (by simp)]
  | none =>
    cases strict : m.strict with
    | true => rw [execute_of_trap known strict, if_pos ⟨rfl, rfl⟩]
    | false => rw [execute_of_skip known strict, if_neg (by simp)]

/-! ### Running a cycle -/

/-- A cycle executes the word at the program counter. -/
theorem cycle_eq_ticked (m : Machine ρ) : m.cycle = ticked (m.fetched.execute m.fetch) := rfl

/-- What came of a cycle is what came of its word. -/
theorem result_cycle (m : Machine ρ) : m.cycle.result = (m.fetched.execute m.fetch).result := by
  rw [cycle_eq_ticked, ticked]
  split <;> rfl

/-- The word at the program counter names an instruction. -/
theorem cycle_of_decode {i : Instruction} (known : Instruction.decode? m.fetch = some i) :
    m.cycle = ⟨(m.advanced.perform i).tick,
      .executing m.advanced.pc m.fetch :: (m.advanced.mishap? i).toList, .ok m.fetch⟩ := by
  rw [cycle_eq_ticked, execute_of_decode known]
  rfl

/-- The word at the program counter names none, and the machine is lenient. -/
theorem cycle_of_skip (unknown : Instruction.decode? m.fetch = none)
    (lenient : m.strict = false) :
    m.cycle = ⟨m.advanced.tick, [.executing m.advanced.pc m.fetch, .skipped m.fetch m.pc],
      .ok m.fetch⟩ := by
  rw [← here_advanced m]
  rw [cycle_eq_ticked, execute_of_skip unknown (m := m.fetched) lenient]
  rfl

/-- The word at the program counter names none, and the machine is strict: the timers
    stand still. -/
theorem cycle_of_trap (unknown : Instruction.decode? m.fetch = none) (strict : m.strict = true) :
    m.cycle = ⟨m.advanced, [.executing m.advanced.pc m.fetch], .error ⟨m.fetch⟩⟩ := by
  rw [cycle_eq_ticked, execute_of_trap unknown (m := m.fetched) strict]
  rfl

end Machine

end ChipEight
