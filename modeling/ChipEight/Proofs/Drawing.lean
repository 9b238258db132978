import ChipEight.Proofs.Step

namespace ChipEight

/-!
# Who draws

The picture changes only where the machine says so.

* `Machine.picture_cycle` — a cycle that does not ask for the picture to be shown again has
  left it alone;
* `Machine.redraw_cycle_of_error` — a cycle that stops the machine does not ask.
-/

namespace Machine

variable {ρ : Type} [RandomSource ρ]

/-- **Only drawing changes the picture.** A cycle that does not ask for the picture to be
    shown again has left it alone. -/
theorem picture_cycle (m : Machine ρ) (undrawn : m.cycle.machine.redraw = false) :
    m.cycle.machine.picture = m.picture := by
  cases known : Instruction.decode? m.fetch with
  | some i =>
    rw [cycle_of_decode known] at undrawn ⊢
    exact (framed_perform m.advanced i).picture undrawn
  | none =>
    cases strict : m.strict
    · rw [cycle_of_skip known strict]
      rfl
    · rw [cycle_of_trap known strict]
      rfl

/-- A cycle that stops the machine does not ask for the picture to be shown again. -/
theorem redraw_cycle_of_error (m : Machine ρ) {trap : Trap}
    (stopped : m.cycle.result = .error trap) : m.cycle.machine.redraw = false := by
  cases known : Instruction.decode? m.fetch with
  | some i =>
    rw [cycle_of_decode known] at stopped
    exact nomatch stopped
  | none =>
    cases strict : m.strict
    · rw [cycle_of_skip known strict] at stopped
      exact nomatch stopped
    · rw [cycle_of_trap known strict]
      rfl

end Machine

end ChipEight
