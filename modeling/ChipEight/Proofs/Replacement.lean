import ChipEight.Proofs.Step

namespace ChipEight

/-!
# Fields that few instructions look at

An instruction that does not look at a field does the same whatever the field holds, and
leaves it alone.

* `Machine.Replacement`, `Machine.replace` — new contents for the call stack, the keypad, the
  strictness and the random source, or for some of them;
* `Machine.Replacement.Unseen` — an instruction finds no difference;
* `Machine.perform_replace` — then it does the same;
* `Machine.execute_replace` — and so does a word that names it.
-/

namespace Machine

variable {ρ : Type}

/-- New contents for some of the fields that few instructions look at. -/
structure Replacement (ρ : Type) where
  stack : Option CallStack := none
  keypad : Option Keypad := none
  strict : Option Bool := none
  random : Option ρ := none

/-- The machine with new contents in these fields. -/
def replace (m : Machine ρ) (r : Replacement ρ) : Machine ρ :=
  { m with
    stack := r.stack.getD m.stack
    keypad := r.keypad.getD m.keypad
    strict := r.strict.getD m.strict
    random := r.random.getD m.random }

/-- An instruction finds no difference: one that calls, returns or draws a number is left what
    it works on, and one that inspects keys finds the same of them. -/
structure Replacement.Unseen (r : Replacement ρ) (m : Machine ρ) (i : Instruction) : Prop where
  calls : (i = .ret ∨ ∃ target, i = .call target) → r.stack = none
  draws : ∀ x mask, i = .random x mask → r.random = none
  tested : ∀ c, i = .skip c → c.holds (m.replace r) = c.holds m
  lowest : ∀ x, i = .awaitKey x → (m.replace r).keypad.lowest? = m.keypad.lowest?

/-- Conditions look at the keypad and at no other of these fields. -/
theorem holds_replace (m : Machine ρ) {r : Replacement ρ} (keypad : r.keypad = none)
    (c : Condition) : c.holds (m.replace r) = c.holds m := by
  obtain ⟨stack, _, strict, random⟩ := r
  obtain rfl := keypad
  cases c <;> rfl

/-- The same calls and returns are refused, if there is room for the same. -/
theorem mishap?_replace (m : Machine ρ) {r : Replacement ρ}
    (depth : (m.replace r).stack.depth = m.stack.depth) (i : Instruction) :
    (m.replace r).mishap? i = m.mishap? i := by
  cases i with
  | ret =>
    have empty : (m.replace r).stack.isEmpty = m.stack.isEmpty := by
      rw [CallStack.isEmpty, depth, CallStack.isEmpty]
    simp only [mishap?, empty]
    rfl
  | call target =>
    have full : (m.replace r).stack.isFull = m.stack.isFull := by
      rw [CallStack.isFull, depth, CallStack.isFull]
    simp only [mishap?, full]
    rfl
  | _ => rfl

variable [RandomSource ρ]

/-- **What an instruction does not look at** makes no difference to it, and is left alone. -/
theorem perform_replace {m : Machine ρ} {r : Replacement ρ} {i : Instruction}
    (unseen : r.Unseen m i) : (m.replace r).perform i = (m.perform i).replace r := by
  obtain ⟨calls, draws, tested, lowest⟩ := unseen
  obtain ⟨stack, keypad, strict, random⟩ := r
  cases i with
  | ret =>
    obtain rfl := calls (.inl rfl)
    simp only [perform, replace, Option.getD_none]
    split <;> rfl
  | call target =>
    obtain rfl := calls (.inr ⟨target, rfl⟩)
    simp only [perform, replace, Option.getD_none]
    split <;> rfl
  | random x mask =>
    obtain rfl := draws x mask rfl
    rfl
  | skip c =>
    simp only [perform, tested c rfl]
    split <;> rfl
  | arithmetic op x y => cases op <;> rfl
  | awaitKey x =>
    simp only [perform, awaitKey, lowest x rfl]
    split <;> rfl
  | _ => rfl

/-- A word does not see the difference if the instruction that it names does not, or if it
    names none and the machine stays as strict as it is. -/
theorem execute_replace {m : Machine ρ} {r : Replacement ρ} {w : Word}
    (depth : (m.replace r).stack.depth = m.stack.depth)
    (unseen : ∀ i, Instruction.decode? w = some i → r.Unseen (m.noting w) i)
    (unknown : Instruction.decode? w = none → r.strict = none) :
    (m.replace r).execute w
      = ⟨(m.execute w).machine.replace r, (m.execute w).notices, (m.execute w).result⟩ := by
  cases known : Instruction.decode? w with
  | some i =>
    have performed := perform_replace (unseen i known)
    have told := mishap?_replace (m.noting w) (r := r) depth i
    rw [execute_of_decode known, execute_of_decode known]
    simp only [← performed, ← told]
    rfl
  | none =>
    obtain ⟨stack, keypad, _, random⟩ := r
    obtain rfl := unknown known
    have kept : (m.replace ⟨stack, keypad, none, random⟩).strict = m.strict := rfl
    cases strict : m.strict with
    | false =>
      rw [execute_of_skip known strict, execute_of_skip known (kept.trans strict)]
      rfl
    | true =>
      rw [execute_of_trap known strict, execute_of_trap known (kept.trans strict)]
      rfl

end Machine

end ChipEight
