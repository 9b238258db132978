import ChipEight.Proofs.History
import ChipEight.Proofs.Naming
import ChipEight.Proofs.Replacement

namespace ChipEight

/-!
# Runs without chance

A run that draws no random number does not depend on where they would come from.

* `Machine.withRandom` — the same machine with another random source;
* `Machine.execute_withRandom` — a word that draws no number does not look at the source;
* `Machine.lockstep_withRandom` — hence no operation does, unless it executes a word that
  draws one.
-/

/-- The word draws a random number. -/
def Word.DrawsNumber (w : Word) : Prop := w.family = 0xC

namespace Machine

variable {ρ : Type}

/-- The same machine with another random source. -/
def withRandom (m : Machine ρ) (random : ρ) : Machine ρ := { m with random := random }

variable [RandomSource ρ]

/-- A word that draws no number is executed alike: no other instruction looks at the random
    source. -/
theorem execute_withRandom (m : Machine ρ) (random : ρ) {w : Word} (sure : ¬ w.DrawsNumber) :
    (m.withRandom random).execute w
      = ⟨(m.execute w).machine.withRandom random, (m.execute w).notices,
        (m.execute w).result⟩ := by
  refine execute_replace (r := { random := some random }) rfl (fun i known => ?_) fun _ => rfl
  exact {
    calls := fun _ => rfl
    draws := by
      rintro x mask rfl
      exact absurd (Instruction.names_of_decode? known).1 sure
    tested := fun c _ => holds_replace _ rfl c
    lowest := fun _ _ => rfl }

/-- No part of an operation tells a machine from the one with another random source, as
    long as no word draws a number. -/
theorem lockstep_withRandom (random : ρ) :
    Lockstep (fun m n : Machine ρ => n = m.withRandom random) (fun _ _ w => ¬ w.DrawsNumber) where
  fetch := by
    rintro m _ rfl
    rfl
  fetched := by
    rintro m _ rfl
    rfl
  execute := by
    rintro m _ w rfl sure
    rw [execute_withRandom m random sure]
    exact ⟨rfl, rfl, rfl⟩
  tick := by
    rintro m _ rfl
    rfl
  place := by
    rintro m _ rfl program
    rfl
  setKey := by
    rintro m _ rfl key down
    rfl
  reset := by
    rintro m _ rfl
    rfl

end Machine

end ChipEight
