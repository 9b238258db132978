import ChipEight.Proofs.Loose.Operations
import ChipEight.Proofs.RandomNumbers
import ChipEight.Proofs.Strictness

namespace ChipEight

/-!
# Reset

A reset puts the machine back to the state without a program, whatever happened before.  Only
the strictness and the position in the random source are kept.

The loose machine shows what this takes: its lists may have any length, and each field has to
be put back by itself.

* `Loose.restore` — every field put back, one after the other;
* `Loose.unset` — what a machine is built from, before its fields are put back;
* `Loose.restore_eq_reset` — this is a reset, from any state at all;
* `Machine.reset_forgets_history` — hence nothing that follows tells a machine that was reset
  from a new one whose source has made the draws of the run so far.
-/

/-! ### Field by field -/

namespace Loose

variable {ρ α : Type}

/-- The whole of a list replaced by another one, in place. -/
def replaceAll (xs ys : List α) : List α := splice xs 0 xs.length ys

/-- Nothing of the list is left, however long it was. -/
@[simp] theorem replaceAll_eq (xs ys : List α) : replaceAll xs ys = ys := by
  simp [replaceAll, splice]

/-- Put every field back, one after the other.  The lists that the host may hold on to are
    changed in place. -/
def restore : Step ρ Unit := do
  change fun s => { s with memory := replaceAll s.memory (List.replicate 4096 0) }
  change fun s => { s with
    memory := splice s.memory Font.start (Font.start + Font.bytes.size)
      (numbers Font.bytes.toList) }
  change fun s => { s with registers := List.replicate 16 0 }
  setPc programStart
  change fun s => { s with depth := 0 }
  setIndex 0
  change fun s => { s with slots := replaceAll s.slots (List.replicate 16 0) }
  change fun s => { s with delay := 0 }
  change fun s => { s with sound := 0 }
  change fun s => { s with keys := replaceAll s.keys (List.replicate 16 false) }
  change fun s => { s with cells := replaceAll s.cells (List.replicate 2048 0) }
  change fun s => { s with operand := 0 }
  change fun s => { s with redraw := false }

/-- What a machine is built from: its lists, but no font, no registers and no place to
    start. -/
def unset (strict : Bool) (random : ρ) : Loose ρ where
  memory := List.replicate 4096 0
  registers := []
  index := 0
  pc := 0
  slots := List.replicate 16 0
  depth := 0
  delay := 0
  sound := 0
  cells := List.replicate 2048 0
  redraw := false
  keys := List.replicate 16 false
  operand := 0
  strict := strict
  random := random

/-- **No field escapes.**  Putting the fields back one by one leaves nothing of any state but
    its strictness and its random source. -/
theorem restore_eq (s : Loose ρ) : restore s = .ok () (new s.strict s.random) := by
  simp only [restore, change, setPc, setIndex, bind, EStateM.bind, replaceAll_eq]
  rfl

/-- This is a reset. -/
theorem restore_eq_reset : (restore : Step ρ Unit) = reset := funext restore_eq

end Loose

/-! ### After any history -/

namespace Machine

variable {ρ : Type} [RandomSource ρ]

/-- **A reset forgets all history** but how far the random source has moved.  After any run,
    failed operations included, putting the fields of the loose machine back one by one leaves
    the state that a new machine is built with, and so does the reset of the machine.  Whatever
    is done next gives the answers of a new machine and comes to the same state, with any source
    that goes on with the same numbers. -/
theorem reset_forgets_history (strict : Bool) (random : ρ) (operations : List Operation) :
    let m := (new strict random).after operations
    let s := (Loose.new strict random).after operations
    let count := ((new strict random).words operations).countP fun w => decide w.DrawsNumber
    let rest := RandomSource.after random count
    Loose.restore s = .ok () (Loose.new strict rest)
      ∧ Loose.restore (Loose.unset strict rest) = .ok () (Loose.new strict rest)
      ∧ Loose.operate .reset s = .ok none (Loose.new strict rest)
      ∧ m.reset = new strict rest
      ∧ ∀ (later : List Operation) (random' : ρ),
        let drawn := (m.reset.words later).countP fun w => decide w.DrawsNumber
        (∀ j < drawn, RandomSource.drawn random' j = RandomSource.drawn rest j) →
        (new strict random').answers later = m.reset.answers later
          ∧ (new strict random').after later
            = (m.reset.after later).withRandom (RandomSource.after random' drawn) := by
  intro m s count rest
  have kept : m.strict = strict := strict_after _ operations
  have moved : m.random = rest := by
    rw [random_after, length_draws, random_new]
  have reset : m.reset = new strict rest := by
    rw [Machine.reset, kept, moved]
  -- The state of the loose machine is that of the machine, so it holds the same source.
  have same : s = m.loose := by
    rw [← Loose.after_loose, Loose.loose_new]
  have restored : Loose.restore s = .ok () (Loose.new strict rest) := by
    rw [Loose.restore_eq, same]
    show EStateM.Result.ok () (Loose.new m.strict m.random) = _
    rw [kept, moved]
  refine ⟨restored, Loose.restore_eq _, ?_, reset, ?_⟩
  · rw [Loose.restore_eq_reset] at restored
    show (Loose.reset >>= fun _ => pure none) s = _
    simp only [bind, EStateM.bind, restored]
    rfl
  · intro later random' drawn numbers
    have counted : (m.reset.draws later).length = drawn := length_draws m.reset later
    have other := answers_withRandom m.reset random' later fun j hj => by
      rw [numbers j (counted ▸ hj), reset, random_new]
    rw [counted] at other
    have fresh : m.reset.withRandom random' = new strict random' := by
      rw [reset]
      rfl
    rw [fresh] at other
    exact other

/-- The theorem at a strict machine that has drawn a number, called a routine and stopped: after
    its reset it goes on like a new machine whose source starts with the next number. -/
theorem reset_behind_a_trap :
    let random := Wheel.ofList [5, 9]
    let operations := [.execute 0xC0FF, .setKey 0x5 true, .execute 0x2300, .execute 0x0000]
    let m := (new true random).after operations
    let random' := Wheel.ofList [9, 5]
    let later := [.execute 0xC1FF, .setKey 0x2 true, .execute 0xC20F]
    ((m.reset.words later).countP fun w => decide w.DrawsNumber) = 2
      ∧ (∀ j < 2, RandomSource.drawn random' j
        = RandomSource.drawn (RandomSource.after random 1) j)
      ∧ (new true random').answers later = m.reset.answers later := by
  intro random operations m random' later
  have two : ((m.reset.words later).countP fun w => decide w.DrawsNumber) = 2 := rfl
  have numbers : ∀ j < 2, RandomSource.drawn random' j
      = RandomSource.drawn (RandomSource.after random 1) j := by decide
  obtain ⟨-, -, -, -, follows⟩ := reset_forgets_history true random operations
  exact ⟨two, numbers, (follows later random' numbers).1⟩

end Machine

end ChipEight
