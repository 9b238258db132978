import ChipEight.Proofs.Cycles
import ChipEight.Proofs.Decoding
import ChipEight.Proofs.Fields
import ChipEight.Proofs.Replacement

namespace ChipEight

/-!
# Strict and lenient machines

A strict machine is a lenient one that stops at the first word that names no
instruction.

* `Machine.withStrict` — the same machine, strict or lenient;
* `Machine.execute_withStrict` — no word that names an instruction looks at the difference;
* `Machine.lockstep_withStrict` — hence no operation does, unless it executes another word;
* `Machine.result_cycle_eq` — what a cycle answers;
* `Machine.strict_of_mem_cycles` — the cycles of a run meet machines as strict as the first one;
* `Machine.strict_stops_at_first_unknown` — a strict and a lenient run side by side, up
  to the first such word, and what becomes of the two machines there.
-/

namespace Machine

variable {ρ : Type}

/-- The same machine, strict or lenient. -/
def withStrict (m : Machine ρ) (strict : Bool) : Machine ρ := { m with strict := strict }

variable [RandomSource ρ]

/-- A word that names an instruction is executed alike: no instruction looks at the
    strictness. -/
theorem execute_withStrict (m : Machine ρ) (strict : Bool) {w : Word} (known : ¬ w.IsUnknown) :
    (m.withStrict strict).execute w
      = ⟨(m.execute w).machine.withStrict strict, (m.execute w).notices,
        (m.execute w).result⟩ := by
  rw [← Instruction.decode?_eq_none_iff] at known
  refine execute_replace (r := { strict := some strict }) rfl (fun i _ => ?_)
    fun unknown => absurd unknown known
  exact {
    calls := fun _ => rfl
    draws := fun _ _ _ => rfl
    tested := fun c _ => holds_replace _ rfl c
    lowest := fun _ _ => rfl }

/-! ### Nothing changes the strictness -/

/-- A word leaves the strictness alone. -/
theorem strict_execute (m : Machine ρ) (w : Word) : (m.execute w).machine.strict = m.strict := by
  cases known : Instruction.decode? w with
  | some i =>
    rw [execute_of_decode known]
    exact (framed_perform (m.noting w) i).strict
  | none =>
    cases strict : m.strict
    · rw [execute_of_skip known strict]
      exact strict
    · rw [execute_of_trap known strict]
      exact strict

/-- A cycle leaves the strictness alone. -/
theorem strict_cycle (m : Machine ρ) : m.cycle.machine.strict = m.strict := by
  have executed : (m.fetched.execute m.fetch).machine.strict = m.strict :=
    strict_execute m.fetched m.fetch
  rw [cycle_eq_ticked, ticked]
  split <;> exact executed

/-- What a cycle answers: the word that it fetched, unless the word is unknown and stops a
    strict machine. -/
theorem result_cycle_eq (m : Machine ρ) :
    m.cycle.result
      = if m.fetch.IsUnknown ∧ m.strict = true then .error ⟨m.fetch⟩ else .ok m.fetch := by
  simp only [result_cycle, result_execute, Instruction.decode?_eq_none_iff]
  rfl

/-- An operation leaves the strictness alone. -/
theorem strict_apply (m : Machine ρ) (operation : Operation) :
    (m.apply operation).machine.strict = m.strict := by
  cases operation with
  | cycle => exact strict_cycle m
  | execute operand => exact strict_execute m _
  | load program => exact strict_withMemory m _
  | loadContents path contents =>
    cases contents with
    | ok program => exact strict_withMemory m _
    | error reason => rfl
  | setKey key down => rfl
  | tick => rfl
  | reset => exact strict_new m.strict m.random

/-- A run leaves the strictness alone. -/
theorem strict_after (m : Machine ρ) (operations : List Operation) :
    (m.after operations).strict = m.strict :=
  after_induction (P := fun n => n.strict = m.strict)
    (fun n operation h => (strict_apply n operation).trans h) rfl operations

/-- The machines that the operations of a run meet are as strict as the first one. -/
theorem strict_of_mem_history {m : Machine ρ} {operations : List Operation}
    {p : Machine ρ × Operation} (met : p ∈ m.history operations) : p.1.strict = m.strict := by
  induction operations generalizing m with
  | nil => exact absurd met List.not_mem_nil
  | cons operation operations ih =>
    rcases List.mem_cons.mp met with rfl | later
    · rfl
    · exact (ih later).trans (strict_apply m operation)

/-- Among them are those that its cycles meet. -/
theorem strict_of_mem_cycles {m c : Machine ρ} {operations : List Operation}
    (met : c ∈ m.cycles operations) : c.strict = m.strict := by
  obtain ⟨⟨n, operation⟩, among, cycled⟩ := List.mem_filterMap.mp met
  have kept := strict_of_mem_history among
  cases operation with
  | cycle =>
    obtain rfl : n = c := Option.some.inj cycled
    exact kept
  | _ => exact nomatch cycled

/-! ### Two runs -/

/-- No part of an operation tells a machine from its strict twin, as long as no unknown
    word is executed. -/
theorem lockstep_withStrict :
    Lockstep (ρ := ρ) (fun lenient strict => strict = lenient.withStrict true)
      (fun _ _ w => ¬ w.IsUnknown) where
  fetch := by
    rintro m _ rfl
    rfl
  fetched := by
    rintro m _ rfl
    rfl
  execute := by
    rintro m _ w rfl known
    rw [execute_withStrict m true known]
    exact ⟨rfl, rfl, rfl⟩
  tick := by
    rintro m _ rfl
    rfl
  place := by
    rintro m _ rfl program
    rfl
  setKey := by
    rintro m _ rfl key down
    rfl
  reset := by
    rintro m _ rfl
    rfl

/-- Hence a strict and a lenient run that execute no unknown word go side by side. -/
theorem answers_withStrict (m : Machine ρ) (operations : List Operation)
    (known : ∀ w ∈ m.words operations, ¬ w.IsUnknown) :
    m.answers operations = (m.withStrict true).answers operations
      ∧ (m.withStrict true).after operations = (m.after operations).withStrict true :=
  lockstep_withStrict.answers rfl operations fun p hp w hw =>
    known w (List.mem_filterMap.mpr ⟨p, hp, hw⟩)

/-- A word stops a strict machine exactly if it is unknown. -/
theorem execute_eq_error_iff (m : Machine ρ) (w : Word) :
    ((m.withStrict true).execute w).result = .error ⟨w⟩ ↔ w.IsUnknown := by
  rw [← Instruction.decode?_eq_none_iff]
  cases known : Instruction.decode? w with
  | some i => simp [execute_of_decode known]
  | none => simp [execute_of_trap known (m := m.withStrict true) rfl]

/-- **A strict machine is a lenient one stopped at its first unknown word.**  As long as
    a lenient run executes no unknown word, the strict run gives the same answers and
    comes to the same machine.  If the word of the next cycle is unknown, the strict
    machine stops with that word, past it, with nothing drawn and its timers standing
    still, while the lenient machine tells of the word and goes on from the same state
    with its timers ticked.  Which words are unknown does not depend on the machine. -/
theorem strict_stops_at_first_unknown (m : Machine ρ) (operations : List Operation)
    (known : ∀ w ∈ (m.withStrict false).words operations, ¬ w.IsUnknown) :
    let lenient := (m.withStrict false).after operations
    let strict := (m.withStrict true).after operations
    (m.withStrict true).answers operations = (m.withStrict false).answers operations
      ∧ strict = { lenient with strict := true }
      ∧ (strict.fetch.IsUnknown →
        strict.cycle.result = .error ⟨strict.fetch⟩
          ∧ strict.cycle.notices = [.executing (strict.pc + 2) strict.fetch]
          ∧ strict.cycle.machine
            = { strict with pc := strict.pc + 2, operand := strict.fetch, redraw := false }
          ∧ lenient.cycle.result = .ok strict.fetch
          ∧ lenient.cycle.notices
            = strict.cycle.notices ++ [.skipped strict.fetch strict.pc]
          ∧ lenient.cycle.machine
            = { strict.cycle.machine with
                strict := false
                delay := countDown strict.delay
                sound := countDown strict.sound })
      ∧ ∀ (n : Machine ρ) (w : Word),
        ((n.withStrict true).execute w).result = .error ⟨w⟩ ↔ w.IsUnknown := by
  intro lenient strict
  obtain ⟨same, last⟩ := answers_withStrict (m.withStrict false) operations known
  have lenientMachine : lenient.strict = false := strict_after _ _
  have strictMachine : strict.strict = true := strict_after _ _
  have side : strict = lenient.withStrict true := last
  refine ⟨same.symm, side, fun unknown => ?_, execute_eq_error_iff⟩
  rw [← Instruction.decode?_eq_none_iff] at unknown
  -- Both machines hold the same program, so they come to the same word.
  have fetch : lenient.fetch = strict.fetch := by rw [side]; rfl
  have skip := cycle_of_skip (fetch ▸ unknown) lenientMachine
  rw [cycle_of_trap unknown strictMachine, skip]
  refine ⟨rfl, rfl, rfl, congrArg _ fetch, ?_, ?_⟩
  · rw [side]
    rfl
  · rw [side]
    -- Only the fields of the two machines can be compared, so the lenient one is taken apart.
    obtain ⟨⟩ := lenient
    obtain rfl := lenientMachine
    rfl

/-- A memory that holds `6005` where programs start and zeros behind it: a cycle executes
    the first word and comes to the second. -/
theorem words_of_one (memory : Memory) (first : memory.readWord 0x200 = 0x6005)
    (second : memory.readWord 0x202 = 0x0000) :
    let m := (new false (Wheel.ofList [])).withMemory memory
    (m.withStrict false).words [.setKey 0x3 true, .cycle] = [0x6005]
      ∧ ((m.withStrict true).after [.setKey 0x3 true, .cycle]).fetch = 0x0000 := by
  intro m
  refine ⟨congrArg (fun w => [w]) first, ?_⟩
  have decoded : Instruction.decode? ((m.withStrict true).setKey 0x3 true).fetch
      = some (.set 0x0 0x05) := by
    show Instruction.decode? (memory.readWord 0x200) = some (.set 0x0 0x05)
    rw [first]
    decide
  show ((m.withStrict true).setKey 0x3 true).cycle.machine.fetch = 0x0000
  rw [cycle_of_decode decoded]
  exact second

/-- The theorem at a program of one word: the run executes it, and the strict machine
    stops at the zeros behind it. -/
theorem strict_stops_behind_program :
    let m := (new false (Wheel.ofList [])).withMemory
      (Memory.initial.overlay programStart #[0x60, 0x05])
    (∀ w ∈ (m.withStrict false).words [.setKey 0x3 true, .cycle], ¬ w.IsUnknown)
      ∧ ((m.withStrict true).after [.setKey 0x3 true, .cycle]).cycle.result
        = .error ⟨0x0000⟩ := by
  have first : (Memory.initial.overlay programStart #[0x60, 0x05]).readWord 0x200 = 0x6005 := by
    simp [Memory.readWord, Memory.read_overlay, programStart]
  have second : (Memory.initial.overlay programStart #[0x60, 0x05]).readWord 0x202 = 0x0000 := by
    simp [Memory.readWord, Memory.read_overlay, Memory.read_initial, programStart, Font.start]
    decide
  obtain ⟨words, last⟩ := words_of_one _ first second
  intro m
  have known : ∀ w ∈ (m.withStrict false).words [.setKey 0x3 true, .cycle], ¬ w.IsUnknown := by
    rw [words]
    simpa using (by decide : ¬ Word.IsUnknown 0x6005)
  have stop := (strict_stops_at_first_unknown m _ known).2.2.1 (by rw [last]; decide)
  refine ⟨known, stop.1.trans ?_⟩
  rw [last]

end Machine

end ChipEight
