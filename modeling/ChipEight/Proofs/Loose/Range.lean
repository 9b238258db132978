import ChipEight.Proofs.Files
import ChipEight.Proofs.Loose.Operations
import ChipEight.Proofs.Strictness

namespace ChipEight

/-!
# Every run stays in range

* `Loose.inRange_loose` — the state of a machine is in range;
* `Machine.apply_eq_error` — why an operation on the machine fails;
* `Loose.every_run_stays_in_range` — hence no run of the loose machine leaves the ranges,
  and none of its operations looks for a place or a routine that is not there.
-/

/-! ### Ranges -/

namespace Loose

variable {ρ : Type}

/-- A bank of bit vectors has sixteen numbers in their range. -/
theorem range_vector {size width : Nat} (xs : Vector (BitVec width) size) :
    (numbers xs.toList).length = size
      ∧ ∀ n ∈ numbers xs.toList, 0 ≤ n ∧ n ≤ 2 ^ width - 1 :=
  ⟨by rw [length_numbers, Vector.length_toList], fun _ => range_of_mem_numbers⟩

/-- A number of a bit vector is in its range. -/
theorem range_toNat {width : Nat} (b : BitVec width) :
    0 ≤ (b.toNat : Int) ∧ (b.toNat : Int) ≤ 2 ^ width - 1 := by
  have among : (b.toNat : Int) ∈ numbers [b] := List.mem_cons_self
  exact range_of_mem_numbers among

/-- The cells of a picture are on or off. -/
theorem range_cells (p : Picture) :
    p.cells.toList.length = 2048 ∧ ∀ c ∈ p.cells.toList, c = Window.cellOn ∨ c = 0 := by
  refine ⟨p.size_cells, fun c hc => ?_⟩
  rw [Picture.toList_cells] at hc
  -- A cell is that of a bit of a row.
  obtain ⟨row, -, hc⟩ := List.mem_flatMap.mp hc
  obtain ⟨x, -, rfl⟩ := List.mem_map.mp hc
  cases row.getMsbD x
  · exact .inr rfl
  · exact .inl rfl

/-- The state of a machine is in range. -/
theorem inRange_loose (m : Machine ρ) : m.loose.InRange where
  memory := range_vector m.memory.bytes
  registers := range_vector m.registers.entries
  index := range_toNat m.index
  pc := range_toNat m.pc
  operand := range_toNat m.operand
  slots := range_vector m.stack.slots
  depth := by
    have := m.stack.depth.isLt
    show (0 : Int) ≤ m.stack.depth.val ∧ (m.stack.depth.val : Int) ≤ 16
    omega
  delay := range_toNat m.delay
  sound := range_toNat m.sound
  cells := range_cells m.picture
  keys := Vector.length_toList

end Loose

/-! ### Faults -/

/-- A fault among those of all operations is one of the operation. -/
theorem Outcome.widen_eq_error {ρ ε α : Type} {r : Outcome ρ ε α} {fault : ε → Operation.Fault}
    {reply : α → Operation.Reply} {e : Operation.Fault}
    (failed : (r.widen fault reply).result = .error e) :
    ∃ t, r.result = .error t ∧ e = fault t := by
  obtain ⟨machine, notices, result⟩ := r
  cases result with
  | ok a => cases failed
  | error t => exact ⟨t, rfl, (Except.error.inj failed).symm⟩

namespace Machine

variable {ρ : Type} [RandomSource ρ]

/-- A word that stops the machine is unknown, and the machine is strict. -/
theorem execute_eq_error {m : Machine ρ} {w : Word} {t : Trap}
    (failed : (m.execute w).result = .error t) : m.strict = true ∧ w.IsUnknown ∧ t = ⟨w⟩ := by
  rw [result_execute] at failed
  split at failed
  · next stops =>
    exact ⟨stops.2, (Instruction.decode?_eq_none_iff w).mp stops.1, (Except.error.inj failed).symm⟩
  · cases failed

/-- An operation fails where a word stops the machine or a file cannot be read. -/
theorem apply_eq_error {m : Machine ρ} {operation : Operation} {e : Operation.Fault}
    (failed : (m.apply operation).result = .error e) :
    (m.strict = true ∧ ∃ w, m.word? operation = some w ∧ w.IsUnknown ∧ e = .trap ⟨w⟩)
      ∨ ∃ path reason, operation = .loadContents path (.error reason)
        ∧ e = .load ⟨path, reason⟩ := by
  cases operation with
  | cycle =>
    obtain ⟨t, stopped, rfl⟩ := Outcome.widen_eq_error failed
    rw [result_cycle] at stopped
    obtain ⟨strict, unknown, rfl⟩ := execute_eq_error stopped
    exact .inl ⟨strict, m.fetch, rfl, unknown, rfl⟩
  | execute operand =>
    obtain ⟨t, stopped, rfl⟩ := Outcome.widen_eq_error failed
    obtain ⟨strict, unknown, rfl⟩ := execute_eq_error stopped
    exact .inl ⟨strict, Word.ofInt operand, rfl, unknown, rfl⟩
  | loadContents path contents =>
    cases contents with
    | ok program => cases failed
    | error reason => exact .inr ⟨path, reason, rfl, (Except.error.inj failed).symm⟩
  | load program => cases failed
  | setKey key down => cases failed
  | tick => cases failed
  | reset => cases failed

end Machine

/-! ### Runs -/

namespace Loose

variable {ρ : Type} [RandomSource ρ]

/-- An operation on the state of a machine fails where the operation on the machine
    does. -/
theorem operate_eq_error {m : Machine ρ} {operation : Operation} {fault : Fault}
    {left : Loose ρ} (failed : operate operation m.loose = .error fault left) :
    ∃ e, (m.apply operation).result = .error e ∧ fault = faultOf e := by
  rw [operate_loose, resultOf] at failed
  split at failed
  · cases failed
  · next e stopped => exact ⟨e, stopped, (EStateM.Result.error.inj failed).1.symm⟩

/-- **No run of the loose machine leaves the ranges or fails by itself.**  After any
    operations, failed ones included, every list has its length and every number is in
    its range, whatever the random numbers are, and the state is that of the machine
    after the same operations.  An operation fails only where a strict machine executes
    an unknown word or where the file at a path cannot be read: never because of a place
    that a list does not have, a value that is no byte, or a key without a routine.  A
    text with a NUL, and no other one, is not a path at all and is refused as such. -/
theorem every_run_stays_in_range (strict : Bool) (random : ρ) (operations : List Operation) :
    let m := (Machine.new strict random).after operations
    let s := (Loose.new strict random).after operations
    s.InRange
      ∧ s = m.loose
      ∧ (∀ operation fault left, operate operation s = .error fault left →
        (strict = true ∧ ∃ w, m.word? operation = some w ∧ w.IsUnknown ∧ fault = .trap w.toNat)
          ∨ (∃ path reason, operation = .loadContents path (.error reason)
            ∧ reason ≠ .noPath ∧ fault = .unreadable path reason)
          ∨ ∃ text, operation = .loadContents text (.error .noPath) ∧ fault = .noPath text)
      ∧ ∀ (files : FileTree) (path : String),
        files.read path = .error .noPath ↔ '\x00' ∈ path.toList := by
  intro m s
  have same : s = m.loose := by
    rw [← after_loose, loose_new]
  refine ⟨same ▸ inRange_loose m, same, fun operation fault left failed => ?_,
    FileTree.read_eq_noPath_iff⟩
  rw [same] at failed
  obtain ⟨e, stopped, rfl⟩ := operate_eq_error failed
  obtain ⟨strictMachine, w, executed, unknown, rfl⟩ | ⟨path, reason, rfl, rfl⟩ :=
    Machine.apply_eq_error stopped
  -- A trap: nothing in the run has changed the strictness.
  · have kept : m.strict = strict := Machine.strict_after _ operations
    exact .inl ⟨kept ▸ strictMachine, w, executed, unknown, rfl⟩
  -- A program that was not loaded: its file, or its path.
  · cases reason with
    | noPath => exact .inr (.inr ⟨path, rfl, rfl⟩)
    | refused text => exact .inr (.inl ⟨path, _, rfl, nofun, rfl⟩)

end Loose

end ChipEight
