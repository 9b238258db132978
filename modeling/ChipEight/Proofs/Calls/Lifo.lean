import ChipEight.Proofs.Calls.Return
import ChipEight.Proofs.Calls.Unused

namespace ChipEight

/-!
# Last in, first out

The call stack of every run is a list of at most sixteen return addresses, which calls
make longer and returns make shorter at the same end.

* `Machine.pc_cycle_call`, `Machine.pc_cycle_ret` — where a cycle goes on that executes a
  call or a return;
* `Machine.return_of_depth` — the first operation after a call that brings the stack back
  to its depth is the return behind that call;
* `Machine.calls_are_last_in_first_out` — all of it, for every run.
-/

namespace Machine

variable {ρ : Type} [RandomSource ρ]

/-! ### Where a cycle goes on -/

/-- A cycle that executes a call goes on at its target if there is room, and behind the
    call otherwise. -/
theorem pc_cycle_call (m : Machine ρ) (call : m.fetch.family = 0x2) :
    m.cycle.machine.pc
      = if m.stack.live.length < CallStack.capacity then m.fetch.nnn.setWidth 16
        else m.pc + 2 := by
  rw [(stack_cycle m).2]
  exact pc_execute_call m.fetched call

/-- A cycle that executes a return goes on at the last return address, and behind the
    return without one. -/
theorem pc_cycle_ret (m : Machine ρ) (ret : m.fetch = 0x00EE) :
    m.cycle.machine.pc = m.stack.live.getLast?.getD (m.pc + 2) := by
  rw [(stack_cycle m).2]
  exact pc_execute_ret m.fetched ret

/-- A cycle that executes a call with room on the stack appends the address behind the
    call. -/
theorem live_cycle_call (m : Machine ρ) (call : m.fetch.family = 0x2)
    (room : m.stack.live.length < CallStack.capacity) :
    m.cycle.machine.stack.live = m.stack.live ++ [m.pc + 2] := by
  have applied : m.cycle.machine.stack.live
      = Calls.follow m.stack.live (.executed m.pc m.fetch) := live_apply m .cycle
  rw [applied, Calls.follow, if_pos call, if_pos room]

/-! ### Calls and their returns -/

/-- After a call, the first operation that brings the stack back to the depth before it
    is a return to behind the call, unless it is a reset. -/
theorem return_of_depth (m : Machine ρ) (call : m.fetch.family = 0x2)
    (room : m.stack.live.length < CallStack.capacity) (between : List Operation)
    (last : Operation) (noReset : .reset ∉ between) (lastNoReset : last ≠ .reset)
    (above : ∀ k ≤ between.length,
      (m.cycle.machine.after (between.take k)).stack.depth ≠ m.stack.depth)
    (returned : ((m.cycle.machine.after between).apply last).machine.stack.depth
      = m.stack.depth) :
    (m.cycle.machine.after between).word? last = some 0x00EE
      ∧ ((m.cycle.machine.after between).apply last).machine.pc = m.pc + 2 := by
  have called : m.stack.live ++ [m.pc + 2] <+: m.cycle.machine.stack.live :=
    ⟨[], by rw [List.append_nil, live_cycle_call m call room]⟩
  -- The address behind the call lies on the stack until the depth is that before the call.
  have under := prefix_live_after called noReset fun k hk same =>
    above k hk ((CallStack.depth_eq_iff _ _).mpr same)
  exact pc_of_return under lastNoReset ((CallStack.depth_eq_iff _ _).mp returned)

/-- **Calls are last in, first out.**  The stack of a run is the list of return addresses
    that its calls append and its returns take away, at most sixteen of them.  A call
    with room goes on at its target, a return with an address at that address, and any
    other one behind itself.  The first operation that brings the stack back to the depth
    before a call returns to behind it, and what the slots above the live ones hold makes
    no difference to anything later. -/
theorem calls_are_last_in_first_out (strict : Bool) (random : ρ)
    (operations : List Operation) :
    let m := (new strict random).after operations
    m.stack.live = Calls.replay ((new strict random).happenings operations)
      ∧ m.stack.live.length ≤ CallStack.capacity
      ∧ (m.fetch.family = 0x2 →
        m.cycle.machine.pc
          = if m.stack.live.length < CallStack.capacity then m.fetch.nnn.setWidth 16
            else m.pc + 2)
      ∧ (m.fetch = 0x00EE →
        m.cycle.machine.pc = m.stack.live.getLast?.getD (m.pc + 2))
      ∧ (m.fetch.family = 0x2 → m.stack.live.length < CallStack.capacity →
        ∀ (between : List Operation) (last : Operation), .reset ∉ between → last ≠ .reset →
          (∀ k ≤ between.length,
            (m.cycle.machine.after (between.take k)).stack.depth ≠ m.stack.depth) →
          ((m.cycle.machine.after between).apply last).machine.stack.depth = m.stack.depth →
          (m.cycle.machine.after between).word? last = some 0x00EE
            ∧ ((m.cycle.machine.after between).apply last).machine.pc = m.pc + 2)
      ∧ ∀ stack : CallStack, stack.live = m.stack.live →
        ∀ later : List Operation,
          m.answers later = (m.withStack stack).answers later
            ∧ ∃ stack' : CallStack, stack'.live = (m.after later).stack.live
              ∧ (m.withStack stack).after later = (m.after later).withStack stack' := by
  intro m
  refine ⟨live_after_new strict random operations, CallStack.length_live_le _,
    pc_cycle_call m, pc_cycle_ret m, return_of_depth m, fun stack same later => ?_⟩
  exact answers_of_sameCalls ⟨stack, same, rfl⟩ later

/-- After a call that found the stack empty, another call and two returns leave two
    addresses, one, and none. -/
theorem depth_of_nested (m : Machine ρ) (call : m.fetch.family = 0x2)
    (empty : m.stack.live = []) :
    (∀ k ≤ 2, (m.cycle.machine.after
        ([.execute 0x2300, .execute 0x00EE].take k)).stack.depth ≠ m.stack.depth)
      ∧ ((m.cycle.machine.after [.execute 0x2300, .execute 0x00EE]).apply
          (.execute 0x00EE)).machine.stack.depth = m.stack.depth := by
  have one : m.cycle.machine.stack.live = [m.pc + 2] := by
    rw [live_cycle_call m call (by rw [empty]; decide), empty]
    rfl
  simp only [ne_eq, CallStack.depth_eq_iff, empty]
  constructor
  · intro k hk
    rw [live_after, one]
    match k, hk with
    | 0, _ => exact nofun
    | 1, _ => exact nofun
    | 2, _ => exact nofun
  · rw [← after_concat, live_after, one]
    rfl

/-- A program that starts with a call of `0x206`. -/
theorem fetch_of_loaded_call :
    ((new false (Wheel.ofList [])).after [.load #[0x22, 0x06]]).fetch = 0x2206 := by
  rw [after_load, fetch_withMemory, memory_new, pc_new]
  simp [Memory.readWord, Memory.read_overlay, programStart]

/-- The theorem at a program that starts with a call, inside which another call returns
    first. -/
theorem nested_call_returns_behind :
    let m := (new false (Wheel.ofList [])).after [.load #[0x22, 0x06]]
    m.fetch.family = 0x2
      ∧ m.stack.live.length < CallStack.capacity
      ∧ (∀ k ≤ 2, (m.cycle.machine.after
          ([.execute 0x2300, .execute 0x00EE].take k)).stack.depth ≠ m.stack.depth)
      ∧ ((m.cycle.machine.after [.execute 0x2300, .execute 0x00EE]).apply
          (.execute 0x00EE)).machine.stack.depth = m.stack.depth
      ∧ ((m.cycle.machine.after [.execute 0x2300, .execute 0x00EE]).apply
          (.execute 0x00EE)).machine.pc = m.pc + 2 := by
  intro m
  -- Loading a program is no happening, so nothing is on the stack yet.
  obtain ⟨live, -, -, -, returned, -⟩ :=
    calls_are_last_in_first_out false (Wheel.ofList []) [.load #[0x22, 0x06]]
  have empty : m.stack.live = [] := live
  have room : m.stack.live.length < CallStack.capacity := by
    rw [empty]
    decide
  -- From here on the 4096 bytes of this machine must not be looked at.
  subst m
  have call := fetch_of_loaded_call.symm ▸ (by decide : Word.family 0x2206 = 0x2)
  obtain ⟨above, back⟩ := depth_of_nested _ call empty
  have behind := returned call room [.execute 0x2300, .execute 0x00EE] (.execute 0x00EE)
    (by simp) nofun above back
  exact ⟨call, room, above, back, behind.2⟩

end Machine

end ChipEight
