import ChipEight.Proofs.Decoding
import ChipEight.Proofs.Fields
import ChipEight.Proofs.History
import ChipEight.Proofs.Step

namespace ChipEight

/-!
# The call stack as a list

The call stack is sixteen slots and a depth; seen from outside it is a list of at most
sixteen return addresses.

* `Happening`, `Machine.happenings` — what a run did, as far as the stack is concerned:
  the words it executed, with their addresses, and the resets;
* `Calls.follow`, `Calls.replay` — the return addresses after a happening, and after all
  of them;
* `Machine.live_apply` — an operation does to the stack what `follow` says;
* `Machine.live_after_new` — hence the stack of any run is the replay of what happened.
-/

/-- What an operation did, as far as the call stack is concerned. -/
inductive Happening
  /-- The word at an address was executed. -/
  | executed (address word : Word)
  /-- The machine went back to the state without a program. -/
  | reset
deriving DecidableEq, Repr

namespace Calls

/-- The return addresses after a happening.  A call appends the address behind it if
    there is room, and a return takes the last address away if there is one. -/
def follow (calls : List Word) : Happening → List Word
  | .executed address word =>
    if word.family = 0x2 then
      if calls.length < CallStack.capacity then calls ++ [address + 2] else calls
    else if word = 0x00EE then calls.dropLast
    else calls
  | .reset => []

/-- The return addresses after a number of happenings. -/
def replay (happenings : List Happening) : List Word := happenings.foldl follow []

end Calls

/-! ### The stack as a list -/

namespace CallStack

/-- The slots in use are those of a stack of at most sixteen. -/
theorem length_live_le (s : CallStack) : s.live.length ≤ capacity := by
  have := s.depth.isLt
  rw [length_live, capacity]
  omega

/-- Pushing is refused exactly if the list has sixteen addresses. -/
theorem push?_eq_none_iff (s : CallStack) (a : Word) :
    s.push? a = none ↔ ¬ s.live.length < capacity := by
  rw [length_live, push?, capacity]
  split <;> simp_all

/-- Popping is refused exactly if the list is empty. -/
theorem pop?_eq_none_iff (s : CallStack) : s.pop? = none ↔ s.live = [] := by
  rw [← List.length_eq_zero_iff, length_live, pop?]
  split <;> simp_all
  omega

/-- Stacks are equally deep if they have as many return addresses. -/
theorem depth_eq_iff (s t : CallStack) : s.depth = t.depth ↔ s.live.length = t.live.length := by
  rw [length_live, length_live, Fin.ext_iff]

@[simp] theorem live_empty : empty.live = [] := rfl

end CallStack

namespace Machine

variable {ρ : Type}

/-- What an operation does, as far as the call stack is concerned. -/
def happening? (m : Machine ρ) : Operation → Option Happening
  | .cycle => some (.executed m.pc m.fetch)
  | .execute operand => some (.executed m.here (Word.ofInt operand))
  | .reset => some .reset
  | _ => none

/-- What a run does, as far as the call stack is concerned. -/
def happenings [RandomSource ρ] (m : Machine ρ) (operations : List Operation) :
    List Happening :=
  (m.history operations).filterMap fun p => p.1.happening? p.2

/-! ### One instruction -/

variable [RandomSource ρ]

/-- A call with room on the stack appends the program counter and goes on at its
    target. -/
theorem perform_call_of_room (m : Machine ρ) (target : Address)
    (room : m.stack.live.length < CallStack.capacity) :
    ∃ stack : CallStack, stack.live = m.stack.live ++ [m.pc]
      ∧ m.perform (.call target) = { m with stack := stack, pc := target.setWidth 16 } := by
  have accepted : m.stack.push? m.pc ≠ none := fun refused =>
    (CallStack.push?_eq_none_iff m.stack m.pc).mp refused room
  obtain ⟨stack, pushed⟩ := Option.ne_none_iff_exists'.mp accepted
  refine ⟨stack, CallStack.live_push? pushed, ?_⟩
  simp only [perform, pushed]

/-- A call without room does nothing. -/
theorem perform_call_of_full (m : Machine ρ) (target : Address)
    (full : ¬ m.stack.live.length < CallStack.capacity) : m.perform (.call target) = m := by
  simp only [perform, (CallStack.push?_eq_none_iff m.stack m.pc).mpr full]

/-- A return takes the last address away and goes on there. -/
theorem perform_ret_of_last (m : Machine ρ) {calls : List Word} {last : Word}
    (live : m.stack.live = calls ++ [last]) :
    ∃ stack : CallStack, stack.live = calls
      ∧ m.perform .ret = { m with stack := stack, pc := last } := by
  have accepted : m.stack.pop? ≠ none := fun refused => by
    rw [(CallStack.pop?_eq_none_iff m.stack).mp refused] at live
    simp at live
  obtain ⟨⟨address, stack⟩, popped⟩ := Option.ne_none_iff_exists'.mp accepted
  have split := (CallStack.live_pop? popped).symm.trans live
  obtain ⟨rest, same⟩ := List.append_inj' split rfl
  refine ⟨stack, rest, ?_⟩
  obtain rfl := List.singleton_inj.mp same
  simp only [perform, popped]

/-- A return without an address does nothing. -/
theorem perform_ret_of_empty (m : Machine ρ) (live : m.stack.live = []) :
    m.perform .ret = m := by
  simp only [perform, (CallStack.pop?_eq_none_iff m.stack).mpr live]

/-- The return addresses after a call. -/
theorem live_perform_call (m : Machine ρ) (target : Address) :
    (m.perform (.call target)).stack.live
      = if m.stack.live.length < CallStack.capacity then m.stack.live ++ [m.pc]
        else m.stack.live := by
  by_cases room : m.stack.live.length < CallStack.capacity
  · obtain ⟨stack, live, performed⟩ := perform_call_of_room m target room
    rw [if_pos room, performed]
    exact live
  · rw [if_neg room, perform_call_of_full m target room]

/-- The return addresses after a return. -/
theorem live_perform_ret (m : Machine ρ) :
    (m.perform .ret).stack.live = m.stack.live.dropLast := by
  rcases List.eq_nil_or_concat m.stack.live with none | ⟨calls, last, some⟩
  · rw [perform_ret_of_empty m none, none, List.dropLast_nil]
  · rw [List.concat_eq_append] at some
    obtain ⟨stack, live, performed⟩ := perform_ret_of_last m some
    rw [performed, some, List.dropLast_concat]
    exact live

/-! ### One operation -/

/-- Executing a word does to the stack what the replay says. -/
theorem live_execute (m : Machine ρ) (w : Word) :
    (m.execute w).machine.stack.live = Calls.follow m.stack.live (.executed m.here w) := by
  have behind : m.here + 2 = m.pc := BitVec.sub_add_cancel m.pc 2
  -- The replay tells three kinds of words apart: calls, the return, and all the others.
  by_cases call : w.family = 0x2
  · rw [execute_of_decode ((Instruction.decode?_eq_call_iff w w.nnn).mpr ⟨call, rfl⟩),
      Calls.follow, if_pos call, behind]
    exact live_perform_call (m.noting w) w.nnn
  · rw [Calls.follow, if_neg call]
    by_cases ret : w = 0x00EE
    · rw [execute_of_decode ((Instruction.decode?_eq_ret_iff w).mpr ret), if_pos ret]
      exact live_perform_ret (m.noting w)
    · rw [if_neg ret]
      cases known : Instruction.decode? w with
      | some i =>
        rw [execute_of_decode known]
        refine congrArg CallStack.live ((framed_perform (m.noting w) i).stack ?_ ?_)
        · rintro target rfl
          exact call ((Instruction.decode?_eq_call_iff w target).mp known).1
        · rintro rfl
          exact ret ((Instruction.decode?_eq_ret_iff w).mp known)
      | none =>
        cases strict : m.strict
        · rw [execute_of_skip known strict]
          rfl
        · rw [execute_of_trap known strict]
          rfl

/-- A tick moves neither the stack nor the program counter, so a cycle does to them what
    its word does. -/
theorem stack_cycle (m : Machine ρ) :
    m.cycle.machine.stack = (m.fetched.execute m.fetch).machine.stack
      ∧ m.cycle.machine.pc = (m.fetched.execute m.fetch).machine.pc := by
  rw [cycle_eq_ticked, ticked]
  split <;> exact ⟨rfl, rfl⟩

/-- **One operation** does to the stack what the replay says, and nothing if nothing
    happened. -/
theorem live_apply (m : Machine ρ) (operation : Operation) :
    (m.apply operation).machine.stack.live
      = (m.happening? operation).toList.foldl Calls.follow m.stack.live := by
  cases operation with
  | cycle =>
    have here : m.fetched.here = m.pc := BitVec.add_sub_cancel m.pc 2
    show m.cycle.machine.stack.live = Calls.follow m.stack.live (.executed m.pc m.fetch)
    rw [(stack_cycle m).1, live_execute, here]
    rfl
  | execute operand => exact live_execute m _
  | load program => exact congrArg CallStack.live (stack_withMemory m _)
  | loadContents path contents =>
    cases contents with
    | ok program => exact congrArg CallStack.live (stack_withMemory m _)
    | error reason => rfl
  | setKey key down => rfl
  | tick => rfl
  | reset => exact congrArg CallStack.live (stack_new m.strict m.random)

/-- Hence the stack of a run is the replay of what happened in it. -/
theorem live_after (m : Machine ρ) (operations : List Operation) :
    (m.after operations).stack.live
      = (m.happenings operations).foldl Calls.follow m.stack.live := by
  induction operations generalizing m with
  | nil => rfl
  | cons operation operations ih =>
    rw [after_cons, ih, live_apply]
    -- The operation adds at most one happening in front of those of the rest.
    show _ = (List.filterMap _ ((m, operation) :: _)).foldl _ _
    rw [List.filterMap_cons]
    cases m.happening? operation <;> rfl

/-- From a machine without a program on, the stack is the replay alone. -/
theorem live_after_new (strict : Bool) (random : ρ) (operations : List Operation) :
    ((new strict random).after operations).stack.live
      = Calls.replay ((new strict random).happenings operations) := by
  rw [live_after, stack_new, CallStack.live_empty, Calls.replay]

end Machine

end ChipEight
