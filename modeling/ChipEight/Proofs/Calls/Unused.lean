import ChipEight.Proofs.Calls.Replay
import ChipEight.Proofs.Replacement

namespace ChipEight

/-!
# Unused slots of the call stack

A return leaves its address in the slot that it frees.

* `Machine.SameCalls` — two machines that differ at most in what such slots hold;
* `Machine.lockstep_sameCalls` — no part of an operation tells them apart;
* `Machine.answers_of_sameCalls` — hence no run does.
-/

namespace Machine

variable {ρ : Type}

/-- Two machines that differ at most in what the unused slots of their call stacks
    hold. -/
def SameCalls (m n : Machine ρ) : Prop :=
  ∃ stack : CallStack, stack.live = m.stack.live ∧ n = m.withStack stack

/-- A machine differs nowhere from itself. -/
theorem SameCalls.refl (m : Machine ρ) : SameCalls m m := ⟨m.stack, rfl, rfl⟩

/-- Giving both the same memory makes no difference between them. -/
theorem SameCalls.withMemory {m n : Machine ρ} (same : SameCalls m n) (memory : Memory) :
    SameCalls (m.withMemory memory) (n.withMemory memory) := by
  obtain ⟨stack, live, rfl⟩ := same
  exact ⟨stack, live, rfl⟩

variable [RandomSource ρ]

/-- An instruction does not tell such machines apart. -/
theorem SameCalls.perform {m n : Machine ρ} (same : SameCalls m n) (i : Instruction) :
    SameCalls (m.perform i) (n.perform i) := by
  obtain ⟨stack, live, rfl⟩ := same
  -- A call and a return go by the return addresses, which are the same; nothing else looks at
  -- the stack.
  by_cases call : ∃ target, i = .call target
  · obtain ⟨target, rfl⟩ := call
    by_cases room : m.stack.live.length < CallStack.capacity
    · obtain ⟨s, hs, performed⟩ := perform_call_of_room m target room
      obtain ⟨t, ht, performed'⟩ :=
        perform_call_of_room (m.withStack stack) target (live ▸ room)
      rw [performed, performed']
      refine ⟨t, ?_, rfl⟩
      rw [ht, hs]
      exact congrArg (· ++ [m.pc]) live
    · rw [perform_call_of_full m target room,
        perform_call_of_full (m.withStack stack) target (live ▸ room)]
      exact ⟨stack, live, rfl⟩
  · by_cases ret : i = .ret
    · subst ret
      rcases List.eq_nil_or_concat m.stack.live with none | ⟨calls, last, some⟩
      · rw [perform_ret_of_empty m none,
          perform_ret_of_empty (m.withStack stack) (live.trans none)]
        exact ⟨stack, live, rfl⟩
      · rw [List.concat_eq_append] at some
        obtain ⟨s, hs, performed⟩ := perform_ret_of_last m some
        obtain ⟨t, ht, performed'⟩ :=
          perform_ret_of_last (m.withStack stack) (live.trans some)
        rw [performed, performed']
        exact ⟨t, ht.trans hs.symm, rfl⟩
    · have notCall : ∀ target, i ≠ .call target := fun target e => call ⟨target, e⟩
      have unseen : Replacement.Unseen { stack := some stack } m i :=
        { calls := fun moves => absurd moves (not_or.mpr ⟨ret, call⟩)
          draws := fun _ _ _ => rfl
          tested := fun c _ => holds_replace m rfl c
          lowest := fun _ _ => rfl }
      have kept := (framed_perform m i).stack notCall ret
      exact ⟨stack, live.trans (congrArg CallStack.live kept.symm), perform_replace unseen⟩

/-- A word does not tell such machines apart. -/
theorem SameCalls.execute {m n : Machine ρ} (same : SameCalls m n) (w : Word) :
    SameOutcome SameCalls (m.execute w) (n.execute w) := by
  obtain ⟨stack, live, rfl⟩ := same
  have noted : SameCalls (m.noting w) ((m.withStack stack).noting w) := ⟨stack, live, rfl⟩
  have depth := (CallStack.depth_eq_iff stack m.stack).mpr (congrArg List.length live)
  cases known : Instruction.decode? w with
  | some i =>
    have told : ((m.withStack stack).noting w).mishap? i = (m.noting w).mishap? i :=
      mishap?_replace (m.noting w) (r := { stack := some stack }) depth i
    rw [execute_of_decode known, execute_of_decode known]
    refine ⟨?_, rfl, noted.perform i⟩
    exact congrArg (fun mishap => Notice.executing m.pc w :: mishap.toList) told.symm
  | none =>
    cases strict : m.strict
    · rw [execute_of_skip known strict, execute_of_skip known (m := m.withStack stack) strict]
      exact ⟨rfl, rfl, noted⟩
    · rw [execute_of_trap known strict, execute_of_trap known (m := m.withStack stack) strict]
      exact ⟨rfl, rfl, noted⟩

/-- **Unused slots are never seen.** No part of an operation tells apart two machines
    that differ only in their unused slots. -/
theorem lockstep_sameCalls : Lockstep (ρ := ρ) SameCalls (fun _ _ _ => True) where
  fetch := by
    rintro m _ ⟨stack, live, rfl⟩
    rfl
  fetched := by
    rintro m _ ⟨stack, live, rfl⟩
    exact ⟨stack, live, rfl⟩
  execute same _ := same.execute _
  tick := by
    rintro m _ ⟨stack, live, rfl⟩
    exact ⟨stack, live, rfl⟩
  place := by
    rintro m _ ⟨stack, live, rfl⟩ program
    exact SameCalls.withMemory ⟨stack, live, rfl⟩ _
  setKey := by
    rintro m _ ⟨stack, live, rfl⟩ key down
    exact ⟨stack, live, rfl⟩
  reset := by
    rintro m _ ⟨stack, live, rfl⟩
    exact .refl (new m.strict m.random)

/-- Hence two such machines give the same answers in every run. -/
theorem answers_of_sameCalls {m n : Machine ρ} (same : SameCalls m n)
    (operations : List Operation) :
    m.answers operations = n.answers operations
      ∧ SameCalls (m.after operations) (n.after operations) :=
  lockstep_sameCalls.answers same operations fun _ _ _ _ => trivial

end Machine

end ChipEight
