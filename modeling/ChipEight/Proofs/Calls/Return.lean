import ChipEight.Proofs.Calls.Replay

namespace ChipEight

/-!
# Returning from a call

* `Machine.pc_execute_call`, `Machine.pc_execute_ret` — where a call and a return go on;
* `Machine.prefix_live_after` — what lies on the stack stays there as long as the run does
  not come back to the level below;
* `Machine.pc_of_return` — what brings the stack back to that level is the return to the
  address that lay there.
-/

namespace Machine

variable {ρ : Type} [RandomSource ρ]

/-! ### Where a call and a return go on -/

/-- A call goes on at its target if there is room, and is passed over otherwise. -/
theorem pc_execute_call (m : Machine ρ) {w : Word} (call : w.family = 0x2) :
    (m.execute w).machine.pc
      = if m.stack.live.length < CallStack.capacity then w.nnn.setWidth 16 else m.pc := by
  rw [execute_of_decode ((Instruction.decode?_eq_call_iff w w.nnn).mpr ⟨call, rfl⟩)]
  by_cases room : m.stack.live.length < CallStack.capacity
  · obtain ⟨stack, _, performed⟩ := perform_call_of_room (m.noting w) w.nnn room
    rw [if_pos room, performed]
  · rw [if_neg room, perform_call_of_full (m.noting w) w.nnn room]
    rfl

/-- A return goes on at the last address, and is passed over without one. -/
theorem pc_execute_ret (m : Machine ρ) {w : Word} (ret : w = 0x00EE) :
    (m.execute w).machine.pc = m.stack.live.getLast?.getD m.pc := by
  rw [execute_of_decode ((Instruction.decode?_eq_ret_iff w).mpr ret)]
  rcases List.eq_nil_or_concat m.stack.live with none | ⟨calls, last, some⟩
  · rw [perform_ret_of_empty (m.noting w) none, none]
    rfl
  · rw [List.concat_eq_append] at some
    obtain ⟨stack, _, performed⟩ := perform_ret_of_last (m.noting w) some
    rw [performed, some, List.getLast?_concat]
    rfl

end Machine

/-! ### Returning from a call -/

namespace Calls

/-- What lies on the stack stays there, unless a reset or a return takes it away. -/
theorem prefix_follow {calls stack : List Word} {back : Word} (happening : Happening)
    (under : calls ++ [back] <+: stack) (noReset : happening ≠ .reset)
    (above : (follow stack happening).length ≠ calls.length) :
    calls ++ [back] <+: follow stack happening := by
  cases happening with
  | reset => exact absurd rfl noReset
  | executed address word =>
    by_cases call : word.family = 0x2
    · rw [follow, if_pos call]
      split
      · exact under.trans (List.prefix_append stack [address + 2])
      · exact under
    · by_cases ret : word = 0x00EE
      · rw [follow, if_neg call, if_pos ret] at above ⊢
        obtain ⟨more, rfl⟩ := under
        by_cases last : more = []
        · -- The return would take `back` itself.
          rw [last, List.append_nil, List.dropLast_concat] at above
          exact absurd rfl above
        · rw [List.dropLast_append_of_ne_nil last]
          exact List.prefix_append _ _
      · rw [follow, if_neg call, if_neg ret]
        exact under

/-- Of the words, only a return makes the stack shorter. -/
theorem eq_ret_of_length_follow_lt {stack : List Word} {address word : Word}
    (shorter : (follow stack (.executed address word)).length < stack.length) :
    word = 0x00EE ∧ follow stack (.executed address word) = stack.dropLast := by
  by_cases call : word.family = 0x2
  · rw [follow, if_pos call] at shorter
    split at shorter
    · rw [List.length_append] at shorter
      omega
    · exact absurd shorter (Nat.lt_irrefl _)
  · by_cases ret : word = 0x00EE
    · exact ⟨ret, by rw [follow, if_neg call, if_pos ret]⟩
    · rw [follow, if_neg call, if_neg ret] at shorter
      exact absurd shorter (Nat.lt_irrefl _)

end Calls

namespace Machine

variable {ρ : Type} [RandomSource ρ] {m : Machine ρ} {calls : List Word} {back : Word}
  {operation : Operation}

/-- One operation leaves alone what lies on the stack, unless it takes it away. -/
theorem prefix_live_apply (under : calls ++ [back] <+: m.stack.live)
    (noReset : operation ≠ .reset)
    (above : (m.apply operation).machine.stack.live.length ≠ calls.length) :
    calls ++ [back] <+: (m.apply operation).machine.stack.live := by
  rw [live_apply] at above ⊢
  cases operation with
  | cycle => exact Calls.prefix_follow (.executed _ _) under nofun above
  | execute operand => exact Calls.prefix_follow (.executed _ _) under nofun above
  | reset => exact absurd rfl noReset
  | _ => exact under

/-- A run leaves alone what lies on the stack, as long as it does not come back to the
    level below. -/
theorem prefix_live_after {operations : List Operation}
    (under : calls ++ [back] <+: m.stack.live) (noReset : .reset ∉ operations)
    (above : ∀ k ≤ operations.length,
      (m.after (operations.take k)).stack.live.length ≠ calls.length) :
    calls ++ [back] <+: (m.after operations).stack.live := by
  induction operations generalizing m with
  | nil => exact under
  | cons operation operations ih =>
    -- The first operation is the run of length one, which does not come back either.
    have first : operation ≠ .reset := fun e => noReset (e ▸ List.mem_cons_self)
    have next := prefix_live_apply under first (above 1 (by simp))
    refine ih next (fun h => noReset (List.mem_cons_of_mem _ h)) fun k hk => ?_
    exact above (k + 1) (by simpa using hk)

/-- A word that shortens the stack to below a return address is the return to it. -/
theorem pc_execute_of_shorter {w : Word} (under : calls ++ [back] <+: m.stack.live)
    (returned : (m.execute w).machine.stack.live.length = calls.length) :
    w = 0x00EE ∧ (m.execute w).machine.pc = back := by
  have longer : calls.length + 1 ≤ m.stack.live.length := by
    simpa only [List.length_append, List.length_singleton] using under.length_le
  rw [live_execute] at returned
  -- The stack was longer than `calls` and is not any more, so the word was a return.
  obtain ⟨ret, popped⟩ := Calls.eq_ret_of_length_follow_lt
    (show (Calls.follow m.stack.live (.executed m.here w)).length < _ by omega)
  rw [popped, List.length_dropLast] at returned
  -- It took one address away, so `back` was the last one.
  have whole : calls ++ [back] = m.stack.live := under.eq_of_length (by
    rw [List.length_append, List.length_singleton]
    omega)
  refine ⟨ret, ?_⟩
  rw [pc_execute_ret m ret, ← whole, List.getLast?_concat]
  rfl

/-- **Returning.** An operation that brings the stack back to below a return address is
    the return to it, unless it is a reset. -/
theorem pc_of_return (under : calls ++ [back] <+: m.stack.live) (noReset : operation ≠ .reset)
    (returned : (m.apply operation).machine.stack.live.length = calls.length) :
    m.word? operation = some 0x00EE ∧ (m.apply operation).machine.pc = back := by
  have longer : calls.length + 1 ≤ m.stack.live.length := by
    simpa only [List.length_append, List.length_singleton] using under.length_le
  cases operation with
  | cycle =>
    have shorter : (m.fetched.execute m.fetch).machine.stack.live.length = calls.length := by
      rw [← (stack_cycle m).1]
      exact returned
    obtain ⟨ret, pc⟩ := pc_execute_of_shorter (m := m.fetched) under shorter
    exact ⟨congrArg some ret, (stack_cycle m).2.trans pc⟩
  | execute operand =>
    obtain ⟨ret, pc⟩ := pc_execute_of_shorter under returned
    exact ⟨congrArg some ret, pc⟩
  | reset => exact absurd rfl noReset
  | _ =>
    rw [live_apply] at returned
    simp only [happening?, Option.toList_none, List.foldl_nil] at returned
    omega

end Machine

end ChipEight
