import ChipEight.Proofs.Calls.Replay
import ChipEight.Proofs.Cycles
import ChipEight.Proofs.Numerals
import ChipEight.Proofs.Strictness

namespace ChipEight

/-!
# What a run complains of

A lenient machine leaves out a word that names no instruction, a call without room on the
stack and a return without an address.  The log says so, with the address of the word.

* `Record.complaints` — the warnings and worse of a log;
* `Machine.complaint?` — what a cycle complains of, told by the word, the program counter and
  the depth of the stack that it meets;
* `Machine.complaints_cycle` — the log of a cycle complains of that and of nothing else;
* `Machine.Ignores` — a cycle that leaves its instruction undone;
* `Machine.isSome_complaint?_iff`, `Machine.machine_of_ignores` — these cycles are the ones with
  a complaint, and do nothing but move on;
* `Machine.log_is_a_faithful_trace` — hence the log of a run complains of the cycles that ignore
  their instructions, in their order.
-/

/-! ### Records -/

namespace Notice

/-- The record of a word left out, with the word and its address. -/
theorem record_skipped (w address : Word) :
    (skipped w address).record
      = ⟨.warning, "Unknown op-code " ++ w.hex ++ " at " ++ address.hex ++ ", skipping"⟩ := by
  rw [← Word.text_toNat, ← Word.text_toNat]
  rfl

/-- The record of a call refused, with its address and its target. -/
theorem record_overflow (address w : Word) :
    (overflow address w.nnn).record
      = ⟨.error, "Stack overflow at " ++ address.hex ++ ", ignoring call to " ++ w.hexTarget⟩ := by
  rw [← Word.text_toNat, ← Word.text_nnn]
  rfl

/-- The record of a return refused, with its address. -/
theorem record_underflow (address : Word) :
    (underflow address).record
      = ⟨.error, "Stack underflow at " ++ address.hex ++ ", ignoring return"⟩ := by
  rw [← Word.text_toNat]
  rfl

end Notice

/-- The records that are warnings or worse. -/
def Record.complaints (log : List Record) : List Record := log.filter (.warning ≤ ·.level)

/-- The complaints of a log in two parts. -/
theorem Record.complaints_append (first second : List Record) :
    complaints (first ++ second) = complaints first ++ complaints second :=
  List.filter_append first second

/-- The trace of a word is no complaint. -/
theorem Record.complaints_executing (pc operand : Word) (log : List Record) :
    complaints ((Notice.executing pc operand).record :: log) = complaints log := by
  have harmless : ¬ Level.warning ≤ Level.debug := by decide
  unfold complaints
  exact List.filter_cons_of_neg (by rw [decide_eq_true_eq]; exact harmless)

/-- A notice that is serious enough is one. -/
theorem Record.complaints_singleton {n : Notice} (serious : .warning ≤ n.level) :
    complaints [n.record] = [n.record] := by
  unfold complaints
  rw [List.filter_cons_of_pos (by rw [decide_eq_true_eq]; exact serious), List.filter_nil]

namespace Machine

variable {ρ : Type}

/-! ### What the stack refuses -/

/-- A call is refused on a full stack. -/
theorem mishap?_call (m : Machine ρ) (target : Address) :
    m.mishap? (.call target)
      = if m.stack.depth.val = 16 then some (.overflow m.here target) else none := by
  simp [mishap?, CallStack.isFull, CallStack.capacity]

/-- A return is refused on an empty one. -/
theorem mishap?_ret (m : Machine ρ) :
    m.mishap? .ret = if m.stack.depth.val = 0 then some (.underflow m.here) else none := by
  simp [mishap?, CallStack.isEmpty]

/-- The stack refuses nothing else. -/
theorem mishap?_eq_none (m : Machine ρ) {i : Instruction} (notCall : ∀ target, i ≠ .call target)
    (notRet : i ≠ .ret) : m.mishap? i = none := by
  cases i with
  | call target => exact absurd rfl (notCall target)
  | ret => exact absurd rfl notRet
  | _ => rfl

/-- What the stack refuses is worth a complaint. -/
theorem warning_le_of_mishap? {m : Machine ρ} {i : Instruction} {n : Notice}
    (refused : m.mishap? i = some n) : .warning ≤ n.level := by
  unfold mishap? at refused
  split at refused
  · split at refused
    · obtain rfl := Option.some.inj refused
      exact (by decide : Level.warning ≤ Level.error)
    · cases refused
  · split at refused
    · obtain rfl := Option.some.inj refused
      exact (by decide : Level.warning ≤ Level.error)
    · cases refused
  · cases refused

/-! ### The complaint of a cycle -/

/-- What the log says of a cycle that meets this machine, if the machine leaves its
    instruction out.  The address is that of the program counter before the cycle moves it. -/
def complaint? (m : Machine ρ) : Option Record :=
  if m.fetch.IsUnknown then
    some ⟨.warning, "Unknown op-code " ++ m.fetch.hex ++ " at " ++ m.pc.hex ++ ", skipping"⟩
  else if m.fetch.family = 0x2 ∧ m.stack.depth.val = 16 then
    some ⟨.error,
      "Stack overflow at " ++ m.pc.hex ++ ", ignoring call to " ++ m.fetch.hexTarget⟩
  else if m.fetch = 0x00EE ∧ m.stack.depth.val = 0 then
    some ⟨.error, "Stack underflow at " ++ m.pc.hex ++ ", ignoring return"⟩
  else none

/-- Of a word that names no instruction the machine says that it is left out. -/
theorem complaint?_of_isUnknown {m : Machine ρ} (unknown : m.fetch.IsUnknown) :
    m.complaint? = some (Notice.skipped m.fetch m.pc).record := by
  rw [complaint?, if_pos unknown, Notice.record_skipped]

/-- Of any other word it says what the stack refuses of the instruction. -/
theorem complaint?_of_decode {m : Machine ρ} {i : Instruction}
    (known : Instruction.decode? m.fetch = some i) :
    m.complaint? = (m.advanced.mishap? i).map Notice.record := by
  have isKnown : ¬ m.fetch.IsUnknown := by
    rw [← Instruction.decode?_eq_none_iff, known]
    exact Option.some_ne_none i
  have depth : m.advanced.stack.depth = m.stack.depth := rfl
  rw [complaint?, if_neg isKnown]
  -- The word is a call, the return, or neither of the two.
  by_cases call : m.fetch.family = 0x2
  · obtain rfl : .call m.fetch.nnn = i := by
      rw [(Instruction.decode?_eq_call_iff m.fetch m.fetch.nnn).mpr ⟨call, rfl⟩] at known
      exact Option.some.inj known
    have notRet : m.fetch ≠ 0x00EE := by
      intro ret
      rw [ret] at call
      exact absurd call (by decide)
    rw [mishap?_call, depth, here_advanced]
    by_cases full : m.stack.depth.val = 16
    · rw [if_pos ⟨call, full⟩, if_pos full, Option.map_some, Notice.record_overflow]
    · rw [if_neg fun h => full h.2, if_neg fun h => notRet h.1, if_neg full, Option.map_none]
  · rw [if_neg fun h => call h.1]
    by_cases ret : m.fetch = 0x00EE
    · obtain rfl : .ret = i := by
        rw [(Instruction.decode?_eq_ret_iff m.fetch).mpr ret] at known
        exact Option.some.inj known
      rw [mishap?_ret, depth, here_advanced]
      by_cases empty : m.stack.depth.val = 0
      · rw [if_pos ⟨ret, empty⟩, if_pos empty, Option.map_some, Notice.record_underflow]
      · rw [if_neg fun h => empty h.2, if_neg empty, Option.map_none]
    · rw [if_neg fun h => ret h.1, mishap?_eq_none, Option.map_none]
      · rintro target rfl
        exact call ((Instruction.decode?_eq_call_iff m.fetch target).mp known).1
      · rintro rfl
        exact ret ((Instruction.decode?_eq_ret_iff m.fetch).mp known)

variable [RandomSource ρ]

/-- **One cycle** of a lenient machine complains of nothing but its own instruction. -/
theorem complaints_cycle {m : Machine ρ} (lenient : m.strict = false) :
    Record.complaints (m.cycle.notices.map Notice.record) = m.complaint?.toList := by
  cases known : Instruction.decode? m.fetch with
  | none =>
    have unknown := (Instruction.decode?_eq_none_iff m.fetch).mp known
    rw [cycle_of_skip known lenient, complaint?_of_isUnknown unknown, List.map_cons, List.map_cons,
      Record.complaints_executing, List.map_nil]
    exact Record.complaints_singleton (by decide : Level.warning ≤ Level.warning)
  | some i =>
    rw [cycle_of_decode known, complaint?_of_decode known, List.map_cons,
      Record.complaints_executing]
    cases refused : m.advanced.mishap? i with
    | none => rfl
    | some n => exact Record.complaints_singleton (warning_le_of_mishap? refused)

/-! ### Ignoring an instruction -/

/-- The cycle leaves its instruction undone: its word names none, or it is a call or a return
    that leaves the return addresses as they were. -/
def Ignores (m : Machine ρ) : Prop :=
  m.fetch.IsUnknown
    ∨ ((m.fetch.family = 0x2 ∨ m.fetch = 0x00EE) ∧ m.cycle.machine.stack.live = m.stack.live)

instance (m : Machine ρ) : Decidable m.Ignores := inferInstanceAs (Decidable (_ ∨ _))

/-- A call leaves the return addresses as they were if the stack is full. -/
theorem live_cycle_call_eq_iff {m : Machine ρ} (call : m.fetch.family = 0x2) :
    m.cycle.machine.stack.live = m.stack.live ↔ m.stack.depth.val = 16 := by
  have followed : m.cycle.machine.stack.live
      = Calls.follow m.stack.live (.executed m.pc m.fetch) := live_apply m .cycle
  have bound := m.stack.depth.isLt
  rw [followed, Calls.follow, if_pos call, CallStack.length_live, CallStack.capacity]
  split
  · next room =>
    have longer : m.stack.live ++ [m.pc + 2] ≠ m.stack.live := by simp
    exact iff_of_false longer (Nat.ne_of_lt room)
  · next full => exact iff_of_true rfl (by omega)

/-- A return leaves them as they were if there are none. -/
theorem live_cycle_ret_eq_iff {m : Machine ρ} (ret : m.fetch = 0x00EE) :
    m.cycle.machine.stack.live = m.stack.live ↔ m.stack.depth.val = 0 := by
  have followed : m.cycle.machine.stack.live
      = Calls.follow m.stack.live (.executed m.pc m.fetch) := live_apply m .cycle
  have notCall : ¬ m.fetch.family = 0x2 := by
    rw [ret]
    decide
  rw [followed, Calls.follow, if_neg notCall, if_pos ret, ← CallStack.length_live]
  constructor
  · intro same
    have shorter := congrArg List.length same
    rw [List.length_dropLast] at shorter
    omega
  · intro empty
    rw [List.length_eq_zero_iff.mp empty, List.dropLast_nil]

/-- A cycle ignores its instruction if its word names none, or if it is a call on a full stack
    or a return on an empty one. -/
theorem ignores_iff (m : Machine ρ) :
    m.Ignores ↔ m.fetch.IsUnknown
      ∨ (m.fetch.family = 0x2 ∧ m.stack.depth.val = 16)
      ∨ (m.fetch = 0x00EE ∧ m.stack.depth.val = 0) := by
  rw [Ignores, or_and_right]
  exact or_congr Iff.rfl
    (or_congr (and_congr_right live_cycle_call_eq_iff) (and_congr_right live_cycle_ret_eq_iff))

/-- A cycle ignores its instruction exactly if there is a complaint. -/
theorem isSome_complaint?_iff (m : Machine ρ) : m.complaint?.isSome = true ↔ m.Ignores := by
  rw [ignores_iff, complaint?]
  split
  · next unknown => exact iff_of_true rfl (.inl unknown)
  · next known =>
    split
    · next full => exact iff_of_true rfl (.inr (.inl full))
    · next notFull =>
      split
      · next empty => exact iff_of_true rfl (.inr (.inr empty))
      · next notEmpty =>
        refine iff_of_false nofun ?_
        rintro (unknown | full | empty)
        · exact known unknown
        · exact notFull full
        · exact notEmpty empty

/-- A cycle that ignores its instruction moves past it and ticks the timers, nothing else. -/
theorem machine_of_ignores {m : Machine ρ} (lenient : m.strict = false) (ignored : m.Ignores) :
    m.cycle.machine = m.advanced.tick := by
  have depth : m.advanced.stack.live.length = m.stack.depth.val := CallStack.length_live m.stack
  rcases (ignores_iff m).mp ignored with unknown | ⟨call, full⟩ | ⟨ret, empty⟩
  · rw [cycle_of_skip ((Instruction.decode?_eq_none_iff m.fetch).mpr unknown) lenient]
  · have known := (Instruction.decode?_eq_call_iff m.fetch m.fetch.nnn).mpr ⟨call, rfl⟩
    have noRoom : ¬ m.advanced.stack.live.length < CallStack.capacity := by
      rw [depth, full]
      decide
    rw [cycle_of_decode known, perform_call_of_full m.advanced m.fetch.nnn noRoom]
  · have known := (Instruction.decode?_eq_ret_iff m.fetch).mpr ret
    have none : m.advanced.stack.live = [] := List.length_eq_zero_iff.mp (depth.trans empty)
    rw [cycle_of_decode known, perform_ret_of_empty m.advanced none]

/-! ### A run -/

/-- The records of a run, in their order. -/
def records (m : Machine ρ) (operations : List Operation) : List Record :=
  (m.answers operations).flatMap fun answer => answer.1.map Notice.record

/-- The complaints of a run are those of its cycles, in their order. -/
theorem complaints_records {m : Machine ρ} (lenient : m.strict = false)
    {operations : List Operation} (playing : ∀ operation ∈ operations, operation.IsPlaying) :
    Record.complaints (m.records operations) = (m.cycles operations).filterMap complaint? := by
  induction operations generalizing m with
  | nil => rfl
  | cons operation operations ih =>
    have later := fun {n : Machine ρ} (lenient : n.strict = false) =>
      ih lenient fun o ho => playing o (List.mem_cons_of_mem _ ho)
    cases operation with
    | cycle =>
      have here : m.records (.cycle :: operations)
          = m.cycle.notices.map Notice.record ++ m.cycle.machine.records operations := rfl
      have met : m.cycles (.cycle :: operations) = m :: m.cycle.machine.cycles operations := rfl
      rw [here, met, Record.complaints_append, complaints_cycle lenient,
        later ((strict_cycle m).trans lenient), List.filterMap_cons]
      cases m.complaint? <;> rfl
    | setKey key down => exact later (n := m.setKey key down) lenient
    | _ => exact absurd (playing _ List.mem_cons_self) id

/-- **The log is a faithful trace.**  The complaints of a run that a lenient machine plays are,
    in their order, those of the cycles that ignore their instructions: one for each of them,
    with the address that the word was fetched from, and none for any other cycle.  There are
    as many of them as cycles that ignore their instructions, and such a cycle moves past the
    instruction, ticks the timers and does nothing else. -/
theorem log_is_a_faithful_trace {m : Machine ρ} (lenient : m.strict = false)
    (operations : List Operation) (playing : ∀ operation ∈ operations, operation.IsPlaying) :
    Record.complaints (m.records operations) = (m.cycles operations).filterMap complaint?
      ∧ (Record.complaints (m.records operations)).length
        = (m.cycles operations).countP (fun c => decide c.Ignores)
      ∧ ∀ c ∈ m.cycles operations,
        (c.complaint?.isSome = true ↔ c.Ignores)
          ∧ (c.Ignores → c.cycle.machine = c.advanced.tick) := by
  have complaints := complaints_records lenient playing
  refine ⟨complaints, ?_, ?_⟩
  · rw [complaints, List.length_filterMap_eq_countP]
    apply List.countP_congr
    intro c _
    rw [isSome_complaint?_iff, decide_eq_true_eq]
  · intro c met
    exact ⟨isSome_complaint?_iff c, machine_of_ignores ((strict_of_mem_cycles met).trans lenient)⟩

/-- The theorem at a machine whose memory is blank, so that every word is unknown, and whose
    program counter wraps around between two cycles. -/
theorem words_around_the_end_are_named :
    let m := { new false (Wheel.ofList []) with memory := .blank, pc := 0xFFFF }
    Record.complaints (m.records [.cycle, .setKey 0x3 true, .cycle])
      = [⟨.warning, "Unknown op-code 0000 at FFFF, skipping"⟩,
        ⟨.warning, "Unknown op-code 0000 at 0001, skipping"⟩] := by
  intro m
  have lenient : m.strict = false := rfl
  have pc : m.pc = 0xFFFF := rfl
  have zero (a : Word) : m.memory.readWord a = 0 := by
    show Memory.blank.readWord a = 0
    simp [Memory.readWord, Memory.read, Memory.blank]
  -- From here on the 4096 bytes of this machine must not be looked at.
  clear_value m
  obtain ⟨complaints, -, ignored⟩ := log_is_a_faithful_trace lenient
    [.cycle, .setKey 0x3 true, .cycle] (by simp [Operation.IsPlaying])
  have met : m.cycles [.cycle, .setKey 0x3 true, .cycle]
      = [m, m.cycle.machine.setKey 0x3 true] := rfl
  have skipped {n : Machine Wheel} (word : n.fetch = 0) :
      n.complaint? = some (Notice.skipped 0 n.pc).record := by
    rw [complaint?_of_isUnknown (by rw [word]; decide), word]
  have first : m.complaint? = some (Notice.skipped 0 0xFFFF).record := by
    rw [skipped (zero m.pc), pc]
  -- The first word is left out, so the second cycle meets the machine two bytes further.
  obtain ⟨told, moved⟩ := ignored m (by rw [met]; exact List.mem_cons_self)
  have after : m.cycle.machine = m.advanced.tick := moved (told.mp (by rw [first]; rfl))
  have pc' : m.advanced.tick.pc = 0x0001 := by
    show m.pc + 2 = 0x0001
    rw [pc]
    decide
  have second : (m.cycle.machine.setKey 0x3 true).complaint?
      = some (Notice.skipped 0 0x0001).record := by
    rw [after, ← pc']
    exact skipped (zero m.advanced.tick.pc)
  rw [complaints, met, List.filterMap_cons_some first, List.filterMap_cons_some second,
    List.filterMap_nil]
  decide

end Machine

end ChipEight
