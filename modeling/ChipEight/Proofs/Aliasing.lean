import ChipEight.Proofs.Calls.Replay

namespace ChipEight

/-!
# Addresses that alias

The memory has 4096 cells, while the program counter, the index register and the return
addresses are words of sixteen bits.  No program can tell two of them apart that address
the same cell.

* `Memory.cell_add`, `Memory.cell_sub` — addresses of one cell stay so when they are moved
  by the same amount, also where one of them wraps around;
* `Memory.readWord_congr`, `Memory.store_congr` — the memory knows cells only;
* `Machine.Aliasing` — two machines that differ at most in the four upper bits of the
  program counter, the index register and the return addresses in use;
* `Machine.Aliasing.perform`, `Machine.Aliasing.apply` — an instruction, and an operation,
  keeps them so;
* `Machine.aliases_cannot_be_told_apart` — hence every run gives the same results on both.
-/

namespace Memory

/-! ### Cells -/

/-- Addresses of one cell stay so when the same is added to both. -/
theorem cell_add {a b : Word} (same : cell a = cell b) (offset : Word) :
    cell (a + offset) = cell (b + offset) := by
  have : a.toNat % 4096 = b.toNat % 4096 := by rw [← val_cell, ← val_cell, same]
  ext
  rw [val_cell, val_cell, BitVec.toNat_add, BitVec.toNat_add]
  omega

/-- And when the same is taken off. -/
theorem cell_sub {a b : Word} (same : cell a = cell b) (offset : Word) :
    cell (a - offset) = cell (b - offset) := by
  rw [BitVec.sub_eq_add_neg, BitVec.sub_eq_add_neg]
  exact cell_add same _

/-- Addresses of one cell read the same byte. -/
theorem read_congr (m : Memory) {a b : Word} (same : cell a = cell b) : m.read a = m.read b := by
  simp only [read, same]

/-- They read the same word. -/
theorem readWord_congr (m : Memory) {a b : Word} (same : cell a = cell b) :
    m.readWord a = m.readWord b := by
  rw [readWord, readWord, m.read_congr same, m.read_congr (cell_add same 1)]

/-- They store bytes at the same places. -/
theorem store_congr (m : Memory) {a b : Word} (same : cell a = cell b) (bytes : List Byte) :
    m.store a bytes = m.store b bytes := by
  induction bytes generalizing m a b with
  | nil => rfl
  | cons byte bytes ih =>
    have first : m.write a byte = m.write b byte := by simp only [write, same]
    rw [store, store, first, ih _ (cell_add same 1)]

end Memory

namespace Machine

variable {ρ : Type}

/-- Two machines that differ at most in the four upper bits of the program counter, the
    index register and the return addresses in use. -/
structure Aliasing (m n : Machine ρ) : Prop where
  pc : Memory.cell n.pc = Memory.cell m.pc
  index : Memory.cell n.index = Memory.cell m.index
  stack : n.stack.live.map Memory.cell = m.stack.live.map Memory.cell
  memory : n.memory = m.memory := by rfl
  registers : n.registers = m.registers := by rfl
  delay : n.delay = m.delay := by rfl
  sound : n.sound = m.sound := by rfl
  picture : n.picture = m.picture := by rfl
  redraw : n.redraw = m.redraw := by rfl
  keypad : n.keypad = m.keypad := by rfl
  operand : n.operand = m.operand := by rfl
  strict : n.strict = m.strict := by rfl
  random : n.random = m.random := by rfl

namespace Aliasing

variable {m n : Machine ρ}

/-- The stacks are equally deep. -/
theorem length_live (same : Aliasing m n) : n.stack.live.length = m.stack.live.length := by
  rw [← List.length_map (f := Memory.cell), same.stack, List.length_map]

/-- The registers have the same values. -/
theorem reg (same : Aliasing m n) (x : Nibble) : n.reg x = m.reg x := by
  rw [Machine.reg, Machine.reg, same.registers]

/-- Giving a register the same value keeps the machines alike. -/
theorem setReg (same : Aliasing m n) (x : Nibble) (value : Byte) :
    Aliasing (m.setReg x value) (n.setReg x value) :=
  { same with registers := by rw [Machine.setReg, Machine.setReg, same.registers] }

/-- So does giving both the same memory. -/
theorem withMemory (same : Aliasing m n) (memory : Memory) :
    Aliasing (m.withMemory memory) (n.withMemory memory) :=
  { same with memory := rfl }

/-- So does a tick of the timers. -/
theorem tick (same : Aliasing m n) : Aliasing m.tick n.tick :=
  { same with
    delay := congrArg countDown same.delay
    sound := congrArg countDown same.sound }

/-- The bytes from the index register on are the same. -/
theorem read_index (same : Aliasing m n) (offset : Word) :
    n.memory.read (n.index + offset) = m.memory.read (m.index + offset) := by
  rw [same.memory]
  exact m.memory.read_congr (Memory.cell_add same.index offset)

/-- A sprite covers the same pixels. -/
theorem sprite (same : Aliasing m n) (x y rows : Nibble) :
    n.sprite x y rows = m.sprite x y rows := by
  simp only [Machine.sprite, same.reg, same.read_index]

/-- The condition of a skip holds on both or on neither. -/
theorem holds (same : Aliasing m n) (c : Condition) : c.holds n = c.holds m := by
  cases c <;> simp only [Condition.holds, same.reg, same.keypad]

/-- The next word is the same. -/
theorem fetch (same : Aliasing m n) : n.fetch = m.fetch := by
  rw [Machine.fetch, Machine.fetch, same.memory]
  exact m.memory.readWord_congr same.pc

variable [RandomSource ρ]

/-- A return takes away return addresses that alias, and goes on there. -/
theorem perform_ret (same : Aliasing m n) : Aliasing (m.perform .ret) (n.perform .ret) := by
  rcases List.eq_nil_or_concat m.stack.live with none | ⟨calls, last, some⟩
  · have none' : n.stack.live = [] := by
      rw [← List.length_eq_zero_iff, same.length_live, none, List.length_nil]
    rw [perform_ret_of_empty m none, perform_ret_of_empty n none']
    exact same
  · have ends := same.stack
    rw [some, List.concat_eq_append, List.map_append, List.map_eq_append_iff] at ends
    obtain ⟨calls', lasts, some', sameCalls, sameLast⟩ := ends
    rw [List.map_singleton, List.map_eq_singleton_iff] at sameLast
    obtain ⟨last', rfl, sameLast⟩ := sameLast
    obtain ⟨stack, live, performed⟩ := perform_ret_of_last m (some.trans List.concat_eq_append)
    obtain ⟨stack', live', performed'⟩ := perform_ret_of_last n some'
    rw [performed, performed']
    exact { same with pc := sameLast, stack := by rw [live, live', sameCalls] }

/-- A call finds room on both stacks or on neither, and appends return addresses that
    alias. -/
theorem perform_call (same : Aliasing m n) (target : Address) :
    Aliasing (m.perform (.call target)) (n.perform (.call target)) := by
  by_cases room : m.stack.live.length < CallStack.capacity
  · have room' : n.stack.live.length < CallStack.capacity := same.length_live ▸ room
    obtain ⟨stack, live, performed⟩ := perform_call_of_room m target room
    obtain ⟨stack', live', performed'⟩ := perform_call_of_room n target room'
    rw [performed, performed']
    refine { same with pc := rfl, stack := ?_ }
    rw [live, live', List.map_append, List.map_append, same.stack, List.map_singleton,
      List.map_singleton, same.pc]
  · have full' : ¬ n.stack.live.length < CallStack.capacity := same.length_live ▸ room
    rw [perform_call_of_full m target room, perform_call_of_full n target full']
    exact same

/-- **One instruction** keeps the machines alike.  It moves addresses that alias by the same
    amount, and whatever it computes from anything else is the same on both. -/
theorem perform (same : Aliasing m n) (i : Instruction) :
    Aliasing (m.perform i) (n.perform i) := by
  cases i with
  | ret => exact same.perform_ret
  | call target => exact same.perform_call target
  | jump target => exact { same with pc := rfl }
  | jumpFrom base =>
    simp only [Machine.perform, same.reg]
    exact { same with pc := rfl }
  | skip c =>
    simp only [Machine.perform, same.holds]
    split
    · exact { same with pc := Memory.cell_add same.pc 2 }
    · exact same
  | awaitKey x =>
    simp only [Machine.perform, Machine.awaitKey, same.keypad]
    split
    · exact same.setReg x _
    · exact { same with pc := Memory.cell_sub same.pc 2, keypad := rfl }
  | setIndex target => exact { same with index := rfl }
  | findDigit x =>
    simp only [Machine.perform, same.reg]
    exact { same with index := rfl }
  | addIndex x =>
    simp only [Machine.perform, same.reg]
    exact { same with index := Memory.cell_add same.index _ }
  | storeDecimal x =>
    simp only [Machine.perform, same.reg, same.memory]
    exact { same with memory := m.memory.store_congr same.index _ }
  | storeRegisters x =>
    simp only [Machine.perform, same.registers, same.memory]
    exact { same with memory := m.memory.store_congr same.index _, registers := rfl }
  | loadRegisters x =>
    simp only [Machine.perform, Machine.loadRegisters, same.read_index, same.reg]
    exact { same with registers := rfl }
  | draw x y rows =>
    simp only [Machine.perform, drawSprite, same.sprite, same.picture]
    exact { same.setReg _ _ with picture := rfl, redraw := rfl }
  | clear => exact { same with picture := rfl, redraw := rfl }
  | set x value => exact same.setReg x value
  | add x value =>
    simp only [Machine.perform, same.reg]
    exact same.setReg x _
  | arithmetic op x y =>
    simp only [Machine.perform, combine, same.reg]
    split
    · exact same.setReg x _
    · exact (same.setReg x _).setReg flagRegister _
  | random x mask =>
    simp only [Machine.perform, same.random]
    exact { same.setReg x _ with random := rfl }
  | readDelay x =>
    simp only [Machine.perform, same.delay]
    exact same.setReg x _
  | setDelay x =>
    simp only [Machine.perform, same.reg]
    exact { same with delay := rfl }
  | setSound x =>
    simp only [Machine.perform, same.reg]
    exact { same with sound := rfl }

/-! ### Words, cycles and runs -/

/-- Executing a word keeps the machines alike, and answers the same. -/
theorem execute (same : Aliasing m n) (w : Word) :
    (n.execute w).result = (m.execute w).result
      ∧ Aliasing (m.execute w).machine (n.execute w).machine := by
  have noted : Aliasing (m.noting w) (n.noting w) := { same with operand := rfl }
  refine ⟨by rw [result_execute, result_execute, same.strict], ?_⟩
  cases known : Instruction.decode? w with
  | some i =>
    rw [execute_of_decode known, execute_of_decode known]
    exact noted.perform i
  | none =>
    cases strict : m.strict with
    | false =>
      rw [execute_of_skip known strict, execute_of_skip known (same.strict.trans strict)]
      exact noted
    | true =>
      rw [execute_of_trap known strict, execute_of_trap known (same.strict.trans strict)]
      exact noted

/-- A cycle keeps the machines alike, and answers the same. -/
theorem cycle (same : Aliasing m n) :
    n.cycle.result = m.cycle.result ∧ Aliasing m.cycle.machine n.cycle.machine := by
  have fetched : Aliasing m.fetched n.fetched :=
    { same with pc := Memory.cell_add same.pc 2, redraw := rfl }
  obtain ⟨result, machine⟩ := fetched.execute m.fetch
  rw [cycle_eq_ticked, cycle_eq_ticked, same.fetch, ticked, ticked, result]
  split
  · exact ⟨rfl, machine.tick⟩
  · exact ⟨result, machine⟩

/-- **One operation** keeps the machines alike, and answers the same. -/
theorem apply (same : Aliasing m n) (operation : Operation) :
    (n.apply operation).result = (m.apply operation).result
      ∧ Aliasing (m.apply operation).machine (n.apply operation).machine := by
  have placed (program : Array Byte) : Aliasing (m.place program) (n.place program) := by
    rw [place_eq_withMemory, place_eq_withMemory, same.memory]
    exact same.withMemory _
  cases operation with
  | cycle =>
    obtain ⟨result, machine⟩ := same.cycle
    exact ⟨by simp only [Machine.apply, Outcome.widen, result], machine⟩
  | execute operand =>
    obtain ⟨result, machine⟩ := same.execute (Word.ofInt operand)
    exact ⟨by simp only [Machine.apply, Outcome.widen, result], machine⟩
  | tick => exact ⟨rfl, same.tick⟩
  | setKey key down =>
    exact ⟨rfl, { same with keypad := congrArg (fun keypad => keypad.put key down) same.keypad }⟩
  | load program =>
    exact ⟨by simp only [Machine.apply, Outcome.widen, Machine.load], placed program⟩
  | loadContents path contents =>
    cases contents with
    | ok program =>
      exact ⟨by simp only [Machine.apply, Outcome.widen, loadContents, Machine.load],
        placed program⟩
    | error reason => exact ⟨rfl, same⟩
  | reset =>
    have back : n.reset = m.reset := by rw [Machine.reset, Machine.reset, same.strict, same.random]
    refine ⟨rfl, ?_⟩
    show Aliasing m.reset n.reset
    rw [back]
    exact { pc := rfl, index := rfl, stack := rfl }

end Aliasing

variable [RandomSource ρ]

/-- **Addresses that alias cannot be told apart.**  Two machines that differ at most in the
    four upper bits of the program counter, the index register and the return addresses in
    use give the same results in every run, traps included, and never differ in anything
    else. -/
theorem aliases_cannot_be_told_apart {m n : Machine ρ} (same : Aliasing m n)
    (operations : List Operation) :
    (n.answers operations).map Prod.snd = (m.answers operations).map Prod.snd
      ∧ Aliasing (m.after operations) (n.after operations) := by
  induction operations generalizing m n with
  | nil => exact ⟨rfl, same⟩
  | cons operation operations ih =>
    obtain ⟨result, machine⟩ := same.apply operation
    obtain ⟨rest, last⟩ := ih machine
    rw [answers_cons, answers_cons, List.map_cons, List.map_cons, rest]
    exact ⟨congrArg (fun r => r :: _) result, last⟩

/-- The machine with another program counter, index register and call stack. -/
def elsewhere (m : Machine ρ) (pc index : Word) (stack : CallStack) : Machine ρ :=
  { m with pc := pc, index := index, stack := stack }

/-- The theorem at two machines that differ in all three: a cycle, a key and a return do not
    tell them apart. -/
theorem return_to_an_alias :
    let m := (new true (Wheel.ofList [])).elsewhere 0x0200 0x0005 (CallStack.ofList [0x0300])
    let n := (new true (Wheel.ofList [])).elsewhere 0x1200 0xF005 (CallStack.ofList [0x7300])
    Aliasing m n
      ∧ (n.answers [.cycle, .setKey 0x3 true, .execute 0x00EE]).map Prod.snd
        = (m.answers [.cycle, .setKey 0x3 true, .execute 0x00EE]).map Prod.snd := by
  intro m n
  have same : Aliasing m n := {
    pc := by decide
    index := by decide
    stack := by decide }
  exact ⟨same, (aliases_cannot_be_told_apart same _).1⟩

end Machine

end ChipEight
