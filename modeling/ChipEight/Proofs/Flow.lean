import ChipEight.Proofs.Calls.Lifo
import ChipEight.Proofs.Footprint
import ChipEight.Proofs.Keys
import ChipEight.Proofs.Strictness

namespace ChipEight

/-!
# Where a cycle goes on

A cycle moves the program counter past its word before the word is executed.  Some words
then move it once more: they jump, call, return, skip the next instruction, or go back to
come again.

* `Memory.toNat_readWord` — the word of a cycle, from two bytes of the memory;
* `Word.Skips` — the word skips the next instruction, told by what the machine holds;
* `Machine.goesOn` — where a cycle goes on, told by its word and by the machine that it
  meets;
* `Machine.pc_execute_skip`, `Machine.pc_execute_awaits` and their like — one lemma for
  each kind of word that moves the program counter;
* `Machine.pc_cycle` — hence a cycle goes on where `Machine.goesOn` says;
* `Word.Opposes` — two words that skip on opposite conditions;
* `Machine.cycle_fetches_and_goes_on` — all of this for any cycle.
-/

/-! ### The word of a cycle -/

/-- The word of two neighbouring bytes, the first of which counts 256 times. -/
theorem Memory.toNat_readWord (m : Memory) (a : Word) :
    (m.readWord a).toNat
      = 256 * m.bytes[a.toNat % 4096].toNat + m.bytes[(a.toNat + 1) % 4096].toNat := by
  have high : m.read a = m.bytes[a.toNat % 4096] := by
    simp only [read, Fin.getElem_fin, val_cell]
  have low : m.read (a + 1) = m.bytes[(a.toNat + 1) % 4096] := m.read_add a 1
  rw [readWord, high, low, BitVec.toNat_append, ← Nat.shiftLeft_add_eq_or_of_lt (BitVec.isLt _),
    Nat.shiftLeft_eq, Nat.mul_comm]

namespace Word

variable {ρ : Type}

/-! ### Words that skip -/

/-- The word skips the next instruction, told by its fields and by what the machine
    holds. -/
def Skips (w : Word) (m : Machine ρ) : Prop :=
  (w.family = 0x3 ∧ m.reg w.x = w.kk)
    ∨ (w.family = 0x4 ∧ m.reg w.x ≠ w.kk)
    ∨ (w.family = 0x5 ∧ m.reg w.x = m.reg w.y)
    ∨ (w.family = 0x9 ∧ m.reg w.x ≠ m.reg w.y)
    ∨ (w.family = 0xE ∧ w.kk = 0x9E ∧ m.keypad.isDown ((m.reg w.x).setWidth 4) = true)
    ∨ (w.family = 0xE ∧ w.kk = 0xA1 ∧ m.keypad.isDown ((m.reg w.x).setWidth 4) = false)

instance (w : Word) (m : Machine ρ) : Decidable (w.Skips m) :=
  inferInstanceAs (Decidable (_ ∨ _ ∨ _ ∨ _ ∨ _ ∨ _))

/-- A word that tests a condition skips exactly if the condition holds. -/
theorem skips_iff_of_tests {w : Word} {c : Condition} (tests : w.Tests c) (m : Machine ρ) :
    w.Skips m ↔ c.holds m = true := by
  cases c with
  | isByte x value | isNotByte x value | agree x y | differ x y =>
    obtain ⟨family, rfl, rfl⟩ := tests
    simp [Skips, family, Condition.holds]
  | keyDown x | keyUp x =>
    obtain ⟨family, variant, rfl⟩ := tests
    simp [Skips, family, variant, Condition.holds]

/-- A word that skips tests a condition. -/
theorem tests_of_skips {w : Word} {m : Machine ρ} (skips : w.Skips m) : ∃ c, w.Tests c := by
  rcases skips with ⟨family, -⟩ | ⟨family, -⟩ | ⟨family, -⟩ | ⟨family, -⟩
    | ⟨family, variant, -⟩ | ⟨family, variant, -⟩
  · exact ⟨.isByte w.x w.kk, family, rfl, rfl⟩
  · exact ⟨.isNotByte w.x w.kk, family, rfl, rfl⟩
  · exact ⟨.agree w.x w.y, family, rfl, rfl⟩
  · exact ⟨.differ w.x w.y, family, rfl, rfl⟩
  · exact ⟨.keyDown w.x, family, variant, rfl⟩
  · exact ⟨.keyUp w.x, family, variant, rfl⟩

/-- The words that may go on elsewhere: they jump, call, return, wait or test a
    condition. -/
theorem cases_of_branches {w : Word} (branches : w.Branches) :
    w.family = 0x1 ∨ w.family = 0xB ∨ w.family = 0x2 ∨ w = 0x00EE ∨ w.AwaitsKey
      ∨ ∃ c, w.Tests c := by
  rcases branches with family | ret | ⟨family, variant⟩ | await
  · simp only [List.mem_cons, List.not_mem_nil, or_false] at family
    rcases family with one | two | three | four | five | nine | eleven
    · exact .inl one
    · exact .inr (.inr (.inl two))
    · exact .inr (.inr (.inr (.inr (.inr ⟨.isByte w.x w.kk, three, rfl, rfl⟩))))
    · exact .inr (.inr (.inr (.inr (.inr ⟨.isNotByte w.x w.kk, four, rfl, rfl⟩))))
    · exact .inr (.inr (.inr (.inr (.inr ⟨.agree w.x w.y, five, rfl, rfl⟩))))
    · exact .inr (.inr (.inr (.inr (.inr ⟨.differ w.x w.y, nine, rfl, rfl⟩))))
    · exact .inr (.inl eleven)
  · exact .inr (.inr (.inr (.inl ret)))
  · simp only [List.mem_cons, List.not_mem_nil, or_false] at variant
    rcases variant with down | up
    · exact .inr (.inr (.inr (.inr (.inr ⟨.keyDown w.x, family, down, rfl⟩))))
    · exact .inr (.inr (.inr (.inr (.inr ⟨.keyUp w.x, family, up, rfl⟩))))
  · exact .inr (.inr (.inr (.inr (.inl await))))

/-- A word that skips goes on elsewhere. -/
theorem branches_of_skips {w : Word} {m : Machine ρ} (skips : w.Skips m) : w.Branches := by
  rcases skips with ⟨family, -⟩ | ⟨family, -⟩ | ⟨family, -⟩ | ⟨family, -⟩
    | ⟨family, variant, -⟩ | ⟨family, variant, -⟩
  · exact .inl (by simp [family])
  · exact .inl (by simp [family])
  · exact .inl (by simp [family])
  · exact .inl (by simp [family])
  · exact .inr (.inr (.inl ⟨family, by simp [variant]⟩))
  · exact .inr (.inr (.inl ⟨family, by simp [variant]⟩))

/-- Two words that name the same registers and constants and skip on opposite
    conditions. -/
def Opposes (v w : Word) : Prop :=
  v.x = w.x
    ∧ ((v.family = 0x3 ∧ w.family = 0x4 ∧ v.kk = w.kk)
      ∨ (v.family = 0x5 ∧ w.family = 0x9 ∧ v.y = w.y)
      ∨ (v.family = 0xE ∧ w.family = 0xE ∧ v.kk = 0x9E ∧ w.kk = 0xA1))

/-- Both of them test a condition. -/
theorem Opposes.tests {v w : Word} (opposes : v.Opposes w) :
    (∃ c, v.Tests c) ∧ ∃ c, w.Tests c := by
  obtain ⟨-, ⟨family, family', -⟩ | ⟨family, family', -⟩ | ⟨family, family', variant, variant'⟩⟩ :=
    opposes
  · exact ⟨⟨.isByte v.x v.kk, family, rfl, rfl⟩, .isNotByte w.x w.kk, family', rfl, rfl⟩
  · exact ⟨⟨.agree v.x v.y, family, rfl, rfl⟩, .differ w.x w.y, family', rfl, rfl⟩
  · exact ⟨⟨.keyDown v.x, family, variant, rfl⟩, .keyUp w.x, family', variant', rfl⟩

/-- Of two such words one skips and the other does not. -/
theorem Opposes.skips_iff {v w : Word} (opposes : v.Opposes w) (m : Machine ρ) :
    v.Skips m ↔ ¬ w.Skips m := by
  obtain ⟨x, ⟨family, family', kk⟩ | ⟨family, family', y⟩ | ⟨family, family', variant, variant'⟩⟩ :=
    opposes
  · simp [Skips, family, family', x, kk]
  · simp [Skips, family, family', x, y]
  · simp [Skips, family, family', variant, variant', x]

end Word

namespace Machine

variable {ρ : Type}

/-! ### Where a cycle goes on -/

/-- Where a cycle goes on that executes a word, told by the machine that it meets. -/
def goesOn (m : Machine ρ) (w : Word) : Word :=
  if w.family = 0x1 then w.nnn.setWidth 16
  else if w.family = 0xB then w.nnn.setWidth 16 + (m.reg 0).setWidth 16
  else if w.family = 0x2 then if m.stack.depth.val < 16 then w.nnn.setWidth 16 else m.pc + 2
  else if w = 0x00EE then m.stack.live.getLast?.getD (m.pc + 2)
  else if w.AwaitsKey ∧ ∀ key, m.keypad.isDown key = false then m.pc
  else if w.Skips m then m.pc + 4
  else m.pc + 2

/-- It goes on behind a word that branches nowhere. -/
theorem goesOn_of_not_branches (m : Machine ρ) {w : Word} (straight : ¬ w.Branches) :
    m.goesOn w = m.pc + 2 := by
  have notFamily : ∀ f ∈ [0x1, 0x2, 0x3, 0x4, 0x5, 0x9, 0xB], w.family ≠ f :=
    fun f hf same => straight (.inl (same ▸ hf))
  have noSkip : ¬ w.Skips m := fun skips => straight (Word.branches_of_skips skips)
  rw [goesOn, if_neg (notFamily _ (by decide)), if_neg (notFamily _ (by decide)),
    if_neg (notFamily _ (by decide)), if_neg fun ret => straight (.inr (.inl ret)),
    if_neg fun await => straight (.inr (.inr (.inr await.1))), if_neg noSkip]

/-- Behind a word that tests a condition it is up to the condition. -/
theorem goesOn_of_tests (m : Machine ρ) {w : Word} {c : Condition} (tests : w.Tests c) :
    m.goesOn w = if w.Skips m then m.pc + 4 else m.pc + 2 := by
  have family : w.family ∈ [0x3, 0x4, 0x5, 0x9, 0xE] := by cases c <;> simp [tests.1]
  have other : ∀ f ∉ [0x3, 0x4, 0x5, 0x9, 0xE], w.family ≠ f := fun f hf same => hf (same ▸ family)
  have notRet : w ≠ 0x00EE := fun ret => other 0x0 (by decide) (congrArg Word.family ret)
  rw [goesOn, if_neg (other _ (by decide)), if_neg (other _ (by decide)),
    if_neg (other _ (by decide)), if_neg notRet,
    if_neg fun await => other _ (by decide) await.1.1]

/-- A word that waits for a key is gone back to as long as there is none. -/
theorem goesOn_of_awaits (m : Machine ρ) {w : Word} (awaits : w.AwaitsKey) :
    m.goesOn w = if ∀ key, m.keypad.isDown key = false then m.pc else m.pc + 2 := by
  have other : ∀ f ≠ 0xF, w.family ≠ f := fun f hf same => hf (same.symm.trans awaits.1)
  have notRet : w ≠ 0x00EE := fun ret => other 0x0 (by decide) (congrArg Word.family ret)
  have noSkip : ¬ w.Skips m := by
    intro skips
    obtain ⟨c, tests⟩ := Word.tests_of_skips skips
    cases c <;> exact other _ (by decide) tests.1
  rw [goesOn, if_neg (other _ (by decide)), if_neg (other _ (by decide)),
    if_neg (other _ (by decide)), if_neg notRet, if_neg noSkip]
  simp only [awaits, true_and]

variable [RandomSource ρ] {w : Word}

/-- A jump goes on at its target. -/
theorem pc_execute_jump (m : Machine ρ) (jump : w.family = 0x1) :
    (m.execute w).machine.pc = w.nnn.setWidth 16 := by
  have names : w.Names (.jump w.nnn) := ⟨jump, rfl⟩
  rw [execute_of_decode (Instruction.decode?_of_names names)]
  rfl

/-- A jump from the first register goes on that far behind its target. -/
theorem pc_execute_jumpFrom (m : Machine ρ) (jumpFrom : w.family = 0xB) :
    (m.execute w).machine.pc = w.nnn.setWidth 16 + (m.reg 0).setWidth 16 := by
  have names : w.Names (.jumpFrom w.nnn) := ⟨jumpFrom, rfl⟩
  rw [execute_of_decode (Instruction.decode?_of_names names)]
  rfl

/-- A word that waits for a key comes again as long as there is none. -/
theorem pc_execute_awaits (m : Machine ρ) (awaits : w.AwaitsKey) :
    (m.execute w).machine.pc
      = if ∀ key, m.keypad.isDown key = false then m.here else m.pc := by
  have names : w.Names (.awaitKey w.x) := ⟨awaits.1, awaits.2, rfl⟩
  rw [execute_of_decode (Instruction.decode?_of_names names), perform, awaitKey]
  split
  · next key lowest =>
    have down : ¬ ∀ key, m.keypad.isDown key = false := by
      rw [← Keypad.lowest?_eq_none_iff]
      exact Option.ne_none_iff_exists'.mpr ⟨key, lowest⟩
    rw [if_neg down]
    rfl
  · next lowest =>
    rw [if_pos (m.keypad.lowest?_eq_none_iff.mp lowest)]
    rfl

/-- A word that tests a condition passes over the next instruction if the condition
    holds. -/
theorem pc_execute_skip (m : Machine ρ) {c : Condition} (tests : w.Tests c) :
    (m.execute w).machine.pc = if w.Skips m then m.pc + 2 else m.pc := by
  have holds : c.holds (m.noting w) = c.holds m := by cases c <;> rfl
  rw [execute_of_decode (Instruction.decode?_of_names (i := .skip c) tests), perform, holds]
  by_cases skips : w.Skips m
  · rw [if_pos ((Word.skips_iff_of_tests tests m).mp skips), if_pos skips]
    rfl
  · rw [if_neg (mt (Word.skips_iff_of_tests tests m).mpr skips), if_neg skips]
    rfl

/-- **A cycle goes on** where its word and the machine before it say. -/
theorem pc_cycle (m : Machine ρ) : m.cycle.machine.pc = m.goesOn m.fetch := by
  have moved : m.cycle.machine.pc = (m.fetched.execute m.fetch).machine.pc := (stack_cycle m).2
  by_cases branches : m.fetch.Branches
  · rcases Word.cases_of_branches branches with jump | jumpFrom | call | ret | awaits | ⟨c, tests⟩
    · rw [moved, pc_execute_jump _ jump, goesOn, if_pos jump]
    · have reg : m.fetched.reg 0 = m.reg 0 := rfl
      rw [moved, pc_execute_jumpFrom _ jumpFrom, reg, goesOn, if_neg (by simp [jumpFrom]),
        if_pos jumpFrom]
    · have goes : m.goesOn m.fetch
          = if m.stack.depth.val < 16 then m.fetch.nnn.setWidth 16 else m.pc + 2 := by
        rw [goesOn, if_neg (by simp [call]), if_neg (by simp [call]), if_pos call]
      rw [pc_cycle_call m call, CallStack.length_live, goes]
      rfl
    · rw [pc_cycle_ret m ret, ret]
      rfl
    · have here : m.fetched.here = m.pc := here_advanced m
      rw [moved, pc_execute_awaits _ awaits, here, goesOn_of_awaits m awaits]
      rfl
    · have next : m.fetched.pc + 2 = m.pc + 4 := BitVec.add_assoc m.pc 2 2
      rw [moved, pc_execute_skip _ tests, next, goesOn_of_tests m tests]
      rfl
  · rw [moved, (footprint_execute m.fetched m.fetch).pc branches, goesOn_of_not_branches m branches]
    rfl

/-! ### All of it -/

/-- Of two words that skip on opposite conditions exactly one skips, if each of them is put
    at the program counter of a machine. -/
theorem one_of_two_skips (m : Machine ρ) {v w : Word} (opposes : v.Opposes w)
    {memory memory' : Memory} (first : memory.readWord m.pc = v)
    (second : memory'.readWord m.pc = w) :
    (v.Skips m ∧ (m.withMemory memory).cycle.machine.pc = m.pc + 4
        ∧ (m.withMemory memory').cycle.machine.pc = m.pc + 2)
      ∨ (w.Skips m ∧ (m.withMemory memory).cycle.machine.pc = m.pc + 2
        ∧ (m.withMemory memory').cycle.machine.pc = m.pc + 4) := by
  obtain ⟨⟨c, tests⟩, c', tests'⟩ := opposes.tests
  have goes : (m.withMemory memory).cycle.machine.pc
      = if v.Skips m then m.pc + 4 else m.pc + 2 := by
    rw [pc_cycle, fetch_withMemory, first]
    exact goesOn_of_tests (m.withMemory memory) tests
  have goes' : (m.withMemory memory').cycle.machine.pc
      = if w.Skips m then m.pc + 4 else m.pc + 2 := by
    rw [pc_cycle, fetch_withMemory, second]
    exact goesOn_of_tests (m.withMemory memory') tests'
  have exclusive := opposes.skips_iff m
  by_cases skips : w.Skips m
  · rw [goes, goes', if_pos skips, if_neg fun other => exclusive.mp other skips]
    exact .inr ⟨skips, rfl, rfl⟩
  · rw [goes, goes', if_neg skips, if_pos (exclusive.mpr skips)]
    exact .inl ⟨exclusive.mpr skips, rfl, rfl⟩

/-- **A cycle fetches its word and goes on.**  It executes and answers the word of the two
    bytes at the program counter, both counted modulo the size of the memory, unless the word
    is unknown and stops a strict machine; and it goes on where `goesOn` says of that word
    and of the machine before the cycle.  Of two words that skip on opposite conditions
    exactly one skips, on any machine. -/
theorem cycle_fetches_and_goes_on (m : Machine ρ) :
    m.fetch.toNat = 256 * m.memory.bytes[m.pc.toNat % 4096].toNat
        + m.memory.bytes[(m.pc.toNat + 1) % 4096].toNat
      ∧ m.cycle.machine.operand = m.fetch
      ∧ m.cycle.result
        = (if m.fetch.IsUnknown ∧ m.strict = true then .error ⟨m.fetch⟩ else .ok m.fetch)
      ∧ m.cycle.machine.pc = m.goesOn m.fetch
      ∧ ∀ (v w : Word) (memory memory' : Memory), v.Opposes w →
        memory.readWord m.pc = v → memory'.readWord m.pc = w →
        (v.Skips m ∧ (m.withMemory memory).cycle.machine.pc = m.pc + 4
            ∧ (m.withMemory memory').cycle.machine.pc = m.pc + 2)
          ∨ (w.Skips m ∧ (m.withMemory memory).cycle.machine.pc = m.pc + 2
            ∧ (m.withMemory memory').cycle.machine.pc = m.pc + 4) := by
  refine ⟨m.memory.toNat_readWord m.pc, operand_cycle m, result_cycle_eq m, pc_cycle m, ?_⟩
  intro v w memory memory' opposes first second
  exact one_of_two_skips m opposes first second

end Machine

end ChipEight
