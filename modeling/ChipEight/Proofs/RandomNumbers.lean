import ChipEight.Proofs.Chance
import ChipEight.Proofs.Fields
import ChipEight.Proofs.Footprint
import ChipEight.Proofs.Loose.Masks

namespace ChipEight

/-!
# The random numbers of a run

A run draws one random number for each word executed that draws one.  Nothing else moves the
source, not even a reset.

* `Machine.draws` — the operations of a run that draw a number, each with the machine that
  it met;
* `Machine.random_after` — the source after a run has made as many draws;
* `Machine.random_of_draw` — the source that a draw meets has made those before it;
* `Machine.value_of_draw` — the value that a draw leaves in its register;
* `Machine.SameButRandom` — two machines that differ at most in their sources;
* `Machine.answers_withRandom` — they look the same as long as the numbers drawn agree;
* `Machine.random_numbers_are_accounted_for` — all of it, for every run.
-/

instance (w : Word) : Decidable w.DrawsNumber := inferInstanceAs (Decidable (_ = _))

namespace Word

/-- A word that draws a number names the instruction that does. -/
theorem decode?_of_drawsNumber {w : Word} (draws : w.DrawsNumber) :
    Instruction.decode? w = some (.random w.x w.kk) :=
  Instruction.decode?_of_names ⟨draws, rfl, rfl⟩

end Word

namespace Machine

variable {ρ : Type}

/-- Whether an operation executes a word that draws a random number. -/
def drawsNumber (m : Machine ρ) (operation : Operation) : Bool :=
  (m.word? operation).any fun w => decide w.DrawsNumber

variable [RandomSource ρ]

/-- The operations of a run that draw a random number, each with the machine that it met. -/
def draws (m : Machine ρ) (operations : List Operation) : List (Machine ρ × Operation) :=
  (m.history operations).filter fun p => p.1.drawsNumber p.2

/-- The first operation comes first, if it draws a number. -/
theorem draws_cons (m : Machine ρ) (operation : Operation) (operations : List Operation) :
    m.draws (operation :: operations)
      = if m.drawsNumber operation then
          (m, operation) :: (m.apply operation).machine.draws operations
        else (m.apply operation).machine.draws operations := by
  rw [draws, history, List.filter_cons]
  rfl

/-- There is one draw for each word executed that draws a number. -/
theorem length_draws (m : Machine ρ) (operations : List Operation) :
    (m.draws operations).length
      = (m.words operations).countP fun w => decide w.DrawsNumber := by
  induction operations generalizing m with
  | nil => rfl
  | cons operation operations ih =>
    rw [draws_cons, words_cons, List.countP_append, ← ih, drawsNumber]
    cases m.word? operation with
    | none => simp
    | some w =>
      by_cases draws : w.DrawsNumber
      · simp [draws, Nat.add_comm]
      · simp [draws]

/-! ### One operation -/

/-- A word moves the source by one number if it draws one, and not at all otherwise. -/
theorem random_execute (m : Machine ρ) (w : Word) :
    (m.execute w).machine.random
      = if w.DrawsNumber then (RandomSource.next m.random).2 else m.random := by
  by_cases draws : w.DrawsNumber
  · rw [if_pos draws, execute_of_decode (Word.decode?_of_drawsNumber draws)]
    rfl
  · rw [if_neg draws]
    exact (footprint_execute m w).random draws

/-- A word that draws a number keeps of it the bits that it asks for, in its register. -/
theorem reg_execute_of_draws (m : Machine ρ) {w : Word} (draws : w.DrawsNumber) :
    (m.execute w).machine.reg w.x = w.kk &&& BitVec.ofInt 8 (RandomSource.next m.random).1 := by
  rw [execute_of_decode (Word.decode?_of_drawsNumber draws)]
  show ((m.noting w).setReg w.x _).reg w.x = _
  rw [reg_setReg, if_pos rfl]
  rfl

/-- A tick moves neither the source nor a register, so a cycle does to them what its word
    does. -/
theorem random_cycle (m : Machine ρ) :
    m.cycle.machine.random = (m.fetched.execute m.fetch).machine.random
      ∧ ∀ x, m.cycle.machine.reg x = (m.fetched.execute m.fetch).machine.reg x := by
  rw [cycle_eq_ticked, ticked]
  split <;> exact ⟨rfl, fun _ => rfl⟩

/-- **One operation** moves the source by one number if it draws one, and not at all
    otherwise. -/
theorem random_apply (m : Machine ρ) (operation : Operation) :
    (m.apply operation).machine.random
      = if m.drawsNumber operation then (RandomSource.next m.random).2 else m.random := by
  cases operation with
  | cycle =>
    refine (random_cycle m).1.trans ((random_execute m.fetched m.fetch).trans ?_)
    simp [drawsNumber, word?, fetched]
  | execute operand =>
    refine (random_execute m _).trans ?_
    simp [drawsNumber, word?]
  | loadContents path contents =>
    cases contents with
    | ok program => exact random_withMemory m _
    | error reason => rfl
  | load program => exact random_withMemory m _
  | reset => exact random_new m.strict m.random
  | setKey key down => rfl
  | tick => rfl

/-- **The value drawn.**  An operation that draws a number leaves in the register of its
    word the bitwise conjunction of the word's constant with that number, an integer of any
    size and sign. -/
theorem value_of_draw (m : Machine ρ) {operation : Operation} {w : Word}
    (executes : m.word? operation = some w) (draws : w.DrawsNumber) :
    let value := (m.apply operation).machine.reg w.x
    (value.toNat : Int) = Int.land w.kk.toNat (RandomSource.next m.random).1
      ∧ value.toNat ≤ w.kk.toNat
      ∧ ∀ i, value.getLsbD i = true → w.kk.getLsbD i = true := by
  have masked : (m.apply operation).machine.reg w.x
      = w.kk &&& BitVec.ofInt 8 (RandomSource.next m.random).1 := by
    cases operation with
    | cycle =>
      obtain rfl := Option.some.inj executes
      exact ((random_cycle m).2 _).trans (reg_execute_of_draws m.fetched draws)
    | execute operand =>
      obtain rfl := Option.some.inj executes
      exact reg_execute_of_draws m draws
    | _ => exact nomatch executes
  intro value
  refine ⟨?_, ?_, ?_⟩
  · rw [Mask.land_byte]
    exact congrArg (fun b : Byte => (b.toNat : Int)) masked
  · rw [show value = _ from masked, BitVec.toNat_and]
    exact Nat.and_le_left
  · intro i set
    rw [show value = _ from masked, BitVec.getLsbD_and, Bool.and_eq_true] at set
    exact set.1

/-! ### A whole run -/

/-- A run makes its draws, and moves the source no further. -/
theorem random_after (m : Machine ρ) (operations : List Operation) :
    (m.after operations).random
      = RandomSource.after m.random (m.draws operations).length := by
  induction operations generalizing m with
  | nil => rfl
  | cons operation operations ih =>
    rw [after_cons, ih, random_apply, draws_cons]
    split <;> rfl

/-- The source that a draw meets has made the draws before it. -/
theorem random_of_draw (m : Machine ρ) {operations : List Operation} {j : Nat}
    {p : Machine ρ × Operation} (draw : (m.draws operations)[j]? = some p) :
    p.1.random = RandomSource.after m.random j := by
  induction operations generalizing m j with
  | nil => exact nomatch draw
  | cons operation operations ih =>
    rw [draws_cons] at draw
    by_cases draws : m.drawsNumber operation = true
    · rw [if_pos draws] at draw
      cases j with
      | zero =>
        obtain rfl : (m, operation) = p := Option.some.inj draw
        rfl
      | succ j =>
        rw [List.getElem?_cons_succ] at draw
        rw [ih _ draw, random_apply, if_pos draws]
        rfl
    · rw [if_neg draws] at draw
      rw [ih _ draw, random_apply, if_neg draws]

/-! ### Two runs -/

/-- Two machines that differ at most in where their random numbers come from. -/
def SameButRandom (m n : Machine ρ) : Prop := n = m.withRandom n.random

/-- A word that draws a number is executed alike if the numbers are the same. -/
theorem execute_of_sameNumber (m : Machine ρ) {random : ρ} {w : Word} (draws : w.DrawsNumber)
    (same : (RandomSource.next random).1 = (RandomSource.next m.random).1) :
    (m.withRandom random).execute w
      = ⟨(m.execute w).machine.withRandom (RandomSource.next random).2, (m.execute w).notices,
        (m.execute w).result⟩ := by
  have known := Word.decode?_of_drawsNumber draws
  have performed : ((m.withRandom random).noting w).perform (.random w.x w.kk)
      = ((m.noting w).perform (.random w.x w.kk)).withRandom (RandomSource.next random).2 := by
    simp only [perform, withRandom, noting, same]
    rfl
  rw [execute_of_decode known, execute_of_decode known, performed]
  rfl

/-- No part of an operation tells apart two machines that differ at most in their sources, if
    the numbers drawn from these are the same. -/
theorem lockstep_sameButRandom :
    Lockstep (ρ := ρ) SameButRandom (fun m n w => w.DrawsNumber →
      (RandomSource.next n.random).1 = (RandomSource.next m.random).1) where
  fetch := by
    intro m n same
    rw [same]
    rfl
  fetched := by
    intro m n same
    rw [same]
    rfl
  execute := by
    intro m n w same numbers
    rw [same]
    by_cases draws : w.DrawsNumber
    · rw [execute_of_sameNumber m draws (numbers draws)]
      exact ⟨rfl, rfl, rfl⟩
    · rw [execute_withRandom m n.random draws]
      exact ⟨rfl, rfl, rfl⟩
  tick := by
    intro m n same
    rw [same]
    rfl
  place := by
    intro m n same program
    rw [same]
    rfl
  setKey := by
    intro m n same key down
    rw [same]
    rfl
  reset := by
    intro m n same
    rw [same]
    rfl

/-- **The same numbers make for the same run.**  Two machines that differ at most in their
    sources give the same answers, make as many draws and differ nowhere else afterwards, if
    the numbers that the first one draws are also the first ones of the other source. -/
theorem answers_of_sameNumbers {m n : Machine ρ} (same : SameButRandom m n)
    (operations : List Operation)
    (numbers : ∀ j < (m.draws operations).length,
      RandomSource.drawn n.random j = RandomSource.drawn m.random j) :
    n.answers operations = m.answers operations
      ∧ (n.draws operations).length = (m.draws operations).length
      ∧ SameButRandom (m.after operations) (n.after operations) := by
  induction operations generalizing m n with
  | nil => exact ⟨rfl, rfl, same⟩
  | cons operation operations ih =>
    -- Both machines execute the same word, so both draw a number or neither does.
    have words : n.word? operation = m.word? operation := by
      rw [same]
      rfl
    have both : n.drawsNumber operation = m.drawsNumber operation := by
      rw [drawsNumber, words, drawsNumber]
    rw [draws_cons] at numbers
    have first : ∀ w ∈ m.word? operation, w.DrawsNumber →
        (RandomSource.next (n.executing operation).random).1
          = (RandomSource.next (m.executing operation).random).1 := by
      intro w executed draws
      have drawing : m.drawsNumber operation = true := by
        rw [drawsNumber, Option.mem_def.mp executed]
        exact decide_eq_true draws
      rw [if_pos drawing] at numbers
      -- Fetching the word leaves the sources alone.
      cases operation <;> exact numbers 0 (Nat.zero_lt_succ _)
    have step := lockstep_sameButRandom.apply same first
    obtain ⟨rest, count, final⟩ := ih step.machine fun j hj => by
      rw [random_apply, random_apply, both]
      by_cases drawing : m.drawsNumber operation = true
      · rw [if_pos drawing] at numbers
        rw [if_pos drawing, if_pos drawing]
        exact numbers (j + 1) (Nat.succ_lt_succ hj)
      · rw [if_neg drawing] at numbers
        rw [if_neg drawing, if_neg drawing]
        exact numbers j hj
    refine ⟨?_, ?_, final⟩
    · rw [answers_cons, answers_cons, rest, answer, answer, step.notices, step.result]
    · rw [draws_cons, draws_cons, both]
      split
      · rw [List.length_cons, List.length_cons, count]
      · exact count

/-- Hence a machine with another source, if that starts with the same numbers. -/
theorem answers_withRandom (m : Machine ρ) (random : ρ) (operations : List Operation)
    (numbers : ∀ j < (m.draws operations).length,
      RandomSource.drawn random j = RandomSource.drawn m.random j) :
    (m.withRandom random).answers operations = m.answers operations
      ∧ (m.withRandom random).after operations
        = (m.after operations).withRandom
          (RandomSource.after random (m.draws operations).length) := by
  have same : SameButRandom m (m.withRandom random) := rfl
  obtain ⟨answers, count, final⟩ := answers_of_sameNumbers same operations numbers
  refine ⟨answers, ?_⟩
  rw [final, random_after, count]
  rfl

/-! ### All of it -/

/-- **Random numbers are accounted for.**  After any run from a machine without a program, the
    source has made one draw for each word executed that draws a number, across resets.  The
    draw `j`, counted from zero, leaves in its register the bits of the source's number `j`
    that its word asks for, a value of at most the word's constant.  Another machine gives the
    same answers in the same run, and comes to the same state, if its source starts with the
    same numbers, as many as the run draws. -/
theorem random_numbers_are_accounted_for (strict : Bool) (random : ρ)
    (operations : List Operation) :
    let start := new strict random
    let m := start.after operations
    let count := (start.words operations).countP fun w => decide w.DrawsNumber
    m.random = RandomSource.after random count
      ∧ (start.draws operations).length = count
      ∧ (∀ j p, (start.draws operations)[j]? = some p → ∀ w, p.1.word? p.2 = some w →
        let value := (p.1.apply p.2).machine.reg w.x
        (value.toNat : Int) = Int.land w.kk.toNat (RandomSource.drawn random j)
          ∧ value.toNat ≤ w.kk.toNat
          ∧ ∀ i, value.getLsbD i = true → w.kk.getLsbD i = true)
      ∧ ∀ (random' : ρ) (limit : Nat), count ≤ limit →
        (∀ j < limit, RandomSource.drawn random' j = RandomSource.drawn random j) →
        (new strict random').answers operations = start.answers operations
          ∧ (new strict random').after operations
            = m.withRandom (RandomSource.after random' count) := by
  intro start m count
  have counted : (start.draws operations).length = count := length_draws start operations
  refine ⟨counted ▸ random_after start operations, counted, ?_, ?_⟩
  · intro j p draw w executes
    -- A draw executes a word that draws a number.
    have drawing : p.1.drawsNumber p.2 = true :=
      (List.mem_filter.mp (List.mem_of_getElem? draw)).2
    rw [drawsNumber, executes] at drawing
    have value := value_of_draw p.1 executes (of_decide_eq_true drawing)
    rw [random_of_draw start draw] at value
    exact value
  · intro random' limit few numbers
    have other := answers_withRandom start random' operations fun j hj =>
      numbers j (Nat.lt_of_lt_of_le (counted ▸ hj) few)
    rw [counted] at other
    exact other

/-- The theorem at a source of `-1` and `300`: the second number is drawn behind a reset, and
    a source with a third one makes for the same run. -/
theorem second_number_is_drawn_after_reset :
    let random := Wheel.ofList [-1, 300]
    let random' := Wheel.ofList [-1, 300, 7]
    let operations := [.execute 0xC0F0, .reset, .setKey 0x3 true, .execute 0xC10F]
    let start := new false random
    ((start.words operations).countP fun w => decide w.DrawsNumber) ≤ 2
      ∧ (∀ j < 2, RandomSource.drawn random' j = RandomSource.drawn random j)
      ∧ (start.draws operations)[1]?
        = some (start.after (operations.take 3), .execute 0xC10F)
      ∧ (start.after operations).random.position = 2
      ∧ (((start.after operations).reg 0x1).toNat : Int) = 0xC
      ∧ (new false random').answers operations = start.answers operations := by
  intro random random' operations start
  obtain ⟨source, -, values, others⟩ := random_numbers_are_accounted_for false random operations
  have few : ((start.words operations).countP fun w => decide w.DrawsNumber) ≤ 2 :=
    Nat.le_refl 2
  have numbers : ∀ j < 2, RandomSource.drawn random' j = RandomSource.drawn random j := by
    decide
  have second : (start.draws operations)[1]?
      = some (start.after (operations.take 3), .execute 0xC10F) := rfl
  obtain ⟨value, -⟩ := values 1 _ second 0xC10F rfl
  refine ⟨few, numbers, second, ?_, value, (others random' 2 few numbers).1⟩
  exact congrArg Wheel.position source

end Machine

end ChipEight
