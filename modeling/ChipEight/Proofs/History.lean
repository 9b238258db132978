import ChipEight.Proofs.Step

namespace ChipEight

/-!
# Histories

What happened in a run of operations, and how facts about one operation become
facts about a run.

* `Machine.history` — each operation of a run with the machine that it met;
* `Machine.answer`, `Machine.answers` — what a host gets to see of an operation, and of
  a run: the notices, and the result or the fault;
* `Machine.word?`, `Machine.words` — the word that an operation executes, and the words
  of a run;
* `Machine.after_induction` — what every operation keeps, every run keeps;
* `Machine.Lockstep` — a relation between machines that the parts of an operation
  cannot tell apart, as long as the words executed are good ones for the two of them;
* `Machine.Lockstep.apply` — hence no operation does;
* `Machine.Lockstep.answers` — and two such machines give the same answers in every run,
  and stay related, if the first one tells which words are good.
-/

namespace Machine

variable {ρ : Type}

/-! ### Outcomes that look the same -/

/-- Two outcomes that a host cannot tell apart, of machines that are related. -/
structure SameOutcome {ε α : Type} (Alike : Machine ρ → Machine ρ → Prop)
    (r s : Outcome ρ ε α) : Prop where
  notices : r.notices = s.notices
  result : r.result = s.result
  machine : Alike r.machine s.machine

namespace SameOutcome

variable {ε α : Type} {Alike : Machine ρ → Machine ρ → Prop}

/-- The same notices and the same result, of related machines. -/
theorem of_alike {m n : Machine ρ} (alike : Alike m n) (notices : List Notice)
    (result : Except ε α) : SameOutcome Alike ⟨m, notices, result⟩ ⟨n, notices, result⟩ :=
  ⟨rfl, rfl, alike⟩

/-- Outcomes stay the same among those of all operations. -/
theorem widen {r s : Outcome ρ ε α} (same : SameOutcome Alike r s)
    (fault : ε → Operation.Fault) (reply : α → Operation.Reply) :
    SameOutcome Alike (r.widen fault reply) (s.widen fault reply) :=
  ⟨same.notices, congrArg (fun r => (r.map reply).mapError fault) same.result, same.machine⟩

/-- Ticking the timers keeps outcomes the same. -/
theorem ticked {r s : Outcome ρ Trap Word} (same : SameOutcome Alike r s)
    (tick : Alike r.machine s.machine → Alike r.machine.tick s.machine.tick) :
    SameOutcome Alike (ticked r) (ticked s) := by
  obtain ⟨n, notices, result⟩ := r
  obtain ⟨n', notices', result'⟩ := s
  obtain ⟨rfl, rfl, alike⟩ := same
  cases result with
  | ok w => exact of_alike (tick alike) _ _
  | error trap => exact of_alike alike _ _

end SameOutcome

/-! ### What happened -/

variable [RandomSource ρ]

/-- The operations of a run, each with the machine that it met. -/
def history (m : Machine ρ) : List Operation → List (Machine ρ × Operation)
  | [] => []
  | operation :: operations =>
    (m, operation) :: (m.apply operation).machine.history operations

/-- What a host gets to see of an operation: the notices and the result. -/
def answer (m : Machine ρ) (operation : Operation) :
    List Notice × Except Operation.Fault Operation.Reply :=
  ((m.apply operation).notices, (m.apply operation).result)

/-- What a host gets to see of a run. -/
def answers (m : Machine ρ) (operations : List Operation) :
    List (List Notice × Except Operation.Fault Operation.Reply) :=
  (m.history operations).map fun p => p.1.answer p.2

/-- The word that an operation executes, if it executes one. -/
def word? (m : Machine ρ) : Operation → Option Word
  | .cycle => some m.fetch
  | .execute operand => some (Word.ofInt operand)
  | _ => none

/-- The machine that executes the word of an operation. -/
def executing (m : Machine ρ) : Operation → Machine ρ
  | .cycle => m.fetched
  | _ => m

/-- The words executed in a run. -/
def words (m : Machine ρ) (operations : List Operation) : List Word :=
  (m.history operations).filterMap fun p => p.1.word? p.2

@[simp] theorem answers_cons (m : Machine ρ) (operation : Operation)
    (operations : List Operation) :
    m.answers (operation :: operations)
      = m.answer operation :: (m.apply operation).machine.answers operations := rfl

/-- The words of the first operation come first. -/
theorem words_cons (m : Machine ρ) (operation : Operation) (operations : List Operation) :
    m.words (operation :: operations)
      = (m.word? operation).toList ++ (m.apply operation).machine.words operations := by
  rw [words, history, List.filterMap_cons]
  cases m.word? operation <;> rfl

/-! ### From one operation to a run -/

/-- The last operation comes last. -/
theorem after_concat (m : Machine ρ) (operations : List Operation) (operation : Operation) :
    m.after (operations ++ [operation]) = ((m.after operations).apply operation).machine := by
  rw [after, List.foldl_append]
  rfl

/-- What every operation keeps, every run keeps. -/
theorem after_induction {P : Machine ρ → Prop}
    (step : ∀ m operation, P m → P (m.apply operation).machine)
    {m : Machine ρ} (start : P m) (operations : List Operation) : P (m.after operations) := by
  induction operations generalizing m with
  | nil => exact start
  | cons operation operations ih => exact ih (step m operation start)

/-! ### Two runs -/

/-- A relation between machines that no part of an operation can tell apart, as long as
    the words executed are good ones for the two of them. -/
structure Lockstep (Alike : Machine ρ → Machine ρ → Prop)
    (Good : Machine ρ → Machine ρ → Word → Prop) : Prop where
  fetch : ∀ {m n}, Alike m n → m.fetch = n.fetch
  fetched : ∀ {m n}, Alike m n → Alike m.fetched n.fetched
  execute : ∀ {m n w}, Alike m n → Good m n w → SameOutcome Alike (m.execute w) (n.execute w)
  tick : ∀ {m n}, Alike m n → Alike m.tick n.tick
  place : ∀ {m n}, Alike m n → ∀ program, Alike (m.place program) (n.place program)
  setKey : ∀ {m n}, Alike m n → ∀ key down, Alike (m.setKey key down) (n.setKey key down)
  reset : ∀ {m n}, Alike m n → Alike m.reset n.reset

namespace Lockstep

variable {Alike : Machine ρ → Machine ρ → Prop}

section

variable {Good : Machine ρ → Machine ρ → Word → Prop} (lockstep : Lockstep Alike Good)

include lockstep

/-- A cycle does not tell related machines apart. -/
theorem cycle {m n : Machine ρ} (alike : Alike m n) (good : Good m.fetched n.fetched m.fetch) :
    SameOutcome Alike m.cycle n.cycle := by
  rw [cycle_eq_ticked, cycle_eq_ticked, ← lockstep.fetch alike]
  exact (lockstep.execute (lockstep.fetched alike) good).ticked lockstep.tick

/-- Loading a program does not tell related machines apart. -/
theorem load {m n : Machine ρ} (alike : Alike m n) (program : Array Byte) :
    SameOutcome Alike (m.load program) (n.load program) :=
  .of_alike (lockstep.place alike program) _ _

/-- An operation does not tell related machines apart. -/
theorem apply {m n : Machine ρ} (alike : Alike m n) {operation : Operation}
    (good : ∀ w ∈ m.word? operation, Good (m.executing operation) (n.executing operation) w) :
    SameOutcome Alike (m.apply operation) (n.apply operation) := by
  cases operation with
  | cycle => exact (lockstep.cycle alike (good _ rfl)).widen _ _
  | execute operand => exact (lockstep.execute alike (good _ rfl)).widen _ _
  | load program => exact (lockstep.load alike program).widen _ _
  | loadContents path contents =>
    cases contents with
    | ok program => exact (lockstep.load alike program).widen _ _
    | error reason => exact .of_alike alike _ _
  | setKey key down => exact .of_alike (lockstep.setKey alike key down) _ _
  | tick => exact .of_alike (lockstep.tick alike) _ _
  | reset => exact .of_alike (lockstep.reset alike) _ _

end

/-- **Lockstep.** Related machines give the same answers in every run that executes good
    words only, and stay related. -/
theorem answers {Good : Machine ρ → Word → Prop} (lockstep : Lockstep Alike fun m _ => Good m)
    {m n : Machine ρ} (alike : Alike m n) (operations : List Operation)
    (good : ∀ p ∈ m.history operations, ∀ w ∈ p.1.word? p.2, Good (p.1.executing p.2) w) :
    m.answers operations = n.answers operations
      ∧ Alike (m.after operations) (n.after operations) := by
  induction operations generalizing m n with
  | nil => exact ⟨rfl, alike⟩
  | cons operation operations ih =>
    -- The first operation meets `m` and `n` themselves, the others what it makes of them.
    have first := lockstep.apply alike (good (m, operation) List.mem_cons_self)
    obtain ⟨rest, last⟩ := ih first.machine fun p hp => good p (List.mem_cons_of_mem _ hp)
    have same : m.answer operation = n.answer operation := by
      rw [answer, answer, first.notices, first.result]
    rw [answers_cons, answers_cons, same, rest]
    exact ⟨rfl, last⟩

end Lockstep

/-- Nothing tells a machine from itself. -/
theorem lockstep_eq : Lockstep (ρ := ρ) Eq (fun _ _ _ => True) where
  fetch := by
    rintro m _ rfl
    rfl
  fetched := by
    rintro m _ rfl
    rfl
  execute := by
    rintro m _ w rfl -
    exact ⟨rfl, rfl, rfl⟩
  tick := by
    rintro m _ rfl
    rfl
  place := by
    rintro m _ rfl program
    rfl
  setKey := by
    rintro m _ rfl key down
    rfl
  reset := by
    rintro m _ rfl
    rfl

end Machine

end ChipEight
