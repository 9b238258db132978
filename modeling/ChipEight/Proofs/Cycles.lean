import ChipEight.Proofs.History

namespace ChipEight

/-!
# The cycles of a run

Between two cycles a host that plays a program does nothing but move keys.  What its cycles
do is then settled by the keypads that they meet.

* `Machine.history_append`, `Machine.executes_append` — a run in two parts;
* `Machine.cycles` — the machines that the cycles of a run meet;
* `Operation.IsPlaying` — a key is moved, or a cycle is run;
* `Machine.paced` — the machines that cycles meet if the keypad is put in place for each;
* `Machine.cycles_eq_paced` — so it is in every run that moves keys and runs cycles;
* `Machine.cycles_take_congr` — hence the same keypads make for the same cycles.
-/

namespace Machine

variable {ρ : Type}

/-- The machine with another keypad. -/
def withKeypad (m : Machine ρ) (keypad : Keypad) : Machine ρ := { m with keypad := keypad }

/-- Of two keypads put in place the last one counts. -/
theorem withKeypad_withKeypad (m : Machine ρ) (first last : Keypad) :
    (m.withKeypad first).withKeypad last = m.withKeypad last := rfl

/-- The machine that an operation meets, if it is a cycle. -/
def cycled? (m : Machine ρ) : Operation → Option (Machine ρ)
  | .cycle => some m
  | _ => none

variable [RandomSource ρ]

/-! ### Runs in two parts -/

/-- The first part of a run comes first. -/
theorem after_append (m : Machine ρ) (first second : List Operation) :
    m.after (first ++ second) = (m.after first).after second := by
  rw [after, after, after, List.foldl_append]

/-- The second part meets the machine that the first one leaves. -/
theorem history_append (m : Machine ρ) (first second : List Operation) :
    m.history (first ++ second) = m.history first ++ (m.after first).history second := by
  induction first generalizing m with
  | nil => rfl
  | cons operation first ih => rw [List.cons_append, history, history, ih, after_cons]; rfl

/-- What is met in a run is met by one of its operations. -/
theorem mem_of_mem_history {m : Machine ρ} {operations : List Operation}
    {p : Machine ρ × Operation} (met : p ∈ m.history operations) : p.2 ∈ operations := by
  induction operations generalizing m with
  | nil => exact absurd met List.not_mem_nil
  | cons operation operations ih =>
    rcases List.mem_cons.mp met with rfl | later
    · exact List.mem_cons_self
    · exact List.mem_cons_of_mem operation (ih later)

/-- Every word that a run executes is a good one for the machine that executes it. -/
def Executes (Good : Machine ρ → Word → Prop) (m : Machine ρ) (operations : List Operation) :
    Prop :=
  ∀ p ∈ m.history operations, ∀ w ∈ p.1.word? p.2, Good (p.1.executing p.2) w

/-- The words of a run in two parts are good ones if those of both parts are. -/
theorem executes_append (Good : Machine ρ → Word → Prop) (m : Machine ρ)
    (first second : List Operation) :
    Executes Good m (first ++ second)
      ↔ Executes Good m first ∧ Executes Good (m.after first) second := by
  unfold Executes
  rw [history_append]
  exact List.forall_mem_append

/-- Good words that can be told by themselves are good whatever machine executes them. -/
theorem executes_of_words {Good : Word → Prop} {m : Machine ρ} {operations : List Operation}
    (good : ∀ w ∈ m.words operations, Good w) : m.Executes (fun _ => Good) operations := by
  intro p hp w hw
  exact good w (List.mem_filterMap.mpr ⟨p, hp, hw⟩)

/-! ### Cycles -/

/-- The machines that the cycles of a run meet. -/
def cycles (m : Machine ρ) (operations : List Operation) : List (Machine ρ) :=
  (m.history operations).filterMap fun p => p.1.cycled? p.2

/-- The cycles of a run in two parts. -/
theorem cycles_append (m : Machine ρ) (first second : List Operation) :
    m.cycles (first ++ second) = m.cycles first ++ (m.after first).cycles second := by
  rw [cycles, history_append, List.filterMap_append]
  rfl

/-- A run without a cycle has none. -/
theorem cycles_eq_nil (m : Machine ρ) {operations : List Operation}
    (none : .cycle ∉ operations) : m.cycles operations = [] := by
  induction operations generalizing m with
  | nil => rfl
  | cons operation operations ih =>
    rw [List.mem_cons, not_or] at none
    have later := ih (m.apply operation).machine none.2
    rw [cycles] at later
    rw [cycles, history, List.filterMap_cons, later]
    cases operation with
    | cycle => exact absurd rfl none.1
    | _ => rfl

/-- The machines that cycles meet if the keypad is put in place for each of them, and
    nothing else is done between them. -/
def paced (m : Machine ρ) : List Keypad → List (Machine ρ)
  | [] => []
  | keypad :: keypads =>
    m.withKeypad keypad :: (m.withKeypad keypad).cycle.machine.paced keypads

/-- The keypad from before the first one is not met. -/
theorem paced_withKeypad (m : Machine ρ) (keypad : Keypad) (keypads : List Keypad) :
    (m.withKeypad keypad).paced keypads = m.paced keypads := by
  cases keypads with
  | nil => rfl
  | cons next keypads => rw [paced, paced, withKeypad_withKeypad]

/-- The first cycles depend on the first keypads. -/
theorem paced_take (m : Machine ρ) (keypads : List Keypad) (count : Nat) :
    (m.paced keypads).take count = m.paced (keypads.take count) := by
  induction keypads generalizing m count with
  | nil => rw [paced, List.take_nil, List.take_nil, paced]
  | cons keypad keypads ih =>
    cases count with
    | zero => rfl
    | succ count => rw [paced, List.take_succ_cons, List.take_succ_cons, paced, ih]

end Machine

/-- The operations of a host that plays a program: it moves keys and runs cycles. -/
def Operation.IsPlaying : Operation → Prop
  | .setKey .. => True
  | .cycle => True
  | _ => False

namespace Machine

variable {ρ : Type} [RandomSource ρ]

/-- In a run that moves keys and runs cycles, the cycles meet what the keypads that they
    meet make of the first machine. -/
theorem cycles_eq_paced (m : Machine ρ) (operations : List Operation)
    (playing : ∀ operation ∈ operations, operation.IsPlaying) :
    m.cycles operations = m.paced ((m.cycles operations).map Machine.keypad) := by
  induction operations generalizing m with
  | nil => rfl
  | cons operation operations ih =>
    have later := ih (m.apply operation).machine fun o ho =>
      playing o (List.mem_cons_of_mem _ ho)
    cases operation with
    | cycle =>
      have here : m.cycles (.cycle :: operations) = m :: m.cycle.machine.cycles operations := rfl
      rw [here, List.map_cons, paced]
      exact congrArg (m :: ·) later
    | setKey key down =>
      have here : m.cycles (.setKey key down :: operations)
          = (m.setKey key down).cycles operations := rfl
      rw [here, ← paced_withKeypad m (m.keypad.put key down)]
      exact later
    | _ => exact absurd (playing _ List.mem_cons_self) id

/-- **The same keypads make for the same cycles.**  If two runs that move keys and run
    cycles start from one machine, and their first cycles meet the same keypads, then
    these cycles meet the same machines. -/
theorem cycles_take_congr (m : Machine ρ) {operations operations' : List Operation}
    (playing : ∀ operation ∈ operations, operation.IsPlaying)
    (playing' : ∀ operation ∈ operations', operation.IsPlaying) (count : Nat)
    (same : ((m.cycles operations).map Machine.keypad).take count
      = ((m.cycles operations').map Machine.keypad).take count) :
    (m.cycles operations).take count = (m.cycles operations').take count := by
  rw [cycles_eq_paced m operations playing, cycles_eq_paced m operations' playing', paced_take,
    paced_take, same]

end Machine

end ChipEight
