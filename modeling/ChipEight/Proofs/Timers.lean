import ChipEight.Proofs.Fields
import ChipEight.Proofs.Footprint
import ChipEight.Proofs.History

namespace ChipEight

/-!
# Timers over a run

A timer holds the value last written to it, less the ticks since then, down to zero.

* `Timer` — the two timers, each with its value and with the words that write it;
* `Timing`, `Machine.timings` — what a run did, as far as a timer is concerned: writes,
  ticks and resets;
* `Timing.lastWritten`, `Timing.ticksSince` — the value last written and the ticks since,
  both read off from the end of what happened;
* `Machine.value_apply`, `Machine.value_after` — an operation, and hence a run, does to a
  timer what the timings say;
* `Machine.timings_of_quiet` — in a run that neither writes the timer nor ticks or resets
  it by hand, there is one tick for each cycle that was completed;
* `Machine.timers_count_down_from_the_last_write` — the value of both timers after any
  run, and what reading the delay timer gives some cycles after it was written.
-/

/-- One of the two timers. -/
inductive Timer
  | delay | sound
deriving DecidableEq, Repr

namespace Timer

/-- The value of a timer. -/
def value {ρ : Type} (m : Machine ρ) : Timer → Byte
  | delay => m.delay
  | sound => m.sound

/-- The low byte of the words that write a timer. -/
def variant : Timer → Byte
  | delay => 0x15
  | sound => 0x18

/-- The word writes the timer. -/
def IsWrittenBy (t : Timer) (w : Word) : Prop := w.family = 0xF ∧ w.kk = t.variant

instance (t : Timer) (w : Word) : Decidable (t.IsWrittenBy w) :=
  inferInstanceAs (Decidable (_ ∧ _))

/-- The instruction that gives a timer the value of a register. -/
def instruction (x : Nibble) : Timer → Instruction
  | delay => .setDelay x
  | sound => .setSound x

/-- The words that write a timer decode to that instruction. -/
theorem decode?_of_isWrittenBy {t : Timer} {w : Word} (writes : t.IsWrittenBy w) :
    Instruction.decode? w = some (t.instruction w.x) := by
  cases t <;> exact Instruction.decode?_of_names ⟨writes.1, writes.2, rfl⟩

end Timer

/-! ### What happens to a timer -/

/-- What can happen to a timer. -/
inductive Timing
  /-- A value was written to it. -/
  | written (value : Byte)
  /-- It ticked. -/
  | ticked
  /-- The machine went back to the state without a program. -/
  | reset
deriving DecidableEq, Repr

namespace Timing

/-- The value last written, zero if there was none since the last reset. -/
def lastWritten (timings : List Timing) : Nat :=
  match timings.reverse.find? (· != ticked) with
  | some (written value) => value.toNat
  | _ => 0

/-- The ticks since the last write or reset. -/
def ticksSince (timings : List Timing) : Nat :=
  (timings.reverse.takeWhile (· == ticked)).length

/-- The value of a timer after one thing happened to it. -/
def follow (value : Byte) : Timing → Byte
  | written new => new
  | ticked => Machine.countDown value
  | reset => 0

/-- **The value last written, less the ticks since.**  This is what becomes of a timer that
    starts at zero. -/
theorem toNat_foldl_follow (timings : List Timing) :
    (timings.foldl follow 0).toNat = lastWritten timings - ticksSince timings := by
  unfold lastWritten ticksSince
  rw [List.foldl_eq_foldr_reverse]
  -- By induction from the end: only a tick looks further back.
  induction timings.reverse with
  | nil => rfl
  | cons timing earlier ih =>
    cases timing with
    | written value => simp [follow]
    | reset => simp [follow]
    | ticked =>
      have skipped : (ticked :: earlier).find? (· != ticked) = earlier.find? (· != ticked) :=
        List.find?_cons_of_neg (by decide)
      have counted : ((ticked :: earlier).takeWhile (· == ticked)).length
          = (earlier.takeWhile (· == ticked)).length + 1 := by simp
      rw [List.foldr_cons, follow, Machine.toNat_countDown, ih, skipped, counted]
      omega

/-- Ticks alone count a timer down. -/
theorem toNat_foldl_replicate (value : Byte) (count : Nat) :
    ((List.replicate count ticked).foldl follow value).toNat = value.toNat - count := by
  induction count generalizing value with
  | zero => rfl
  | succ count ih =>
    rw [List.replicate_succ, List.foldl_cons, ih, follow, Machine.toNat_countDown]
    omega

end Timing

namespace Machine

variable {ρ : Type}

/-- What executing a word does to a timer. -/
def writing (m : Machine ρ) (t : Timer) (w : Word) : List Timing :=
  if t.IsWrittenBy w then [.written (m.reg w.x)] else []

/-- Loading a program does nothing to a timer. -/
theorem value_withMemory (m : Machine ρ) (memory : Memory) (t : Timer) :
    t.value (m.withMemory memory) = t.value m := by
  cases t <;> rfl

/-- The machine without a program has its timers at zero. -/
theorem value_new (strict : Bool) (random : ρ) (t : Timer) :
    t.value (new strict random) = 0 := by
  cases t <;> rfl

variable [RandomSource ρ]

/-- Whether an operation is a cycle that is completed. -/
def completes (m : Machine ρ) : Operation → Bool
  | .cycle => m.cycle.result.isOk
  | _ => false

/-- What an operation does to a timer.  A cycle ticks it at its end, after a write of its
    own, unless the machine stops. -/
def timing (m : Machine ρ) (t : Timer) : Operation → List Timing
  | .cycle => m.writing t m.fetch ++ if m.completes .cycle then [.ticked] else []
  | .execute operand => m.writing t (Word.ofInt operand)
  | .tick => [.ticked]
  | .reset => [.reset]
  | _ => []

/-- What a run does to a timer. -/
def timings (m : Machine ρ) (t : Timer) (operations : List Operation) : List Timing :=
  (m.history operations).flatMap fun p => p.1.timing t p.2

/-- How many cycles a run completes. -/
def completed (m : Machine ρ) (operations : List Operation) : Nat :=
  (m.history operations).countP fun p => p.1.completes p.2

/-! ### One operation -/

/-- Executing a word writes a timer or leaves it alone. -/
theorem value_execute (m : Machine ρ) (t : Timer) (w : Word) :
    t.value (m.execute w).machine = (m.writing t w).foldl Timing.follow (t.value m) := by
  unfold writing
  by_cases writes : t.IsWrittenBy w
  · rw [if_pos writes, execute_of_decode (Timer.decode?_of_isWrittenBy writes)]
    cases t <;> rfl
  · rw [if_neg writes]
    cases t with
    | delay => exact (footprint_execute m w).delay writes
    | sound => exact (footprint_execute m w).sound writes

/-- A cycle that is completed ticks the timers once its word is executed. -/
theorem value_cycle (m : Machine ρ) (t : Timer) :
    t.value m.cycle.machine
      = if m.completes .cycle then countDown (t.value (m.fetched.execute m.fetch).machine)
        else t.value (m.fetched.execute m.fetch).machine := by
  rw [completes, cycle_eq_ticked, ticked]
  split
  · next operand went =>
    have done : (m.fetched.execute m.fetch).result.isOk = true := by rw [went]; rfl
    rw [if_pos done]
    cases t <;> rfl
  · next trap stopped =>
    have failed : ¬ (m.fetched.execute m.fetch).result.isOk = true := by
      rw [stopped]
      exact Bool.false_ne_true
    rw [if_neg failed]

/-- **One operation** does to a timer what its timings say. -/
theorem value_apply (m : Machine ρ) (t : Timer) (operation : Operation) :
    t.value (m.apply operation).machine
      = (m.timing t operation).foldl Timing.follow (t.value m) := by
  cases operation with
  | cycle =>
    have executed : t.value (m.fetched.execute m.fetch).machine
        = (m.writing t m.fetch).foldl Timing.follow (t.value m) := by
      rw [value_execute]
      cases t <;> rfl
    show t.value m.cycle.machine = _
    rw [value_cycle, executed, timing, List.foldl_append]
    split <;> rfl
  | execute operand => exact value_execute m t _
  | tick => cases t <;> rfl
  | reset => cases t <;> rfl
  | loadContents path contents =>
    cases contents with
    | ok program => exact value_withMemory m _ t
    | error reason => rfl
  | load program => exact value_withMemory m _ t
  | setKey key down => cases t <;> rfl

/-! ### A whole run -/

/-- A run does to a timer what its timings say. -/
theorem value_after (m : Machine ρ) (t : Timer) (operations : List Operation) :
    t.value (m.after operations)
      = (m.timings t operations).foldl Timing.follow (t.value m) := by
  induction operations generalizing m with
  | nil => rfl
  | cons operation operations ih =>
    rw [after_cons, ih, value_apply, ← List.foldl_append]
    rfl

/-- A run that neither writes a timer nor ticks or resets it by hand does nothing to it but
    tick once for each cycle that it completes. -/
theorem timings_of_quiet (m : Machine ρ) (t : Timer) (operations : List Operation)
    (noTick : .tick ∉ operations) (noReset : .reset ∉ operations)
    (unwritten : ∀ w ∈ m.words operations, ¬ t.IsWrittenBy w) :
    m.timings t operations = List.replicate (m.completed operations) .ticked := by
  induction operations generalizing m with
  | nil => rfl
  | cons operation operations ih =>
    rw [List.mem_cons, not_or] at noTick noReset
    rw [words_cons] at unwritten
    have later := ih (m.apply operation).machine noTick.2 noReset.2 fun w hw =>
      unwritten w (List.mem_append_right _ hw)
    have first : m.timing t operation
        = List.replicate (if m.completes operation then 1 else 0) .ticked := by
      cases operation with
      | cycle =>
        have quiet := unwritten m.fetch List.mem_cons_self
        rw [timing, writing, if_neg quiet]
        split <;> rfl
      | execute operand =>
        have quiet := unwritten (Word.ofInt operand) List.mem_cons_self
        rw [timing, writing, if_neg quiet]
        rfl
      | tick => exact absurd rfl noTick.1
      | reset => exact absurd rfl noReset.1
      | _ => rfl
    rw [timings, history, List.flatMap_cons, first, completed, history, List.countP_cons,
      Nat.add_comm, ← List.replicate_append_replicate]
    exact congrArg _ later

/-- Reading the delay timer gives the value that it has, in a cycle before the tick. -/
theorem reg_of_readDelay (m : Machine ρ) {w : Word} (family : w.family = 0xF)
    (variant : w.kk = 0x07) :
    (m.execute w).machine.reg w.x = m.delay
      ∧ (m.fetch = w → m.cycle.machine.reg w.x = m.delay) := by
  have known : Instruction.decode? w = some (.readDelay w.x) :=
    Instruction.decode?_of_names ⟨family, variant, rfl⟩
  have given : ∀ n : Machine ρ, (n.setReg w.x m.delay).reg w.x = m.delay := by
    intro n
    rw [reg_setReg, if_pos rfl]
  constructor
  · rw [execute_of_decode known]
    exact given (m.noting w)
  · rintro rfl
    rw [cycle_of_decode known]
    exact given m.advanced

/-- A cycle that writes a timer leaves the value that was written, less one tick. -/
theorem value_cycle_of_written (m : Machine ρ) {t : Timer} (writes : t.IsWrittenBy m.fetch) :
    t.value m.cycle.machine = countDown (m.reg m.fetch.x) := by
  have done : m.completes .cycle = true := by
    rw [completes, cycle_of_decode (Timer.decode?_of_isWrittenBy writes)]
    rfl
  have applied : t.value m.cycle.machine = _ := value_apply m t .cycle
  rw [applied, timing, writing, if_pos writes, if_pos done]
  rfl

/-- Some cycles after one that wrote a timer it has ticked once for each of them, that one
    included, if nothing else was done to it. -/
theorem value_after_written (m : Machine ρ) {t : Timer} (writes : t.IsWrittenBy m.fetch)
    (between : List Operation) (noTick : .tick ∉ between) (noReset : .reset ∉ between)
    (unwritten : ∀ w ∈ m.cycle.machine.words between, ¬ t.IsWrittenBy w) :
    (t.value (m.cycle.machine.after between)).toNat
      = (m.reg m.fetch.x).toNat - (m.cycle.machine.completed between + 1) := by
  rw [value_after, timings_of_quiet _ t between noTick noReset unwritten,
    Timing.toNat_foldl_replicate, value_cycle_of_written m writes, toNat_countDown]
  omega

/-- **Timers count down from the last write.**  After any run from a machine without a
    program, each timer holds the value that was last written to it, zero if there was
    none since the last reset, less the ticks since: one for each cycle that was completed,
    the one that wrote it included, and one for each tick by hand.  The buzzer sounds as
    long as that is not zero for the sound timer.  So a word that reads the delay timer
    some cycles after one that wrote it gets the value less one for each cycle completed,
    whatever these cycles did. -/
theorem timers_count_down_from_the_last_write (strict : Bool) (random : ρ)
    (operations : List Operation) :
    let start := new strict random
    let m := start.after operations
    (∀ t : Timer, (t.value m).toNat
        = Timing.lastWritten (start.timings t operations)
          - Timing.ticksSince (start.timings t operations))
      ∧ (m.sounding = true
        ↔ 0 < Timing.lastWritten (start.timings .sound operations)
          - Timing.ticksSince (start.timings .sound operations))
      ∧ (Timer.delay.IsWrittenBy m.fetch →
        ∀ between : List Operation, .tick ∉ between → .reset ∉ between →
          (∀ w ∈ m.cycle.machine.words between, ¬ Timer.delay.IsWrittenBy w) →
          ∀ w : Word, w.family = 0xF → w.kk = 0x07 →
            let r := m.cycle.machine.after between
            let cycles := m.cycle.machine.completed between + 1
            ((r.execute w).machine.reg w.x).toNat = (m.reg m.fetch.x).toNat - cycles
              ∧ (r.fetch = w →
                (r.cycle.machine.reg w.x).toNat = (m.reg m.fetch.x).toNat - cycles)) := by
  intro start m
  have closed : ∀ t : Timer, (t.value m).toNat
      = Timing.lastWritten (start.timings t operations)
        - Timing.ticksSince (start.timings t operations) := by
    intro t
    rw [value_after, value_new, Timing.toNat_foldl_follow]
  refine ⟨closed, ?_, ?_⟩
  · rw [← closed .sound]
    show (m.sound != 0) = true ↔ 0 < m.sound.toNat
    simp [BitVec.toNat_eq, Nat.pos_iff_ne_zero]
  · intro writes between noTick noReset unwritten w family variant r cycles
    have left : r.delay.toNat = (m.reg m.fetch.x).toNat - cycles :=
      value_after_written m writes between noTick noReset unwritten
    obtain ⟨executed, cycled⟩ := reg_of_readDelay r family variant
    rw [executed, left]
    refine ⟨rfl, ?_⟩
    intro fetched
    rw [cycled fetched, left]

/-- A cycle that executes `F015` writes the delay timer.  With zeros behind that word,
    another cycle does nothing but tick. -/
theorem cycles_of_write (m : Machine ρ) (here : m.fetch = 0xF015)
    (behind : m.memory.readWord (m.pc + 2) = 0x0000) (lenient : m.strict = false) :
    Timer.delay.IsWrittenBy m.fetch ∧ m.fetch.x = 0x0
      ∧ m.cycle.machine.words [.cycle] = [0x0000]
      ∧ m.cycle.machine.completed [.cycle] = 1 := by
  have writes : Timer.delay.IsWrittenBy m.fetch := by
    rw [here]
    decide
  have write := cycle_of_decode (Timer.decode?_of_isWrittenBy writes)
  have next : m.cycle.machine.fetch = 0x0000 := by
    rw [write]
    exact behind
  have skip : m.cycle.machine.cycle.result = .ok m.cycle.machine.fetch := by
    rw [cycle_of_skip (by rw [next]; decide) (by rw [write]; exact lenient)]
  refine ⟨writes, by rw [here]; decide, congrArg (fun w => [w]) next, ?_⟩
  rw [completed, history, history, List.countP_singleton, completes, skip]
  rfl

/-- A program of the one word `F015`, with five put into the register that it reads. -/
theorem loaded_write :
    let m := (new false (Wheel.ofList [])).after [.load #[0xF0, 0x15], .execute 0x6005]
    m.fetch = 0xF015 ∧ m.memory.readWord (m.pc + 2) = 0x0000 ∧ m.strict = false
      ∧ m.reg 0x0 = 0x05 := by
  have five (memory : Memory) :
      let m := ((new false (Wheel.ofList [])).withMemory memory).after [.execute 0x6005]
      m.fetch = memory.readWord 0x200 ∧ m.memory.readWord (m.pc + 2) = memory.readWord 0x202
        ∧ m.strict = false ∧ m.reg 0x0 = 0x05 := ⟨rfl, rfl, rfl, rfl⟩
  rw [after_cons]
  obtain ⟨here, behind, rest⟩ := five (Memory.initial.overlay programStart #[0xF0, 0x15])
  refine ⟨here.trans ?_, behind.trans ?_, rest⟩
  · simp [Memory.readWord, Memory.read_overlay, programStart]
  · simp [Memory.readWord, Memory.read_overlay, Memory.read_initial, programStart, Font.start]
    decide

/-- The theorem at that program: what was written as five is read as three when one more
    cycle was completed. -/
theorem delay_is_read_two_cycles_later :
    let m := (new false (Wheel.ofList [])).after [.load #[0xF0, 0x15], .execute 0x6005]
    Timer.delay.IsWrittenBy m.fetch
      ∧ (∀ w ∈ m.cycle.machine.words [.cycle], ¬ Timer.delay.IsWrittenBy w)
      ∧ (((m.cycle.machine.after [.cycle]).execute 0xF107).machine.reg 0x1).toNat = 3 := by
  obtain ⟨here, behind, lenient, five⟩ := loaded_write
  obtain ⟨-, -, reads⟩ := timers_count_down_from_the_last_write false (Wheel.ofList [])
    [.load #[0xF0, 0x15], .execute 0x6005]
  intro m
  obtain ⟨writes, x, words, completed⟩ := cycles_of_write m here behind lenient
  have unwritten : ∀ w ∈ m.cycle.machine.words [.cycle], ¬ Timer.delay.IsWrittenBy w := by
    rw [words]
    simpa using (by decide : ¬ Timer.delay.IsWrittenBy 0x0000)
  obtain ⟨read, -⟩ := reads writes [.cycle] (by simp) (by simp) unwritten 0xF107 rfl rfl
  refine ⟨writes, unwritten, read.trans ?_⟩
  rw [x, five, completed]
  rfl

end Machine

end ChipEight
