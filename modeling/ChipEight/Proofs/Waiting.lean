import ChipEight.Proofs.Fields
import ChipEight.Proofs.Keys

namespace ChipEight

/-!
# Waiting for a key

A word that waits for a key is executed again and again until there is one.  All that is left
of the wait is that the timers went on.

* `Machine.waiting` — the machine while it waits, but for its timers;
* `Machine.later` — the machine some ticks later, with nothing else done to it;
* `Machine.cycle_of_released`, `Machine.cycle_of_lowest` — a cycle that waits, and a cycle that
  takes a key;
* `Machine.after_waiting` — hence any number of cycles that wait, by induction on their number;
* `Machine.waiting_shows_only_in_the_timers` — and a key that is taken after them is taken as
  if it had been there at once.
-/

/-- A word that waits for a key names the instruction that waits. -/
theorem Word.AwaitsKey.decode? {w : Word} (awaits : w.AwaitsKey) :
    Instruction.decode? w = some (.awaitKey w.x) :=
  Instruction.decode?_of_names ⟨awaits.1, awaits.2, rfl⟩

namespace Machine

variable {ρ : Type}

/-! ### Ticks and nothing else -/

/-- The machine some ticks later. -/
def later (m : Machine ρ) (ticks : Nat) : Machine ρ :=
  { m with
    delay := BitVec.ofNat 8 (m.delay.toNat - ticks)
    sound := BitVec.ofNat 8 (m.sound.toNat - ticks) }

/-- The delay timer some ticks later. -/
@[simp] theorem toNat_delay_later (m : Machine ρ) (ticks : Nat) :
    (m.later ticks).delay.toNat = m.delay.toNat - ticks := by
  have := m.delay.isLt
  simp only [later, BitVec.toNat_ofNat]
  omega

/-- The sound timer some ticks later. -/
@[simp] theorem toNat_sound_later (m : Machine ρ) (ticks : Nat) :
    (m.later ticks).sound.toNat = m.sound.toNat - ticks := by
  have := m.sound.isLt
  simp only [later, BitVec.toNat_ofNat]
  omega

/-- Machines that agree but for the timers are the same if the timers show the same numbers. -/
theorem eq_of_timers {m n : Machine ρ} (same : n = { m with delay := n.delay, sound := n.sound })
    (delay : n.delay.toNat = m.delay.toNat) (sound : n.sound.toNat = m.sound.toNat) : n = m := by
  rw [same, BitVec.eq_of_toNat_eq delay, BitVec.eq_of_toNat_eq sound]

/-- One more tick. -/
theorem tick_later (m : Machine ρ) (ticks : Nat) : (m.later ticks).tick = m.later (ticks + 1) := by
  refine eq_of_timers rfl ?_ ?_
  · show (countDown (m.later ticks).delay).toNat = _
    rw [toNat_countDown, toNat_delay_later, toNat_delay_later, Nat.sub_sub]
  · show (countDown (m.later ticks).sound).toNat = _
    rw [toNat_countDown, toNat_sound_later, toNat_sound_later, Nat.sub_sub]

/-- The ticks of a machine may come before or after its last one. -/
theorem later_tick (m : Machine ρ) (ticks : Nat) : m.tick.later ticks = m.later (ticks + 1) := by
  refine eq_of_timers rfl ?_ ?_
  · have first : m.tick.delay.toNat = m.delay.toNat - 1 := toNat_countDown m.delay
    rw [toNat_delay_later, toNat_delay_later, first]
    omega
  · have first : m.tick.sound.toNat = m.sound.toNat - 1 := toNat_countDown m.sound
    rw [toNat_sound_later, toNat_sound_later, first]
    omega

/-- No tick is needed for the machine as it is. -/
@[simp] theorem later_zero (m : Machine ρ) : m.later 0 = m :=
  eq_of_timers rfl (toNat_delay_later m 0) (toNat_sound_later m 0)

/-! ### One cycle -/

/-- The machine while it waits at its word, but for its timers. -/
def waiting (m : Machine ρ) : Machine ρ := { m with operand := m.fetch, redraw := false }

/-- The machine once it has taken a key, but for its timers. -/
def taking (m : Machine ρ) (key : Nibble) : Machine ρ :=
  { m.waiting.setReg m.fetch.x (key.setWidth 8) with pc := m.pc + 2 }

variable [RandomSource ρ]

/-- A cycle without a key goes back to its word. -/
theorem cycle_of_released {m : Machine ρ} (awaits : m.fetch.AwaitsKey)
    (released : ∀ key, m.keypad.isDown key = false) :
    m.cycle = ⟨m.waiting.tick, [.executing (m.pc + 2) m.fetch], .ok m.fetch⟩ := by
  have none : m.advanced.keypad.lowest? = none := m.keypad.lowest?_eq_none_iff.mpr released
  have back : m.advanced.perform (.awaitKey m.fetch.x) = m.waiting := by
    rw [perform, awaitKey, none, here_advanced]
    rfl
  rw [cycle_of_decode awaits.decode?, back]
  rfl

/-- Such a cycle answers the word. -/
theorem answer_of_released {m : Machine ρ} (awaits : m.fetch.AwaitsKey)
    (released : ∀ key, m.keypad.isDown key = false) :
    (m.answer .cycle).2 = .ok (.operand m.fetch) := by
  show (m.cycle.widen .trap .operand : Outcome ρ Operation.Fault Operation.Reply).result = _
  rw [cycle_of_released awaits released]
  rfl

/-- A cycle with a key takes the lowest one and goes on. -/
theorem cycle_of_lowest {m : Machine ρ} (awaits : m.fetch.AwaitsKey) {key : Nibble}
    (lowest : m.keypad.lowest? = some key) :
    m.cycle = ⟨(m.taking key).tick, [.executing (m.pc + 2) m.fetch], .ok m.fetch⟩ := by
  have found : m.advanced.keypad.lowest? = some key := lowest
  have taken : m.advanced.perform (.awaitKey m.fetch.x) = m.taking key := by
    rw [perform, awaitKey, found]
    rfl
  rw [cycle_of_decode awaits.decode?, taken]
  rfl

/-! ### Any number of cycles -/

/-- Cycles without a key leave the machine waiting, as many ticks later, and each of them
    answers the word. -/
theorem after_waiting {m : Machine ρ} (awaits : m.fetch.AwaitsKey)
    (released : ∀ key, m.keypad.isDown key = false) (n : Nat) :
    m.after (List.replicate (n + 1) .cycle) = m.waiting.later (n + 1)
      ∧ ∀ answer ∈ m.answers (List.replicate (n + 1) .cycle),
        answer.2 = .ok (.operand m.fetch) := by
  induction n generalizing m with
  | zero =>
    have waited : (m.apply .cycle).machine = m.waiting.tick :=
      congrArg Outcome.machine (cycle_of_released awaits released)
    rw [List.replicate_one, after_cons, after_nil, waited, ← later_zero m.waiting.tick, later_tick]
    exact ⟨rfl, List.forall_mem_singleton.mpr (answer_of_released awaits released)⟩
  | succ n ih =>
    -- The machine that the first cycle leaves waits at the same word.
    obtain ⟨rest, answers⟩ := ih (m := m.waiting.tick) awaits released
    have waited : (m.apply .cycle).machine = m.waiting.tick :=
      congrArg Outcome.machine (cycle_of_released awaits released)
    have still : m.waiting.tick.waiting = m.waiting.tick := rfl
    rw [List.replicate_succ, after_cons, answers_cons, waited, rest, still, later_tick]
    exact ⟨rfl, List.forall_mem_cons.mpr ⟨answer_of_released awaits released, answers⟩⟩

/-! ### All of it -/

/-- **Waiting shows only in the timers.**  A machine at a word that waits for a key, with all
    keys up, goes through any number of cycles and keeps all it has, except that the word executed
    last is that word, that nothing was drawn, and that the timers tick once for each cycle.  A
    cycle that then finds some keys down takes the lowest one, goes on behind the word and ticks;
    so the wait makes no difference to it but in the timers. -/
theorem waiting_shows_only_in_the_timers {m : Machine ρ} (awaits : m.fetch.AwaitsKey)
    (released : ∀ key, m.keypad.isDown key = false) {n : Nat} (positive : 1 ≤ n) :
    let waited := m.after (List.replicate n .cycle)
    waited = { m with
        operand := m.fetch, redraw := false, delay := waited.delay, sound := waited.sound }
      ∧ waited.delay.toNat = m.delay.toNat - n
      ∧ waited.sound.toNat = m.sound.toNat - n
      ∧ (∀ answer ∈ m.answers (List.replicate n .cycle), answer.2 = .ok (.operand m.fetch))
      ∧ ∀ keypad : Keypad, (∃ key, keypad.isDown key = true) →
        ∃ key, keypad.isDown key = true ∧ (∀ lower < key, keypad.isDown lower = false)
          ∧ let taken := (waited.withKeypad keypad).cycle
            let atOnce := (m.withKeypad keypad).cycle
            taken.machine = { (waited.withKeypad keypad).setReg m.fetch.x (key.setWidth 8) with
                pc := m.pc + 2
                delay := countDown waited.delay
                sound := countDown waited.sound }
              ∧ taken.machine.pc.toNat = (m.pc.toNat + 2) % 65536
              ∧ taken.result = .ok m.fetch
              ∧ atOnce.result = .ok m.fetch
              ∧ taken.notices = atOnce.notices
              ∧ taken.machine = atOnce.machine.later n := by
  intro waited
  obtain ⟨k, rfl⟩ := Nat.exists_eq_add_of_le' positive
  obtain ⟨waited_eq, answers⟩ := after_waiting awaits released k
  have kept : waited = m.waiting.later (k + 1) := waited_eq
  clear_value waited
  subst kept
  refine ⟨rfl, toNat_delay_later m.waiting _, toNat_sound_later m.waiting _, answers,
    fun keypad down => ?_⟩
  obtain ⟨key, lowest⟩ := keypad.exists_lowest down
  obtain ⟨pressed, above⟩ := (keypad.lowest?_eq_some_iff key).mp lowest
  have taken := cycle_of_lowest (m := (m.waiting.later (k + 1)).withKeypad keypad) awaits lowest
  have atOnce := cycle_of_lowest (m := m.withKeypad keypad) awaits lowest
  -- A wait in front of the last cycle adds to the ticks, and to nothing else.
  have late : (((m.waiting.later (k + 1)).withKeypad keypad).taking key).tick
      = ((m.withKeypad keypad).taking key).tick.later (k + 1) := by
    have same : ((m.waiting.later (k + 1)).withKeypad keypad).taking key
        = ((m.withKeypad keypad).taking key).later (k + 1) := rfl
    rw [same, tick_later, later_tick]
  refine ⟨key, pressed, above, ?_⟩
  simp only [taken, atOnce]
  exact ⟨rfl, BitVec.toNat_add m.pc 2, rfl, rfl, rfl, late⟩

/-- The theorem at a word around the end of the memory that waits longer than its delay timer
    runs, until two keys are down. -/
theorem lower_of_two_keys_is_taken_around_the_end :
    let m := { new false (Wheel.ofList []) with
      memory := (Memory.blank.write 0x0FFF 0xF1).write 0x0000 0x0A, pc := 0xFFFF, delay := 3 }
    let waited := m.after (List.replicate 5 .cycle)
    let taken := (waited.withKeypad (.ofList [0x9, 0x7])).cycle.machine
    m.fetch.AwaitsKey ∧ (∀ key, m.keypad.isDown key = false) ∧ 1 ≤ 5
      ∧ waited.pc = 0xFFFF ∧ waited.delay = 0 ∧ taken.pc = 0x0001 ∧ taken.reg 0x1 = 0x07 := by
  intro m waited taken
  have word : m.fetch = 0xF10A := by
    have high : m.memory.read 0xFFFF = 0xF1 := by
      rw [Memory.read_write, if_neg (by decide), Memory.read_write, if_pos (by decide)]
    have low : m.memory.read 0x0000 = 0x0A := by
      rw [Memory.read_write, if_pos rfl]
    have next : (0xFFFF : Word) + 1 = 0x0000 := by decide
    show m.memory.readWord 0xFFFF = 0xF10A
    rw [Memory.readWord, next, high, low]
    rfl
  have awaits : m.fetch.AwaitsKey := by
    rw [word]
    decide
  have released : ∀ key, m.keypad.isDown key = false := fun key => Bank.entry_fill false key
  have pc : m.pc = 0xFFFF := rfl
  have delay : m.delay = 3 := rfl
  -- From here on the 4096 bytes of this machine must not be looked at.
  clear_value m
  obtain ⟨kept, late, -, -, takes⟩ :=
    waiting_shows_only_in_the_timers awaits released (by decide : 1 ≤ 5)
  obtain ⟨key, pressed, above, machine, -⟩ := takes (.ofList [0x9, 0x7]) ⟨0x7, by decide⟩
  have lowest : (Keypad.ofList [0x9, 0x7]).lowest? = some key :=
    (Keypad.lowest?_eq_some_iff _ key).mpr ⟨pressed, above⟩
  obtain rfl : 0x7 = key := Option.some.inj lowest
  refine ⟨awaits, released, by decide, ?_, ?_, ?_, ?_⟩
  · exact (congrArg Machine.pc kept).trans pc
  · apply BitVec.eq_of_toNat_eq
    rw [late, delay]
    rfl
  · exact (congrArg Machine.pc machine).trans (by rw [pc]; rfl)
  · have held : taken.reg 0x1
        = ((waited.withKeypad (.ofList [0x9, 0x7])).setReg m.fetch.x 0x07).reg 0x1 :=
      congrArg (fun n => n.reg 0x1) machine
    rw [held, reg_setReg, word, if_pos (by decide)]

end Machine

end ChipEight
