import ChipEight.Proofs.Cycles
import ChipEight.Proofs.Naming
import ChipEight.Proofs.Replacement
import Mathlib.Data.List.Defs

namespace ChipEight

/-!
# What is seen of the keypad

Three kinds of words inspect the keypad: two that test one key, and one that waits for the
lowest key that is down.  A program sees nothing else of it.

* `Word.TestsKey`, `Word.AwaitsKey` — these words;
* `Machine.SameButKeys` — two machines that differ at most in their keypads;
* `Machine.AgreeOnKeys` — their keypads agree on what a word inspects;
* `Machine.lockstep_sameButKeys` — then no part of an operation tells the machines apart;
* `Machine.acts` — what a run does besides moving keys;
* `Machine.Abreast` — two runs that look the same and differ at most in the keys;
* `Machine.keys_matter_only_where_inspected` — so it is if the keypads agree wherever a
  word inspects them, whatever else is pressed and released.
-/

/-! ### Words that inspect the keypad -/

namespace Word

/-- The word tests a key, the one that a register names. -/
def TestsKey (w : Word) : Prop := w.family = 0xE ∧ w.kk ∈ [0x9E, 0xA1]

instance (w : Word) : Decidable w.TestsKey := inferInstanceAs (Decidable (_ ∧ _))

/-- The word waits for a key, of which it takes the lowest one that is down. -/
def AwaitsKey (w : Word) : Prop := w.family = 0xF ∧ w.kk = 0x0A

instance (w : Word) : Decidable w.AwaitsKey := inferInstanceAs (Decidable (_ ∧ _))

end Word

namespace Machine

variable {ρ : Type}

/-- Two machines that differ at most in their keypads. -/
def SameButKeys (m n : Machine ρ) : Prop := ∃ keypad, n = m.withKeypad keypad

namespace SameButKeys

variable {l m n : Machine ρ}

/-- If the second machine differs at most there from the first, so does the first from the
    second. -/
theorem symm (same : SameButKeys m n) : SameButKeys n m := by
  obtain ⟨keypad, rfl⟩ := same
  exact ⟨m.keypad, rfl⟩

/-- Of three machines the middle one may be left out. -/
theorem trans (first : SameButKeys l m) (second : SameButKeys m n) : SameButKeys l n := by
  obtain ⟨keypad, rfl⟩ := first
  obtain ⟨keypad', rfl⟩ := second
  exact ⟨keypad', withKeypad_withKeypad l keypad keypad'⟩

end SameButKeys

/-- The keypads of two machines agree on what a word inspects: on the key that the first
    machine's register names if the word tests one, and on the lowest key that is down, or
    on there being none, if the word waits for one. -/
structure AgreeOnKeys (m n : Machine ρ) (w : Word) : Prop where
  tested : w.TestsKey →
    n.keypad.isDown ((m.reg w.x).setWidth 4) = m.keypad.isDown ((m.reg w.x).setWidth 4)
  lowest : w.AwaitsKey → n.keypad.lowest? = m.keypad.lowest?

/-- Any two keypads agree on a word that inspects none. -/
theorem AgreeOnKeys.of_blind (m n : Machine ρ) {w : Word} (noTest : ¬ w.TestsKey)
    (noWait : ¬ w.AwaitsKey) : AgreeOnKeys m n w where
  tested test := absurd test noTest
  lowest wait := absurd wait noWait

/-- Fetching the word changes nothing about that. -/
theorem AgreeOnKeys.executing {m n : Machine ρ} {w : Word} (agree : AgreeOnKeys m n w)
    (operation : Operation) : AgreeOnKeys (m.executing operation) (n.executing operation) w := by
  cases operation with
  | cycle => exact ⟨agree.tested, agree.lowest⟩
  | _ => exact agree

/-! ### One operation -/

/-- A condition holds on both machines or on neither, if the keypads agree on its word. -/
theorem holds_withKeypad {m : Machine ρ} {keypad : Keypad} {w : Word} {c : Condition}
    (tests : w.Tests c) (agree : AgreeOnKeys m (m.withKeypad keypad) w) :
    c.holds (m.withKeypad keypad) = c.holds m := by
  cases c with
  | keyDown x =>
    obtain ⟨family, variant, rfl⟩ := tests
    exact agree.tested ⟨family, by simp [variant]⟩
  | keyUp x =>
    obtain ⟨family, variant, rfl⟩ := tests
    exact congrArg not (agree.tested ⟨family, by simp [variant]⟩)
  | _ => rfl

variable [RandomSource ρ]

/-- A word is executed alike with another keypad, if the two agree on it. -/
theorem execute_withKeypad {m : Machine ρ} {keypad : Keypad} {w : Word}
    (agree : AgreeOnKeys m (m.withKeypad keypad) w) :
    (m.withKeypad keypad).execute w
      = ⟨(m.execute w).machine.withKeypad keypad, (m.execute w).notices,
        (m.execute w).result⟩ := by
  refine execute_replace (r := { keypad := some keypad }) rfl (fun i known => ?_) fun _ => rfl
  have names := Instruction.names_of_decode? known
  have noted : AgreeOnKeys (m.noting w) ((m.noting w).withKeypad keypad) w :=
    ⟨agree.tested, agree.lowest⟩
  exact {
    calls := fun _ => rfl
    draws := fun _ _ _ => rfl
    tested := by
      rintro c rfl
      exact holds_withKeypad names noted
    lowest := by
      rintro x rfl
      exact agree.lowest ⟨names.1, names.2.1⟩ }

/-- No part of an operation tells apart two machines that differ at most in their keypads, as
    long as these agree on what the words inspect. -/
theorem lockstep_sameButKeys : Lockstep (ρ := ρ) SameButKeys AgreeOnKeys where
  fetch := by
    rintro m _ ⟨keypad, rfl⟩
    rfl
  fetched := by
    rintro m _ ⟨keypad, rfl⟩
    exact ⟨keypad, rfl⟩
  execute := by
    rintro m _ w ⟨keypad, rfl⟩ agree
    rw [execute_withKeypad agree]
    exact ⟨rfl, rfl, keypad, rfl⟩
  tick := by
    rintro m _ ⟨keypad, rfl⟩
    exact ⟨keypad, rfl⟩
  place := by
    rintro m _ ⟨keypad, rfl⟩ program
    exact ⟨keypad, rfl⟩
  setKey := by
    rintro m _ ⟨keypad, rfl⟩ key down
    exact ⟨keypad.put key down, rfl⟩
  reset := by
    rintro m _ ⟨keypad, rfl⟩
    exact ⟨.released, rfl⟩

end Machine

/-! ### Moving keys, and everything else -/

/-- Whether an operation moves a key. -/
def Operation.movesKey : Operation → Bool
  | .setKey .. => true
  | _ => false

namespace Machine

variable {ρ : Type} [RandomSource ρ]

/-- What a run does besides moving keys, each operation with the machine that it met. -/
def acts (m : Machine ρ) (operations : List Operation) : List (Machine ρ × Operation) :=
  (m.history operations).filter fun p => !p.2.movesKey

/-- The first operation comes first, unless it moves a key. -/
theorem acts_cons (m : Machine ρ) (operation : Operation) (operations : List Operation) :
    m.acts (operation :: operations)
      = if operation.movesKey then (m.apply operation).machine.acts operations
        else (m, operation) :: (m.apply operation).machine.acts operations := by
  rw [acts, history, List.filter_cons]
  cases operation.movesKey <;> rfl

/-- What a run in two parts does besides moving keys. -/
theorem acts_append (m : Machine ρ) (first second : List Operation) :
    m.acts (first ++ second) = m.acts first ++ (m.after first).acts second := by
  simp only [acts, history_append, List.filter_append]

/-- Moving a key changes nothing but the keypad. -/
theorem sameButKeys_of_movesKey (m : Machine ρ) {operation : Operation}
    (moves : operation.movesKey = true) : SameButKeys m (m.apply operation).machine := by
  cases operation with
  | setKey key down => exact ⟨m.keypad.put key down, rfl⟩
  | _ => exact nomatch moves

/-- A run that only moves keys does nothing else, and changes nothing but the keypad. -/
theorem acts_of_moves (m : Machine ρ) {operations : List Operation}
    (moves : ∀ operation ∈ operations, operation.movesKey = true) :
    m.acts operations = [] ∧ SameButKeys m (m.after operations) := by
  induction operations generalizing m with
  | nil => exact ⟨rfl, m.keypad, rfl⟩
  | cons operation operations ih =>
    have here := moves operation List.mem_cons_self
    obtain ⟨none, later⟩ := ih (m.apply operation).machine fun o ho =>
      moves o (List.mem_cons_of_mem _ ho)
    rw [acts_cons, if_pos here, after_cons]
    exact ⟨none, (sameButKeys_of_movesKey m here).trans later⟩

/-- Two runs that look the same but for the keys: each operation besides those that move
    keys gives the same answer, and leaves machines that differ at most in their keypads, as
    do the two runs as a whole. -/
structure Abreast (m n : Machine ρ) (left right : List Operation) : Prop where
  acts : List.Forall₂ (fun p q => p.1.answer p.2 = q.1.answer q.2
    ∧ SameButKeys (p.1.apply p.2).machine (q.1.apply q.2).machine) (m.acts left) (n.acts right)
  final : SameButKeys (m.after left) (n.after right)

/-- **Two runs** that do the same besides moving keys look the same, as long as their keypads
    agree on what the words inspect. -/
theorem abreast_of_agree {m n : Machine ρ} (same : SameButKeys m n) (left right : List Operation)
    (acts : left.filter (!·.movesKey) = right.filter (!·.movesKey))
    (agree : ∀ p ∈ (m.acts left).zip (n.acts right), ∀ w ∈ p.1.1.word? p.1.2,
      AgreeOnKeys p.1.1 p.2.1 w) :
    Abreast m n left right := by
  induction left generalizing m n right with
  | nil =>
    -- All that is left of the second run moves keys.
    rw [List.filter_nil, eq_comm, List.filter_eq_nil_iff] at acts
    have onlyKeys : ∀ o ∈ right, o.movesKey = true := by
      intro o ho
      simpa using acts o ho
    obtain ⟨none, moved⟩ := n.acts_of_moves onlyKeys
    refine ⟨?_, same.trans moved⟩
    rw [none]
    exact .nil
  | cons operation left ih =>
    by_cases moves : operation.movesKey = true
    · rw [List.filter_cons_of_neg (by simp [moves])] at acts
      rw [acts_cons, if_pos moves] at agree
      have moved := sameButKeys_of_movesKey m moves
      obtain ⟨rest, final⟩ := ih (moved.symm.trans same) right acts agree
      refine ⟨?_, final⟩
      rw [acts_cons, if_pos moves]
      exact rest
    · rw [List.filter_cons_of_pos (by simp [moves]), eq_comm, List.filter_eq_cons_iff] at acts
      -- The second run moves some keys, and then does what the first one does.
      obtain ⟨keys, right, rfl, noActs, -, acts⟩ := acts
      have onlyKeys : ∀ o ∈ keys, o.movesKey = true := by
        intro o ho
        simpa using noActs o ho
      obtain ⟨none, moved⟩ := n.acts_of_moves onlyKeys
      have met := same.trans moved
      have right_acts : n.acts (keys ++ operation :: right)
          = (n.after keys, operation) :: ((n.after keys).apply operation).machine.acts right := by
        rw [acts_append, none, List.nil_append, acts_cons, if_neg moves]
      rw [acts_cons, if_neg moves, right_acts, List.zip_cons_cons] at agree
      have here : ∀ w ∈ m.word? operation,
          AgreeOnKeys (m.executing operation) ((n.after keys).executing operation) w := by
        intro w hw
        exact (agree _ List.mem_cons_self w hw).executing operation
      have step := lockstep_sameButKeys.apply met here
      obtain ⟨rest, final⟩ := ih step.machine right acts.symm fun p hp =>
        agree p (List.mem_cons_of_mem _ hp)
      refine ⟨?_, ?_⟩
      · rw [acts_cons, if_neg moves, right_acts]
        refine .cons ⟨?_, step.machine⟩ rest
        rw [answer, answer, step.notices, step.result]
      · rw [after_append]
        exact final

/-! ### All of it -/

/-- **Keys matter only where they are inspected.**  Take two machines that differ at most in
    their keypads, and two runs that do the same besides moving keys.  If the keypads agree on
    the key that a word tests, whenever one is executed that does, and on the lowest key that
    is down whenever a word waits for one, then both runs give the same results and notices,
    stop at the same words, and never differ in anything but their keypads.  A run that
    executes no such word is independent of the keys. -/
theorem keys_matter_only_where_inspected {m n : Machine ρ} (same : SameButKeys m n)
    {left right : List Operation}
    (acts : left.filter (!·.movesKey) = right.filter (!·.movesKey)) :
    ((∀ p ∈ (m.acts left).zip (n.acts right), ∀ w ∈ p.1.1.word? p.1.2,
        AgreeOnKeys p.1.1 p.2.1 w) →
      Abreast m n left right)
      ∧ ((∀ w ∈ m.words left, ¬ w.TestsKey ∧ ¬ w.AwaitsKey) → Abreast m n left right) := by
  refine ⟨abreast_of_agree same left right acts, fun blind => ?_⟩
  refine abreast_of_agree same left right acts ?_
  rintro ⟨p, q⟩ mem w executed
  -- What is executed in the first run is one of its words.
  have met : p ∈ m.history left := (List.mem_filter.mp (List.of_mem_zip mem).1).1
  obtain ⟨noTest, noWait⟩ := blind w (List.mem_filterMap.mpr ⟨p, met, executed⟩)
  exact .of_blind p.1 q.1 noTest noWait

/-- The theorem at a wait for a key and a test of the key it took: of the keys that are down,
    the second machine has some more, but neither a lower one nor the one tested. -/
theorem another_key_is_not_seen :
    let m := new false (Wheel.ofList [])
    let n := m.withKeypad (.ofList [0x7])
    let left := [.setKey 0x3 true, .execute 0xF00A, .setKey 0x3 false, .execute 0xE09E]
    let right := [.setKey 0x5 true, .setKey 0x3 true, .execute 0xF00A, .setKey 0x3 false,
      .setKey 0x1 true, .execute 0xE09E]
    SameButKeys m n
      ∧ left.filter (!·.movesKey) = right.filter (!·.movesKey)
      ∧ (∀ p ∈ (m.acts left).zip (n.acts right), ∀ w ∈ p.1.1.word? p.1.2,
        AgreeOnKeys p.1.1 p.2.1 w)
      ∧ Abreast m n left right := by
  intro m n left right
  have same : SameButKeys m n := ⟨_, rfl⟩
  have acts : left.filter (!·.movesKey) = right.filter (!·.movesKey) := rfl
  have pairs : (m.acts left).zip (n.acts right)
      = [((m.after (left.take 1), .execute 0xF00A), (n.after (right.take 2), .execute 0xF00A)),
        ((m.after (left.take 3), .execute 0xE09E), (n.after (right.take 5), .execute 0xE09E))] :=
    rfl
  have agree : ∀ p ∈ (m.acts left).zip (n.acts right), ∀ w ∈ p.1.1.word? p.1.2,
      AgreeOnKeys p.1.1 p.2.1 w := by
    intro p mem w executed
    rw [pairs, List.mem_cons, List.mem_singleton] at mem
    rcases mem with rfl | rfl
    · obtain rfl : 0xF00A = w := Option.some.inj executed
      exact ⟨fun test => absurd test (by decide), fun _ => by decide⟩
    · obtain rfl : 0xE09E = w := Option.some.inj executed
      exact ⟨fun _ => by decide, fun wait => absurd wait (by decide)⟩
  exact ⟨same, acts, agree, (keys_matter_only_where_inspected same acts).1 agree⟩

end Machine

end ChipEight
