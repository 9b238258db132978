import ChipEight.Proofs.Loose.Dispatch
import ChipEight.Proofs.Picture
import ChipEight.Proofs.Step

namespace ChipEight

/-!
# Operations on the loose machine

* `Loose.resultOf` — what came of an operation on the machine, as a result of the loose
  machine;
* `Loose.execute_loose`, `Loose.Runs.execute`, `Loose.cycle_loose` — words and cycles;
* `Loose.splice_numbers` — replacing a stretch of the memory keeps its length, if what
  comes into its place fits;
* `Loose.operate_loose` — hence every operation on the loose machine does what it does on
  the machine, and fails only where that fails.
-/

namespace Loose

variable {ρ α β ε : Type}

/-- What came of an operation on the machine, as a result of the loose machine. -/
def resultOf (fault : ε → Fault) (reply : α → β) (r : Outcome ρ ε α) :
    EStateM.Result Fault (Loose ρ) β :=
  match r.result with
  | .ok a => .ok (reply a) r.machine.loose
  | .error e => .error (fault e) r.machine.loose

/-- The fault of a trap. -/
def faultOfTrap (t : Trap) : Fault := .trap t.operand.toNat

/-- The fault of a program that was not loaded. -/
def faultOfLoad : LoadFault → Fault
  | ⟨text, .noPath⟩ => .noPath text
  | ⟨path, reason⟩ => .unreadable path reason

/-- The fault of an operation. -/
def faultOf : Operation.Fault → Fault
  | .trap t => faultOfTrap t
  | .load f => faultOfLoad f

/-- The number that an operation answers. -/
def replyOf : Operation.Reply → Option Int
  | .none => none
  | .size bytes => some bytes
  | .operand word => some word.toNat

variable {m m' : Machine ρ}

/-- A step after one that failed does not happen. -/
theorem bind_loose_of_error {p : Step ρ α} {f : α → Step ρ β} {fault : Fault} {s : Loose ρ}
    (failed : p m.loose = .error fault s) : (p >>= f) m.loose = .error fault s := by
  show EStateM.bind p f m.loose = _
  rw [EStateM.bind, failed]

/-- A step and an answer that shows its result. -/
theorem some_loose {p : Step ρ Int} {fault : ε → Fault} {reply : α → Int}
    {r : Outcome ρ ε α} (done : p m.loose = resultOf fault reply r) :
    (p >>= fun n => pure (some n)) m.loose
      = resultOf fault (fun a => some (reply a)) r := by
  cases went : r.result with
  | ok a =>
    rw [resultOf, went] at done
    rw [resultOf, went]
    have done : Runs p m (reply a) r.machine := done
    exact bind_loose done
  | error e =>
    rw [resultOf, went] at done
    rw [resultOf, went]
    exact bind_loose_of_error done

/-- What comes of executing a word, as what comes of an operation. -/
theorem resultOf_widen (r : Outcome ρ Trap Word) :
    resultOf faultOf replyOf (r.widen .trap .operand)
      = resultOf faultOfTrap (fun w => some (w.toNat : Int)) r := by
  obtain ⟨machine, notices, result⟩ := r
  cases result <;> rfl

/-! ### Timers and keys -/

/-- Taking one off a timer, which stands still at zero. -/
theorem countDown_loose {timer : Loose ρ → Int} {put : Loose ρ → Int → Loose ρ} {b : Byte}
    (now : timer m.loose = b.toNat) (kept : put m.loose b.toNat = m.loose)
    (after : put m.loose (Machine.countDown b).toNat = m'.loose) :
    Runs (countDown timer put) m () m' := by
  refine Runs.bind (Runs.look timer) ?_
  rw [now]
  have next := Machine.toNat_countDown b
  split
  · next stopped =>
    have same : ((Machine.countDown b).toNat : Int) = b.toNat := by omega
    have same : m.loose = m'.loose := by rw [← after, same, kept]
    exact congrArg (EStateM.Result.ok ()) same
  · next running =>
    have less : (b.toNat : Int) - 1 = (Machine.countDown b).toNat := by omega
    rw [less]
    exact Runs.change after

/-- Both timers one tick later. -/
theorem tick_loose (m : Machine ρ) : Runs tick m () m.tick := by
  have delay : Runs (countDown Loose.delay fun s value => { s with delay := value }) m ()
      { m with delay := Machine.countDown m.delay } := countDown_loose rfl rfl rfl
  exact Runs.bind delay (countDown_loose rfl rfl rfl)

/-- Moving a key. -/
theorem setKey_loose (m : Machine ρ) (key : Nibble) (down : Bool) :
    Runs (writeAt Loose.keys (fun s xs => { s with keys := xs }) key.toNat down) m ()
      (m.setKey key down) := by
  refine Runs.writeAt ?_ ?_
  · show key.toNat < m.keypad.keys.toList.length
    rw [Bank.toList, Vector.length_toList]
    exact key.isLt
  · exact congrArg (fun keys => ({ m.loose with keys := keys } : Loose ρ))
      (Vector.toList_set key.isLt).symm

/-! ### Programs -/

/-- Replacing a stretch is done entry by entry. -/
theorem map_splice (f : α → β) (xs : List α) (start stop : Nat) (ys : List α) :
    (splice xs start stop ys).map f = splice (xs.map f) start stop (ys.map f) := by
  simp only [splice, List.map_append, List.map_take, List.map_drop]

/-- The bytes of a memory with a block laid over it. -/
theorem getElem?_overlay (memory : Memory) (start : Nat) (block : Array Byte) (i : Nat) :
    (memory.overlay start block).bytes.toList[i]?
      = memory.bytes.toList[i]?.map fun old =>
          if start ≤ i then (block[i - start]?).getD old else old := by
  by_cases inside : i < 4096
  · simp [Memory.overlay, inside]
  · simp [Memory.overlay, inside]

/-- Laying a block over the memory replaces a stretch by as many bytes as it had, namely
    by the part of the block that fits. -/
theorem splice_overlay (memory : Memory) (start : Nat) (fits : start ≤ 4096)
    (block : Array Byte) :
    splice memory.bytes.toList start (start + (block.toList.take (4096 - start)).length)
        (block.toList.take (4096 - start))
      = (memory.overlay start block).bytes.toList := by
  have size : memory.bytes.toList.length = 4096 := Vector.length_toList
  apply List.ext_getElem?
  intro i
  rw [getElem?_overlay, splice, List.append_assoc]
  have front : (memory.bytes.toList.take start).length = start := by
    rw [List.length_take, size]
    omega
  have middle : (block.toList.take (4096 - start)).length = min (4096 - start) block.size := by
    rw [List.length_take, Array.length_toList]
  -- A place lies in front of the block, under it, behind it, or behind the whole memory.
  rcases Nat.lt_or_ge i start with before | behind
  · rw [List.getElem?_append_left (by omega), List.getElem?_take_of_lt before]
    simp only [if_neg (Nat.not_le.mpr before), Option.map_id']
  · rw [List.getElem?_append_right (by omega), front]
    rcases Nat.lt_or_ge (i - start) (min (4096 - start) block.size) with within | past
    · have inside : i < memory.bytes.toList.length := by omega
      have here : i - start < block.size := by omega
      rw [List.getElem?_append_left (by omega), List.getElem?_take_of_lt (by omega)]
      rw [List.getElem?_eq_getElem inside, Array.getElem?_toList]
      simp [behind, here]
    · rw [List.getElem?_append_right (by omega), List.getElem?_drop, middle]
      rcases Nat.lt_or_ge i 4096 with inside | outside
      · have gone : block[i - start]? = none := Array.getElem?_eq_none (by omega)
        have place : max start (start + min (4096 - start) block.size)
            + (i - start - min (4096 - start) block.size) = i := by omega
        rw [place, gone]
        simp
      · rw [List.getElem?_eq_none (by omega), List.getElem?_eq_none (by omega)]
        rfl

/-- The same in numbers. -/
theorem splice_numbers (memory : Memory) (start : Nat) (fits : start ≤ 4096)
    (block : Array Byte) :
    splice (numbers memory.bytes.toList) start
        (start + (numbers (block.toList.take (4096 - start))).length)
        (numbers (block.toList.take (4096 - start)))
      = numbers (memory.overlay start block).bytes.toList := by
  rw [length_numbers, ← splice_overlay memory start fits]
  exact (map_splice _ _ _ _ _).symm

/-- The memory without a program. -/
theorem initialMemory_eq : initialMemory = numbers Memory.initial.bytes.toList := by
  have whole : Font.bytes.toList.take (4096 - Font.start) = Font.bytes.toList :=
    List.take_of_length_le (by decide)
  have zeros : numbers Memory.blank.bytes.toList = List.replicate 4096 0 := by
    rw [numbers, Memory.blank, Vector.toList_replicate, List.map_replicate]
    rfl
  have laid := splice_numbers Memory.blank Font.start (by decide) Font.bytes
  rw [whole, zeros, length_numbers, Array.length_toList] at laid
  exact laid

/-- The machine without a program. -/
theorem loose_new (strict : Bool) (random : ρ) :
    (Machine.new strict random).loose = new strict random := by
  have cells : Picture.blank.cells.toList = List.replicate 2048 0 := Picture.toList_cells_blank
  -- The memory and the cells are long: they are replaced before anything is computed.
  rw [Machine.loose, new, Machine.memory_new, ← initialMemory_eq, Machine.picture_new, cells]
  rfl

/-- A reset. -/
theorem reset_loose (m : Machine ρ) : Runs reset m () m.reset :=
  Runs.change (loose_new m.strict m.random).symm

/-- The machine with another memory. -/
theorem loose_withMemory (m : Machine ρ) (memory : Memory) :
    (m.withMemory memory).loose = { m.loose with memory := numbers memory.bytes.toList } := rfl

/-- Loading a program. -/
theorem load_loose (m : Machine ρ) (program : Array Byte) :
    Runs (load program) m (Machine.fittingSize program : Int) (m.place program) := by
  have size : (numbers (program.toList.take programCapacity)).length
      = Machine.fittingSize program := by
    rw [length_numbers, List.length_take, Array.length_toList, Machine.fittingSize, Nat.min_comm]
  have laid := splice_numbers m.memory programStart (by decide) program
  have capacity : 4096 - programStart = programCapacity := rfl
  rw [capacity] at laid
  have placed : Runs (change fun s => { s with
      memory := splice s.memory programStart
        (programStart + (numbers (program.toList.take programCapacity)).length)
        (numbers (program.toList.take programCapacity)) })
      m () (m.withMemory (m.memory.overlay programStart program)) := by
    refine Runs.change ?_
    rw [loose_withMemory, ← laid]
    rfl
  rw [Machine.place_eq_withMemory, ← size]
  exact Runs.bind placed (Runs.pure _)

/-! ### Words and cycles -/

/-- A word that names no instruction stops a strict machine, and no other one. -/
theorem unknown_loose (m : Machine ρ) :
    unknown m.loose
      = if m.strict then .error (.trap m.operand.toNat) m.loose else .ok () m.loose := by
  refine (bind_loose (Runs.look Loose.strict)).trans ?_
  refine (bind_loose (Runs.look Loose.operand)).trans ?_
  show (if m.strict then orFail (.error (.trap m.operand.toNat)) else pure ()) m.loose = _
  split <;> rfl

variable [RandomSource ρ]

/-- Executing a word. -/
theorem execute_loose (m : Machine ρ) (n : Int) :
    execute n m.loose
      = resultOf faultOfTrap (fun w => (w.toNat : Int)) (m.execute (Word.ofInt n)) := by
  have noted : Runs (change fun s => { s with operand := Int.land n 0xFFFF }) m ()
      (m.noting (Word.ofInt n)) := by
    refine Runs.change ?_
    rw [Mask.land_word]
    rfl
  have follows : Follows dispatch (m.noting (Word.ofInt n)) (Instruction.decode? (Word.ofInt n)) :=
    follows_dispatch
  refine (bind_loose noted).trans ?_
  cases known : Instruction.decode? (Word.ofInt n) with
  | some i =>
    rw [known] at follows
    rw [Machine.execute_of_decode known]
    refine (bind_loose follows).trans ?_
    have operand := (Machine.framed_perform (m.noting (Word.ofInt n)) i).operand
    exact congrArg (fun w : Word => EStateM.Result.ok (w.toNat : Int) _) operand
  | none =>
    rw [known] at follows
    have follows := follows.trans (unknown_loose (m.noting (Word.ofInt n)))
    cases strict : m.strict with
    | true =>
      have stops : (m.noting (Word.ofInt n)).strict = true := strict
      rw [if_pos stops] at follows
      rw [Machine.execute_of_trap known strict]
      exact bind_loose_of_error follows
    | false =>
      have goesOn : ¬ (m.noting (Word.ofInt n)).strict = true := ne_true_of_eq_false strict
      rw [if_neg goesOn] at follows
      rw [Machine.execute_of_skip known strict]
      exact bind_loose follows

/-- Executing a word that names an instruction goes well. -/
theorem Runs.execute {m : Machine ρ} {w : Word} {i : Instruction}
    (known : Instruction.decode? w = some i) :
    Runs (execute w.toNat) m (w.toNat : Int) (m.execute w).machine := by
  have executed := execute_loose m w.toNat
  have same : Word.ofInt w.toNat = w := Mask.ofInt_toNat w
  rw [same, resultOf, Machine.execute_of_decode known] at executed
  rw [Machine.execute_of_decode known]
  exact executed

/-- A cycle. -/
theorem cycle_loose (m : Machine ρ) :
    cycle m.loose = resultOf faultOfTrap (fun w => (w.toNat : Int)) m.cycle := by
  have undrawn : Runs (change fun s => { s with redraw := false }) m ()
      { m with redraw := false } := Runs.change rfl
  -- Fetching the word, from integers to words.
  have high : Word.ofInt m.pc.toNat = m.pc := Mask.ofInt_toNat m.pc
  have low : Word.ofInt (m.pc.toNat + 1) = m.pc + 1 := Runs.ofInt_toNat_add_natCast m.pc 1
  have past : Int.land (m.pc.toNat + 2) 0xFFFF = ((m.pc + 2).toNat : Int) := by
    rw [Mask.land_word]
    exact congrArg (fun w : Word => (w.toNat : Int)) (Word.ofInt_toNat_add m.pc 2)
  have word : Int.lor (((m.memory.read m.pc).toNat : Int) <<< (8 : Nat))
        (m.memory.read (m.pc + 1)).toNat
      = (m.fetch.toNat : Int) := by
    rw [Machine.fetch, Memory.readWord, BitVec.toNat_append]
    rfl
  have same : Word.ofInt m.fetch.toNat = m.fetch := Mask.ofInt_toNat m.fetch
  have readHigh := Runs.byteAt (m := { m with redraw := false }) (m.pc.toNat : Int)
  have readLow := Runs.byteAt (m := { m with redraw := false }) (m.pc.toNat + 1 : Int)
  have moved : Runs (setPc (Int.land (m.pc.toNat + 2) 0xFFFF)) { m with redraw := false } ()
      m.fetched := Runs.setPc past
  rw [high] at readHigh
  rw [low] at readLow
  -- The steps up to the execution, all of which go well.
  refine (bind_loose undrawn).trans ((bind_loose (Runs.look Loose.pc)).trans ?_)
  refine (bind_loose readHigh).trans ((bind_loose readLow).trans ?_)
  refine (bind_loose moved).trans ?_
  rw [word, Machine.cycle_eq_ticked]
  have executed := execute_loose m.fetched m.fetch.toNat
  rw [same] at executed
  have answer := Machine.result_execute m.fetched m.fetch
  -- The timers tick only if the word did not stop the machine.
  rw [Machine.ticked]
  split
  · next v went =>
    -- The word executed is the word answered.
    have back : v = m.fetch := by
      rw [went] at answer
      split at answer
      · cases answer
      · exact Except.ok.inj answer
    rw [resultOf, went] at executed
    have done : Runs (execute m.fetch.toNat) m.fetched (v.toNat : Int)
        (m.fetched.execute m.fetch).machine := executed
    refine (bind_loose done).trans ((bind_loose (tick_loose _)).trans ?_)
    rw [resultOf, went, back]
    rfl
  · next t stopped =>
    rw [resultOf, stopped] at executed
    refine (bind_loose_of_error executed).trans ?_
    rw [resultOf, stopped]

/-! ### Any operation -/

/-- Every operation on the loose machine does what it does on the machine. -/
theorem operate_loose (m : Machine ρ) (operation : Operation) :
    operate operation m.loose = resultOf faultOf replyOf (m.apply operation) := by
  cases operation with
  | load program => exact (bind_loose (load_loose m program)).trans rfl
  | loadContents path contents =>
    cases contents with
    | ok program => exact (bind_loose (load_loose m program)).trans rfl
    | error reason => cases reason <;> rfl
  | setKey key down => exact (bind_loose (setKey_loose m key down)).trans rfl
  | cycle =>
    refine (some_loose (cycle_loose m)).trans ?_
    exact (resultOf_widen _).symm
  | execute operand =>
    refine (some_loose (execute_loose m operand)).trans ?_
    exact (resultOf_widen _).symm
  | tick => exact (bind_loose (tick_loose m)).trans rfl
  | reset => exact (bind_loose (reset_loose m)).trans rfl

/-- So does every run. -/
theorem after_loose (m : Machine ρ) (operations : List Operation) :
    m.loose.after operations = (m.after operations).loose := by
  induction operations generalizing m with
  | nil => rfl
  | cons operation operations ih =>
    have first : stateOf (operate operation m.loose) = (m.apply operation).machine.loose := by
      rw [operate_loose, resultOf]
      split <;> rfl
    rw [Machine.after_cons, ← ih, ← first]
    rfl

end Loose

end ChipEight
