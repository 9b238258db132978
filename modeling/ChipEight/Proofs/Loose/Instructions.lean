import ChipEight.Proofs.Loose.Agreement

namespace ChipEight

/-!
# Routines and instructions

Each routine of the loose machine does what its instruction does, from the state of a
machine with the word of the instruction.  None of them fails.

* `Loose.Runs.skipIf`, `Loose.Runs.combine`, `Loose.Runs.combineFlagged` — the routines
  that several instructions share;
* `Loose.Runs.call`, `Loose.Runs.ret` — the call stack;
* `Loose.Runs.storeRegisters`, `Loose.Runs.loadRegisters` — the routines with a loop.
-/

/-! ### Integers and words -/

/-- A word plus an integer. -/
theorem Word.ofInt_toNat_add (a : Word) (n : Int) : ofInt (a.toNat + n) = a + ofInt n := by
  rw [ofInt, ofInt, BitVec.ofInt_add, Mask.ofInt_toNat]

/-- Integers of words are equal if the words are. -/
theorem beq_toNat {width : Nat} (a b : BitVec width) :
    ((a.toNat : Int) == (b.toNat : Int)) = (a == b) := by
  rw [Bool.eq_iff_iff, beq_iff_eq, beq_iff_eq, Int.ofNat_inj, BitVec.toNat_inj]

namespace Loose

variable {ρ : Type} {m : Machine ρ}

namespace Runs

/-! ### Jumps and skips -/

theorem skipNext : Runs skipNext m () m.skipNext := by
  refine bind (look Loose.pc) (setPc ?_)
  rw [Mask.land_word]
  exact congrArg (fun w : Word => (w.toNat : Int)) (Word.ofInt_toNat_add m.pc 2)

/-- A skip whose test comes out without changing anything. -/
theorem skipIf {test : Step ρ Bool} {outcome : Bool} (wanted : Bool)
    (tested : Runs test m outcome m) :
    Runs (skipIf wanted test) m () (if outcome = wanted then m.skipNext else m) := by
  refine bind tested ?_
  split
  · exact skipNext
  · exact pure ()

/-- The same with the outcome the other way round. -/
theorem skipUnless {test : Step ρ Bool} {outcome : Bool} (tested : Runs test m outcome m) :
    Runs (Loose.skipIf false test) m () (if !outcome then m.skipNext else m) := by
  have skipped := skipIf false tested
  cases outcome <;> exact skipped

theorem holdsConstant :
    Runs holdsConstant m (m.reg m.operand.x == m.operand.kk) m := by
  refine bind fieldX (bind (register _) (bind fieldKK ?_))
  rw [beq_toNat]
  exact pure _

theorem registersAgree :
    Runs registersAgree m (m.reg m.operand.x == m.reg m.operand.y) m := by
  refine bind fieldX (bind fieldY (bind (register _) (bind (register _) ?_)))
  rw [beq_toNat]
  exact pure _

theorem keyIsDown :
    Runs keyIsDown m (m.keypad.isDown ((m.reg m.operand.x).setWidth 4)) m := by
  refine bind fieldX (bind (register _) ?_)
  have key : Int.land (m.reg m.operand.x).toNat 0xF
      = (((m.reg m.operand.x).setWidth 4).toNat : Int) := by
    rw [Mask.land_four, BitVec.ofInt_natCast, BitVec.ofNat_toNat]
  rw [key]
  refine readAt ?_
  show m.keypad.keys.entries.toList[_]? = _
  rw [Vector.getElem?_toList]
  exact Vector.getElem?_eq_getElem (BitVec.isLt _)

theorem jump [RandomSource ρ] : Runs jump m () (m.perform (.jump m.operand.nnn)) := by
  refine bind fieldNNN (setPc ?_)
  rw [BitVec.toNat_setWidth_of_le (by decide)]

theorem jumpFrom [RandomSource ρ] : Runs jumpFrom m () (m.perform (.jumpFrom m.operand.nnn)) := by
  refine bind fieldNNN (bind (register 0) (setPc ?_))
  -- The sum of an address and a byte fits into a word.
  have address := m.operand.nnn.isLt
  have byte := (m.reg 0).isLt
  rw [BitVec.toNat_add, BitVec.toNat_setWidth_of_le (by decide),
    BitVec.toNat_setWidth_of_le (by decide)]
  omega

/-! ### The call stack -/

theorem call [RandomSource ρ] : Runs call m () (m.perform (.call m.operand.nnn)) := by
  refine bind (look Loose.depth) ?_
  show Runs (if (16 : Int) ≤ m.stack.depth.val then Pure.pure () else _) _ _ _
  by_cases room : m.stack.depth.val < 16
  -- Between its two steps the routine has written the slot and not yet counted it: that is
  -- still the state of a machine, with the address in an unused slot.
  · let written : CallStack := ⟨m.stack.slots.set m.stack.depth.val m.pc room, m.stack.depth⟩
    let pushed : CallStack := ⟨written.slots, ⟨m.stack.depth.val + 1, by omega⟩⟩
    have accepted : m.stack.push? m.pc = some pushed := dif_pos room
    have write : Runs (Loose.writeAt Loose.slots (fun s xs => { s with slots := xs })
        m.stack.depth.val (m.pc.toNat : Int)) m () (m.withStack written) := by
      refine writeAt ?_ ?_
      · show _ < (numbers m.stack.slots.toList).length
        rw [length_numbers, Vector.length_toList]
        exact room
      · have set : (numbers m.stack.slots.toList).set m.stack.depth.val (m.pc.toNat : Int)
            = numbers written.slots.toList := by
          rw [numbers, ← List.map_set]
          exact congrArg numbers (Vector.toList_set room).symm
        exact congrArg (fun xs => ({ m.loose with slots := xs } : Loose ρ)) set
    have deepen : Runs (Loose.change fun s => { s with depth := s.depth + 1 })
        (m.withStack written) () (m.withStack pushed) := change rfl
    have target : Runs (do let target ← Loose.fieldNNN; Loose.setPc target)
        (m.withStack pushed) () { m with
          stack := pushed
          pc := m.operand.nnn.setWidth 16 } := by
      refine bind fieldNNN (setPc ?_)
      rw [BitVec.toNat_setWidth_of_le (by decide)]
      rfl
    rw [if_neg (by omega)]
    simp only [Machine.perform, accepted]
    exact bind (look Loose.pc) (bind write (bind deepen target))
  · have refused : m.stack.push? m.pc = none := dif_neg room
    rw [if_pos (by omega)]
    simp only [Machine.perform, refused]
    exact pure ()

theorem ret [RandomSource ρ] : Runs ret m () (m.perform .ret) := by
  refine bind (look Loose.depth) ?_
  show Runs (if (m.stack.depth.val : Int) = 0 then Pure.pure () else _) _ _ _
  by_cases some : 0 < m.stack.depth.val
  · have below : m.stack.depth.val - 1 < 16 := by
      have := m.stack.depth.isLt
      omega
    -- The slot is read after it was given up, when it is unused.
    let popped : CallStack := ⟨m.stack.slots, ⟨m.stack.depth.val - 1, by omega⟩⟩
    have accepted : m.stack.pop? = .some (m.stack.slots[m.stack.depth.val - 1], popped) :=
      dif_pos some
    have lower : Runs (Loose.change fun s => { s with depth := s.depth - 1 }) m ()
        (m.withStack popped) := by
      refine change ?_
      have less : (m.stack.depth.val : Int) - 1 = (m.stack.depth.val - 1 : Nat) := by omega
      exact congrArg (fun depth => ({ m.loose with depth := depth } : Loose ρ)) less
    have back : Runs (Loose.readAt Loose.slots ((m.stack.depth.val - 1 : Nat) : Int))
        (m.withStack popped) ((m.stack.slots[m.stack.depth.val - 1]).toNat : Int)
        (m.withStack popped) := by
      refine readAt ?_
      show (numbers m.stack.slots.toList)[m.stack.depth.val - 1]? = _
      rw [getElem?_numbers, Vector.getElem?_toList, Vector.getElem?_eq_getElem below]
      rfl
    rw [if_neg (by omega)]
    simp only [Machine.perform, accepted]
    exact bind lower (bind (look Loose.depth) (bind back (setPc rfl)))
  · have refused : m.stack.pop? = none := dif_neg some
    rw [if_pos (by omega)]
    simp only [Machine.perform, refused]
    exact pure ()

/-! ### Registers -/

theorem setConstant [RandomSource ρ] :
    Runs setConstant m () (m.perform (.set m.operand.x m.operand.kk)) :=
  bind fieldX (bind fieldKK (setRegister m.operand.x m.operand.kk))

theorem addConstant [RandomSource ρ] :
    Runs addConstant m () (m.perform (.add m.operand.x m.operand.kk)) := by
  refine bind fieldX (bind (register _) (bind fieldKK ?_))
  rw [Mask.land_add]
  exact setRegister m.operand.x _

/-- The operations without a flag. -/
theorem combine [RandomSource ρ] {f : Int → Int → Int} {op : Arithmetic}
    (result : ∀ a b : Byte, ∃ value, op.eval a b = (value, none)
      ∧ f a.toNat b.toNat = value.toNat) :
    Runs (combine f) m () (m.perform (.arithmetic op m.operand.x m.operand.y)) := by
  refine bind fieldX (bind fieldY (bind (register _) (bind (register _) ?_)))
  obtain ⟨value, eval, cut⟩ := result (m.reg m.operand.x) (m.reg m.operand.y)
  rw [cut]
  simp only [Machine.perform, Machine.combine, eval]
  exact setRegister m.operand.x value

/-- The operations on two registers with a flag, which is written last. -/
theorem combineFlagged [RandomSource ρ] {f flag : Int → Int → Int} {op : Arithmetic}
    (result : ∀ a b : Byte, ∃ value told, op.eval a b = (value, some told)
      ∧ f a.toNat b.toNat = value.toNat ∧ flag a.toNat b.toNat = (Machine.flagByte told).toNat) :
    Runs (combineFlagged f flag) m () (m.perform (.arithmetic op m.operand.x m.operand.y)) := by
  refine bind fieldX (bind fieldY (bind (register _) (bind (register _) ?_)))
  obtain ⟨value, told, eval, cut, flagged⟩ := result (m.reg m.operand.x) (m.reg m.operand.y)
  rw [cut, flagged]
  simp only [Machine.perform, Machine.combine, eval]
  exact bind (setRegister m.operand.x value)
    (setRegister Machine.flagRegister (Machine.flagByte told))

/-- The shifts, which do not look at the second register. -/
theorem shift [RandomSource ρ] {f flag : Int → Int} {op : Arithmetic}
    (result : ∀ a b : Byte, ∃ value told, op.eval a b = (value, some told)
      ∧ f a.toNat = value.toNat ∧ flag a.toNat = (Machine.flagByte told).toNat) :
    Runs (shift f flag) m () (m.perform (.arithmetic op m.operand.x m.operand.y)) := by
  refine bind fieldX (bind (register _) ?_)
  obtain ⟨value, told, eval, cut, flagged⟩ := result (m.reg m.operand.x) (m.reg m.operand.y)
  rw [cut, flagged]
  simp only [Machine.perform, Machine.combine, eval]
  exact bind (setRegister m.operand.x value)
    (setRegister Machine.flagRegister (Machine.flagByte told))

theorem setRandom [RandomSource ρ] :
    Runs setRandom m () (m.perform (.random m.operand.x m.operand.kk)) := by
  have drawn : Runs draw m (RandomSource.next m.random).1
      { m with random := (RandomSource.next m.random).2 } := rfl
  refine bind fieldKK (bind fieldX (bind drawn ?_))
  rw [Mask.land_byte]
  exact setRegister m.operand.x _

/-! ### Timers, keys and the index register -/

theorem readTimer [RandomSource ρ] :
    Runs (readTimer Loose.delay) m () (m.perform (.readDelay m.operand.x)) :=
  bind fieldX (bind (look Loose.delay) (setRegister m.operand.x m.delay))

theorem setDelay [RandomSource ρ] :
    Runs (setTimer fun s value => { s with delay := value }) m ()
      (m.perform (.setDelay m.operand.x)) :=
  bind fieldX (bind (register _) (change rfl))

theorem setSound [RandomSource ρ] :
    Runs (setTimer fun s value => { s with sound := value }) m ()
      (m.perform (.setSound m.operand.x)) :=
  bind fieldX (bind (register _) (change rfl))

/-- The keys lie in the order of the nibbles. -/
theorem toList_keys (k : Keypad) : k.keys.toList = Nibble.all.map k.isDown := by
  apply List.ext_getElem
  · simp [Bank.toList, Nibble.all]
  · intro i hi hi'
    simp [Bank.toList, Nibble.all, Keypad.isDown, Bank.entry]

/-- The first key that is down is found by its place. -/
theorem findIdx?_keys (k : Keypad) :
    k.keys.toList.findIdx? (· = true) = k.lowest?.map BitVec.toNat := by
  -- The nibbles are listed in order, so a nibble is its own place.
  have place : ∀ i (h : i < Nibble.all.length), Nibble.all[i].toNat = i := by
    intro i h
    simp [Nibble.all]
  rw [toList_keys, List.findIdx?_map, Keypad.lowest?]
  cases found : Nibble.all.find? k.isDown with
  | some key =>
    obtain ⟨down, i, h, rfl, before⟩ := List.find?_eq_some_iff_getElem.mp found
    rw [Option.map_some, place i h]
    refine List.findIdx?_eq_some_iff_getElem.mpr ⟨h, by simpa using down, fun j hj => ?_⟩
    simpa using before j hj
  | none =>
    refine List.findIdx?_eq_none_iff.mpr fun key hkey => ?_
    simpa using List.find?_eq_none.mp found key hkey

theorem awaitKey [RandomSource ρ] : Runs awaitKey m () (m.perform (.awaitKey m.operand.x)) := by
  have found : m.loose.keys.findIdx? (· = true) = m.keypad.lowest?.map BitVec.toNat :=
    findIdx?_keys m.keypad
  refine bind fieldX (bind (look Loose.keys) ?_)
  rw [found]
  cases lowest : m.keypad.lowest? with
  | some key =>
    have taken : (key.toNat : Int) = ((key.setWidth 8).toNat : Int) := by
      rw [BitVec.toNat_setWidth_of_le (by decide)]
    simp only [Machine.perform, Machine.awaitKey, lowest, Option.map_some]
    rw [taken]
    exact setRegister m.operand.x (key.setWidth 8)
  | none =>
    simp only [Machine.perform, Machine.awaitKey, lowest, Option.map_none]
    refine bind (look Loose.pc) (setPc ?_)
    -- The program counter may be 0 or 1, and then wraps around.
    have back : Word.ofInt (m.pc.toNat - 2) = m.here := by
      rw [Int.sub_eq_add_neg, Word.ofInt_toNat_add, Machine.here, BitVec.sub_eq_add_neg]
      exact congrArg (m.pc + ·) (by decide)
    rw [Mask.land_word]
    exact congrArg (fun w : Word => (w.toNat : Int)) back

theorem setIndexConstant [RandomSource ρ] :
    Runs setIndexConstant m () (m.perform (.setIndex m.operand.nnn)) := by
  refine bind fieldNNN (setIndex ?_)
  rw [BitVec.toNat_setWidth_of_le (by decide)]

theorem addIndex [RandomSource ρ] : Runs addIndex m () (m.perform (.addIndex m.operand.x)) := by
  refine bind fieldX (bind (look Loose.index) (bind (register _) (setIndex ?_)))
  rw [Mask.land_word]
  have sum := Word.ofInt_toNat_add m.index (m.reg m.operand.x).toNat
  rw [Word.ofInt, Word.ofInt, BitVec.ofInt_natCast, BitVec.ofNat_toNat] at sum
  exact congrArg (fun w : Word => (w.toNat : Int)) sum

theorem findDigit [RandomSource ρ] : Runs findDigit m () (m.perform (.findDigit m.operand.x)) := by
  refine bind fieldX (bind (register _) (setIndex ?_))
  rw [Mask.land_four, BitVec.ofInt_natCast, BitVec.ofNat_toNat, Font.address, BitVec.toNat_ofNat]
  have digit := ((m.reg m.operand.x).setWidth 4).isLt
  simp only [Font.start, Font.height]
  omega

/-! ### Memory -/

/-- The address some bytes behind a word. -/
theorem ofInt_toNat_add_natCast (a : Word) (i : Nat) :
    Word.ofInt (a.toNat + i) = a + BitVec.ofNat 16 i := by
  rw [Word.ofInt_toNat_add, Word.ofInt, BitVec.ofInt_natCast]

/-- Putting a byte at the address that an integer comes to. -/
theorem setByte_of_eq {n : Int} {a : Word} (address : Word.ofInt n = a) (b : Byte) :
    Runs (Loose.setByte (Int.land n 0xFFF) b.toNat) m () (m.withMemory (m.memory.write a b)) :=
  address ▸ setByte n b

theorem storeDecimal [RandomSource ρ] :
    Runs storeDecimal m () (m.perform (.storeDecimal m.operand.x)) := by
  refine bind fieldX (bind (register _) (bind (look Loose.index) ?_))
  -- Each digit is a byte.
  have hundreds : ((m.reg m.operand.x).toNat : Int) / 100
      = ((m.reg m.operand.x / 100).toNat : Int) := by
    rw [BitVec.toNat_udiv]
    rfl
  have tens : ((m.reg m.operand.x).toNat : Int) / 10 % 10
      = ((m.reg m.operand.x / 10 % 10).toNat : Int) := by
    rw [BitVec.toNat_umod, BitVec.toNat_udiv]
    rfl
  have ones : ((m.reg m.operand.x).toNat : Int) % 10
      = ((m.reg m.operand.x % 10).toNat : Int) := by
    rw [BitVec.toNat_umod]
    rfl
  have first : Word.ofInt m.index.toNat = m.index := Mask.ofInt_toNat m.index
  have second : Word.ofInt (m.index.toNat + 1) = m.index + 1 := ofInt_toNat_add_natCast m.index 1
  have third : Word.ofInt (m.index.toNat + 2) = m.index + 1 + 1 := by
    rw [BitVec.add_assoc]
    exact ofInt_toNat_add_natCast m.index 2
  rw [hundreds, tens, ones]
  exact bind (setByte_of_eq first _)
    (bind (setByte_of_eq (m := m.withMemory _) second _)
      (setByte_of_eq (m := m.withMemory _) third _))

/-- One step for each of the first registers. -/
theorem forM_registers {f : Nat → Step ρ Unit} {g : Machine ρ → Nat → Machine ρ} {count : Nat}
    (few : count ≤ 16) (step : ∀ (x : Nibble) n, Runs (f x.toNat) n () (g n x.toNat))
    (m : Machine ρ) :
    Runs ((List.range count).forM f) m () ((List.range count).foldl g m) := by
  refine forM _ (fun i hi n => ?_) m
  have below : i < 16 := by
    have := List.mem_range.mp hi
    omega
  have place : (BitVec.ofNat 4 i).toNat = i := by
    rw [BitVec.toNat_ofNat, Nat.mod_eq_of_lt below]
  have done := step (BitVec.ofNat 4 i) n
  rwa [place] at done

/-- Storing one more byte puts it behind the others. -/
theorem store_concat (memory : Memory) (a : Word) (bs : List Byte) (b : Byte) :
    memory.store a (bs ++ [b]) = (memory.store a bs).write (a + BitVec.ofNat 16 bs.length) b := by
  induction bs generalizing memory a with
  | nil => simp [Memory.store]
  | cons c bs ih =>
    rw [List.cons_append, Memory.store, ih, Memory.store, List.length_cons, BitVec.add_assoc]
    congr 2
    rw [Nat.add_comm, BitVec.ofNat_add]
    rfl

/-- Storing registers one by one stores them all. -/
theorem foldl_store (m : Machine ρ) (count : Nat) (few : count ≤ 16) :
    (List.range count).foldl (fun (n : Machine ρ) i =>
        n.withMemory (n.memory.write (m.index + BitVec.ofNat 16 i) (n.reg (BitVec.ofNat 4 i)))) m
      = m.withMemory (m.memory.store m.index (m.registers.toList.take count)) := by
  induction count with
  | zero => rfl
  | succ count ih =>
    -- One more round stores one more register behind those stored already.
    have below : count < m.registers.toList.length := by
      rw [Bank.toList, Vector.length_toList]
      omega
    have entry : m.registers.toList[count] = m.reg (BitVec.ofNat 4 count) := by
      simp [Bank.toList, Machine.reg, Bank.entry, Nat.mod_eq_of_lt (show count < 16 by omega)]
    rw [List.range_succ, List.foldl_append, ih (by omega), List.take_add_one,
      List.getElem?_eq_getElem below, entry]
    show Machine.withMemory _ _ = Machine.withMemory _ (m.memory.store _ (_ ++ [_]))
    rw [store_concat, List.length_take, Nat.min_eq_left (by omega)]
    rfl

theorem storeRegisters [RandomSource ρ] :
    Runs storeRegisters m () (m.perform (.storeRegisters m.operand.x)) := by
  refine bind fieldX (bind (look Loose.index) ?_)
  have count : ((m.operand.x.toNat : Int) + 1).toNat = m.operand.x.toNat + 1 := by omega
  have few : m.operand.x.toNat + 1 ≤ 16 := m.operand.x.isLt
  have stored : _ = m.perform (.storeRegisters m.operand.x) := foldl_store m _ few
  rw [count, ← stored]
  refine forM_registers few (fun x n => ?_) m
  rw [BitVec.ofNat_toNat 4, BitVec.setWidth_eq]
  exact bind (register x) (setByte_of_eq (ofInt_toNat_add_natCast m.index x.toNat) (n.reg x))

/-- Loading registers one by one loads them all. -/
theorem foldl_load (m : Machine ρ) (count : Nat) (few : count ≤ 16) :
    (List.range count).foldl (fun (n : Machine ρ) i =>
        n.setReg (BitVec.ofNat 4 i) (n.memory.read (m.index + BitVec.ofNat 16 i))) m
      = { m with
          registers := .ofFn fun i =>
            if i.toNat < count then m.memory.read (m.index + i.setWidth 16) else m.reg i } := by
  induction count with
  | zero =>
    have same : Bank.ofFn m.reg = m.registers := by
      ext x : 1
      exact Bank.entry_ofFn m.reg x
    simp [same]
  | succ count ih =>
    rw [List.range_succ, List.foldl_append, ih (by omega)]
    show ({ m with registers := Bank.put _ _ _ } : Machine ρ) = _
    refine congrArg (fun registers => ({ m with registers := registers } : Machine ρ)) ?_
    ext x : 1
    rw [Bank.entry_put, Bank.entry_ofFn, Bank.entry_ofFn]
    -- The register of this round, or one that was settled before or not yet touched.
    by_cases last : x = BitVec.ofNat 4 count
    · have number : x.toNat = count := by
        rw [last, BitVec.toNat_ofNat, Nat.mod_eq_of_lt (by omega)]
      have wide : x.setWidth 16 = BitVec.ofNat 16 count := by
        rw [← BitVec.ofNat_toNat, number]
      rw [if_pos last, if_pos (by omega), wide]
    · have number : x.toNat ≠ count := fun same => last (by
        rw [← same, BitVec.ofNat_toNat, BitVec.setWidth_eq])
      rw [if_neg last]
      congr 1
      apply propext
      omega

theorem loadRegisters [RandomSource ρ] :
    Runs loadRegisters m () (m.perform (.loadRegisters m.operand.x)) := by
  refine bind fieldX (bind (look Loose.index) ?_)
  have count : ((m.operand.x.toNat : Int) + 1).toNat = m.operand.x.toNat + 1 := by omega
  have few : m.operand.x.toNat + 1 ≤ 16 := m.operand.x.isLt
  have loaded : (List.range (m.operand.x.toNat + 1)).foldl (fun (n : Machine ρ) i =>
      n.setReg (BitVec.ofNat 4 i) (n.memory.read (m.index + BitVec.ofNat 16 i))) m
      = m.perform (.loadRegisters m.operand.x) := by
    rw [foldl_load m _ few]
    simp only [Machine.perform, Machine.loadRegisters, Nat.lt_add_one_iff]
  rw [count, ← loaded]
  refine forM_registers few (fun x n => ?_) m
  refine bind (byteAt (m.index.toNat + x.toNat)) ?_
  rw [ofInt_toNat_add_natCast, BitVec.ofNat_toNat 4, BitVec.setWidth_eq]
  exact setRegister x _

end Runs

end Loose

end ChipEight
