import ChipEight.Proofs.Loose.Range

namespace ChipEight

/-!
# What loading a program does

A program is laid over the memory from `0x200` on, as far as it fits; nothing else happens to
the machine.

* `Memory.getElem_overlay_inside`, `Memory.getElem_overlay_outside` — the cells under a block and
  those beside it;
* `Memory.overlay_extract`, `Memory.overlay_overlay` — what does not fit of a block does not
  matter, nor does an earlier block that reached no further;
* `Machine.load_load`, `Machine.load_fittingPart` — the same of programs;
* `Machine.LoadsExactly`, `Machine.loading_is_exact_and_atomic` — all that loading does, from
  bytes or from a path, and that it does nothing if the path cannot be read.
-/

/-! ### Blocks in the memory -/

namespace Memory

variable {start : Nat} {block block' : Array Byte}

/-- The cells under a block hold its bytes. -/
theorem getElem_overlay_inside (m : Memory) {j : Nat} (inside : j < block.size)
    (fits : start + j < 4096) : (m.overlay start block).bytes[start + j] = block[j] := by
  simp [getElem_overlay, inside]

/-- The cells beside a block are as they were. -/
theorem getElem_overlay_outside (m : Memory) {i : Nat} (hi : i < 4096)
    (outside : i < start ∨ start + block.size ≤ i) :
    (m.overlay start block).bytes[i] = m.bytes[i] := by
  rw [getElem_overlay]
  split
  · have past : block[i - start]? = none := Array.getElem?_eq_none (by omega)
    rw [past, Option.getD_none]
  · rfl

/-- What would come to lie past the last cell does not matter. -/
theorem overlay_extract (m : Memory) (start : Nat) (block : Array Byte) :
    m.overlay start (block.extract 0 (4096 - start)) = m.overlay start block := by
  ext i hi : 1
  rw [getElem_overlay, getElem_overlay]
  split
  · have same : (block.extract 0 (4096 - start))[i - start]? = block[i - start]? := by
      rw [Array.getElem?_extract, Nat.zero_add]
      split
      · rfl
      · exact (Array.getElem?_eq_none (by omega)).symm
    rw [same]
  · rfl

/-- A block hides an earlier one that reached no further. -/
theorem overlay_overlay (m : Memory) (reaches : min block'.size (4096 - start) ≤ block.size) :
    (m.overlay start block').overlay start block = m.overlay start block := by
  ext i hi : 1
  rcases Nat.lt_or_ge i (start + block.size) with inside | past
  · -- In front of both blocks, or under the later one.
    rw [getElem_overlay, getElem_overlay, getElem_overlay]
    split
    · have here : i - start < block.size := by omega
      simp [here]
    · rfl
  · rw [getElem_overlay_outside _ hi (.inr past), getElem_overlay_outside _ hi (.inr past),
      getElem_overlay_outside _ hi (.inr (by omega))]

end Memory

/-! ### What is told -/

/-- The text about a program that does not fit, with the limit in digits. -/
theorem Notice.text_truncated (size : Nat) :
    (truncated size).text = "ROM is " ++ toString size ++ " bytes, truncating to 3584" := by
  have capacity : programCapacity = 3584 := by decide
  have digits : " bytes, truncating to " ++ toString 3584 = " bytes, truncating to 3584" := by
    decide
  show "ROM is " ++ toString size ++ " bytes, truncating to " ++ toString programCapacity = _
  rw [capacity, String.append_assoc, digits]

namespace Machine

variable {ρ : Type}

/-! ### Programs in the memory -/

/-- Of a program that another one hides nothing is left. -/
theorem load_load (m : Machine ρ) {program earlier : Array Byte}
    (reaches : fittingSize earlier ≤ fittingSize program) :
    (m.load earlier).machine.load program = m.load program := by
  have hidden : min earlier.size (4096 - programStart) ≤ program.size :=
    reaches.trans (Nat.min_le_left _ _)
  simp only [load_eq, memory_withMemory, m.memory.overlay_overlay hidden, withMemory_withMemory]

/-- The first bytes of a program, as many as fit. -/
def fittingPart (program : Array Byte) : Array Byte := program.extract 0 programCapacity

/-- They all fit. -/
theorem size_fittingPart (program : Array Byte) :
    (fittingPart program).size = fittingSize program := by
  unfold fittingPart fittingSize
  rw [Array.size_extract, Nat.sub_zero, Nat.min_comm]

/-- They are loaded like the whole program, but for the warning. -/
theorem load_fittingPart (m : Machine ρ) (program : Array Byte) :
    let part := m.load (fittingPart program)
    (m.load program).machine = part.machine ∧ (m.load program).result = part.result
      ∧ (m.load program).notices
        = (if programCapacity < program.size then [.truncated program.size] else [])
          ++ part.notices := by
  intro part
  have fits : fittingSize (fittingPart program) = fittingSize program := by
    rw [fittingSize, size_fittingPart]
    exact Nat.min_eq_left (Nat.min_le_right _ _)
  have short : ¬ programCapacity < (fittingPart program).size := by
    rw [size_fittingPart]
    exact Nat.not_lt.mpr (Nat.min_le_right _ _)
  have laid : m.memory.overlay programStart (fittingPart program)
      = m.memory.overlay programStart program := m.memory.overlay_extract programStart program
  have whole : part = ⟨m.withMemory (m.memory.overlay programStart program),
      [.loaded (fittingSize program)], .ok (fittingSize program)⟩ := by
    show m.load (fittingPart program) = _
    rw [load_eq, loadNotices, laid, fits, if_neg short, List.nil_append]
  rw [whole]
  exact ⟨rfl, rfl, rfl⟩

/-- The log records of loading a program. -/
theorem records_load (m : Machine ρ) (program : Array Byte) :
    (m.load program).notices.map Notice.record
      = (if 3584 < program.size then
          [⟨.warning, "ROM is " ++ toString program.size ++ " bytes, truncating to 3584"⟩] else [])
        ++ [⟨.info, "Loaded " ++ toString (min program.size 3584) ++ " bytes of ROM"⟩] := by
  have capacity : programCapacity = 3584 := by decide
  rw [load_eq, loadNotices, fittingSize, capacity, List.map_append]
  congr 1
  split
  · rw [List.map_singleton, Notice.record, Notice.text_truncated]
    rfl
  · rfl

/-! ### All of it -/

/-- What comes of loading a program on a machine. -/
structure LoadsExactly [RandomSource ρ] (m : Machine ρ) (program : Array Byte)
    (r : Outcome ρ LoadFault Nat) : Prop where
  /-- The result is the number of bytes that fit. -/
  result : r.result = .ok (min program.size 3584)
  /-- These lie from `0x200` on, in their order. -/
  under : ∀ j, (fits : j < min program.size 3584) → r.machine.memory.bytes[0x200 + j] = program[j]
  /-- No other cell changes, and no other part of the machine. -/
  beside : ∀ i, (inside : i < 4096) → i < 0x200 ∨ 0x200 + min program.size 3584 ≤ i →
    r.machine.memory.bytes[i] = m.memory.bytes[i]
  rest : r.machine = { m with memory := r.machine.memory }
  /-- What does not fit is warned of, before the number is told. -/
  notices : r.notices
    = (if 3584 < program.size then [.truncated program.size] else [])
      ++ [.loaded (min program.size 3584)]
  records : r.notices.map Notice.record
    = (if 3584 < program.size then
        [⟨.warning, "ROM is " ++ toString program.size ++ " bytes, truncating to 3584"⟩] else [])
      ++ [⟨.info, "Loaded " ++ toString (min program.size 3584) ++ " bytes of ROM"⟩]
  /-- The loose machine, which replaces a stretch of a list, comes to the same, and the list
      keeps its length. -/
  loose : Loose.operate (.load program) m.loose
    = .ok (some ((min program.size 3584 : Nat) : Int)) r.machine.loose
  length : r.machine.loose.memory.length = 4096
  /-- What reading a path gave is loaded like the bytes themselves. -/
  readable : ∀ path, m.loadContents path (.ok program) = r
    ∧ Loose.operate (.loadContents path (.ok program)) m.loose
      = Loose.operate (.load program) m.loose
  /-- A path that the system refuses, for whatever reason, gives a fault that names it, and
      nothing changes. -/
  refused : ∀ path reason, let fault : LoadFault := ⟨path, .refused reason⟩
    m.loadContents path (.error (.refused reason)) = ⟨m, [], .error fault⟩
      ∧ fault.message = "Unable to load ROM " ++ path ++ ": " ++ reason
      ∧ Loose.operate (.loadContents path (.error (.refused reason))) m.loose
        = .error (.unreadable path (.refused reason)) m.loose
  /-- An earlier program that was no longer is hidden. -/
  hides : ∀ earlier : Array Byte, min earlier.size 3584 ≤ min program.size 3584 →
    (m.load earlier).machine.load program = r
  /-- What does not fit matters only to the warning. -/
  cut : let part := m.load (program.extract 0 3584)
    r.machine = part.machine ∧ r.result = part.result
      ∧ r.notices = (if 3584 < program.size then [.truncated program.size] else []) ++ part.notices

/-- **Loading is exact, bounded and atomic.**  The bytes that fit are copied, and nothing else
    happens to the machine, be it that they are given or that reading a path gave them.  A path
    that cannot be read leaves the machine as it is. -/
theorem loading_is_exact_and_atomic [RandomSource ρ] (m : Machine ρ) (program : Array Byte) :
    LoadsExactly m program (m.load program) := by
  have laid : (m.load program).machine.memory = m.memory.overlay 0x200 program := by
    rw [load_eq]
    rfl
  exact {
    result := rfl
    under := by
      intro j fits
      simp only [laid]
      exact m.memory.getElem_overlay_inside (by omega) (by omega)
    beside := by
      intro i inside outside
      simp only [laid]
      -- A cell behind the part that fits is behind the whole program.
      exact m.memory.getElem_overlay_outside inside (by omega)
    rest := rfl
    notices := rfl
    records := m.records_load program
    loose := Loose.operate_loose m (.load program)
    length := (Loose.inRange_loose (m.load program).machine).memory.1
    readable := fun _ => ⟨rfl, rfl⟩
    refused := fun _ _ => ⟨rfl, rfl, rfl⟩
    hides := fun _ reaches => m.load_load reaches
    cut := m.load_fittingPart program }

/-- The theorem at a file of two bytes that is loaded over a program of three, whose last byte
    stays, and at a file that must not be opened. -/
theorem a_shorter_program_leaves_the_rest :
    let m := ((new false (Wheel.ofList [])).load #[0x60, 0x05, 0x70]).machine
    let files : FileTree :=
      { top := .folder [("a", .file #[0x12, 0x00])]
        refusal? := fun path => if path = "/b" then some "Permission denied" else none }
    let r := m.loadContents "/a" (files.read "/a")
    r.result = .ok 2
      ∧ r.machine.memory.bytes[0x200] = 0x12 ∧ r.machine.memory.bytes[0x201] = 0x00
      ∧ r.machine.memory.bytes[0x202] = 0x70
      ∧ r.notices.map Notice.record = [⟨.info, "Loaded 2 bytes of ROM"⟩]
      ∧ m.loadContents "/b" (files.read "/b")
        = ⟨m, [], .error ⟨"/b", .refused "Permission denied"⟩⟩ := by
  intro m files r
  have found : files.read "/a" = .ok #[0x12, 0x00] := by cbv
  have barred : files.read "/b" = .error (.refused "Permission denied") := by cbv
  have earlier : m.memory.bytes[0x202] = 0x70 := by
    show (Memory.initial.overlay 0x200 #[0x60, 0x05, 0x70]).bytes[0x200 + 2] = _
    exact Memory.initial.getElem_overlay_inside (by decide) (by decide)
  -- From here on the 4096 bytes of this machine must not be looked at.
  clear_value m
  have loads := loading_is_exact_and_atomic m #[0x12, 0x00]
  have same : r = m.load #[0x12, 0x00] := by
    show m.loadContents "/a" (files.read "/a") = _
    rw [found]
    exact (loads.readable "/a").1
  rw [same, barred]
  refine ⟨loads.result, loads.under 0 (by decide), loads.under 1 (by decide), ?_, loads.records,
    (loads.refused "/b" "Permission denied").1⟩
  exact (loads.beside 0x202 (by decide) (by decide)).trans earlier

end Machine

end ChipEight
