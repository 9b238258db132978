import ChipEight.Machine.Dump
import ChipEight.Proofs.Loose.Operations
import ChipEight.Proofs.Numerals

namespace ChipEight

/-!
# What the state dump shows

* `Text.SelfDelimiting` — texts that can be told from whatever follows them, as those of a fixed
  length can; `Text.SelfDelimiting.intercalate_inj` reads a list of them back;
* `Machine.Shown` — the parts of a machine that the dump shows;
* `Machine.splitOn_dump` — its lines are those that it is made from;
* `Machine.dump_eq_iff` — hence the dump shows these parts, and nothing else;
* `Machine.Shown.lines`, `Machine.dumpLines_eq` — the lines once more, numeral by numeral;
* `Loose.dump` — the dump of the loose machine, which pads numbers of any size and sign, and
  `Loose.Runs.dump`, which says that it shows the same;
* `Machine.dump_loses_nothing` — all of it, after any run.
-/

/-! ### Texts that can be told from what follows -/

namespace Text

variable {α : Type}

/-- Texts that can be told from whatever follows them. -/
def SelfDelimiting (f : α → String) : Prop :=
  ∀ ⦃a b : α⦄ ⦃s t : String⦄, f a ++ s = f b ++ t → a = b ∧ s = t

/-- A bit vector, written with as many digits as it takes in any case. -/
theorem selfDelimiting_text (width count : Nat) (fits : 2 ^ width ≤ 16 ^ count) :
    SelfDelimiting fun b : BitVec width => Hex.text count b.toNat := by
  intro b c s t same
  have same := congrArg String.toList same
  simp only [Hex.text, String.toList_append, String.toList_ofList] at same
  obtain ⟨digits, rest⟩ := List.append_inj same (by simp)
  refine ⟨BitVec.eq_of_toNat_eq (Hex.digits_inj ?_ ?_ digits), String.toList_inj.mp rest⟩
  · exact b.isLt.trans_le fits
  · exact c.isLt.trans_le fits

/-- A list of such texts is read back from one text with something between them, if none of them
    is empty. -/
theorem SelfDelimiting.intercalate_inj {f : α → String} (delimiting : SelfDelimiting f)
    (written : ∀ a, f a ≠ "") {between : String} (apart : between ≠ "") {xs ys : List α}
    (same : between.intercalate (xs.map f) = between.intercalate (ys.map f)) : xs = ys := by
  -- Where a list is at its end the other one is too, since there is nothing more to read.
  induction xs generalizing ys with
  | nil =>
    cases ys with
    | nil => rfl
    | cons y ys => cases ys <;> simp [written] at same
  | cons x xs ih =>
    cases ys with
    | nil => cases xs <;> simp [written] at same
    | cons y ys =>
      cases xs with
      | nil =>
        cases ys with
        | nil =>
          obtain ⟨rfl, -⟩ := delimiting (s := "") (t := "") (by simpa using same)
          rfl
        | cons z ys =>
          obtain ⟨-, nothing⟩ := delimiting (s := "") (by simpa [String.append_assoc] using same)
          exact absurd (String.append_eq_empty_iff.mp nothing.symm).1 apart
      | cons w xs =>
        cases ys with
        | nil =>
          obtain ⟨-, nothing⟩ := delimiting (t := "") (by simpa [String.append_assoc] using same)
          exact absurd (String.append_eq_empty_iff.mp nothing).1 apart
        | cons z ys =>
          simp only [List.map_cons, String.intercalate_cons_cons, String.append_assoc] at same
          obtain ⟨rfl, rest⟩ := delimiting same
          have tails : between.intercalate ((w :: xs).map f)
              = between.intercalate ((z :: ys).map f) :=
            (String.append_right_inj between).mp rest
          rw [ih tails]

end Text

namespace Machine

variable {ρ σ : Type}

/-! ### What is shown -/

/-- The parts of a machine that the dump shows. -/
structure Shown where
  pc : Word
  operand : Word
  index : Word
  /-- How many return addresses there are. -/
  depth : Nat
  registers : Bank Byte
  delay : Byte
  sound : Byte
  /-- The return addresses, the oldest first. -/
  calls : List Word
deriving DecidableEq

/-- What the dump shows of a machine. -/
def shown (m : Machine ρ) : Shown where
  pc := m.pc
  operand := m.operand
  index := m.index
  depth := m.stack.depth.val
  registers := m.registers
  delay := m.delay
  sound := m.sound
  calls := m.stack.live

/-- The line of the counters tells them. -/
theorem counters_of_line {m : Machine ρ} {n : Machine σ} {s t : String}
    (same : "PC: " ++ Text.Hex.text 4 m.pc.toNat ++ "  OP: " ++ Text.Hex.text 4 m.operand.toNat
        ++ "  I: " ++ Text.Hex.text 4 m.index.toNat ++ "  SP: " ++ s
      = "PC: " ++ Text.Hex.text 4 n.pc.toNat ++ "  OP: " ++ Text.Hex.text 4 n.operand.toNat
        ++ "  I: " ++ Text.Hex.text 4 n.index.toNat ++ "  SP: " ++ t) :
    m.pc = n.pc ∧ m.operand = n.operand ∧ m.index = n.index := by
  have word := Text.selfDelimiting_text 16 4 (by decide)
  simp only [String.append_assoc] at same
  obtain ⟨pc, same⟩ := word ((String.append_right_inj _).mp same)
  obtain ⟨operand, same⟩ := word ((String.append_right_inj _).mp same)
  obtain ⟨index, -⟩ := word ((String.append_right_inj _).mp same)
  exact ⟨pc, operand, index⟩

/-- The line of the timers tells both. -/
theorem timers_of_line {m : Machine ρ} {n : Machine σ}
    (same : "DT: " ++ Text.Hex.text 2 m.delay.toNat ++ "  ST: " ++ Text.Hex.text 2 m.sound.toNat
      = "DT: " ++ Text.Hex.text 2 n.delay.toNat ++ "  ST: " ++ Text.Hex.text 2 n.sound.toNat) :
    m.delay = n.delay ∧ m.sound = n.sound := by
  have byte := Text.selfDelimiting_text 8 2 (by decide)
  simp only [String.append_assoc] at same
  obtain ⟨delay, same⟩ := byte ((String.append_right_inj _).mp same)
  obtain ⟨sound, -⟩ := byte (s := "") (t := "") (by simpa using same)
  exact ⟨delay, sound⟩

/-- The lines of the registers tell all of them. -/
theorem registers_of_lines {m : Machine ρ} {n : Machine σ}
    (same : m.registerLines = n.registerLines) : m.registers = n.registers := by
  have byte := Text.selfDelimiting_text 8 2 (by decide)
  have lines := List.map_inj_left.mp same
  ext x : 1
  have line := (String.append_right_inj _).mp (lines x (Nibble.mem_all x))
  show m.reg x = n.reg x
  exact (byte (s := "") (t := "") (by simpa using line)).1

/-- The line of the return addresses tells them, and how many there are. -/
theorem calls_of_line {m : Machine ρ} {n : Machine σ}
    (same : "STACK: [" ++ ", ".intercalate (m.stack.live.map fun a => Text.Hex.text 4 a.toNat)
        ++ "]"
      = "STACK: [" ++ ", ".intercalate (n.stack.live.map fun a => Text.Hex.text 4 a.toNat)
        ++ "]") :
    m.stack.live = n.stack.live := by
  have word := Text.selfDelimiting_text 16 4 (by decide)
  have written (a : Word) : Text.Hex.text 4 a.toNat ≠ "" := by
    rw [Text.Hex.text, ne_eq, String.ofList_eq_empty_iff, ← List.length_eq_zero_iff]
    simp
  have inner := (String.append_right_inj _).mp ((String.append_left_inj _).mp same)
  exact word.intercalate_inj written (by decide) inner

end Machine

/-! ### Lines -/

namespace Text

/-- No digit is a line break. -/
theorem break_notMem_hex (count n : Nat) : '\n' ∉ (Hex.text count n).toList := by
  have digit (d : Nat) : Hex.digit d ≠ '\n' := by
    have numeral : ∀ d : Nibble, d.numeral ≠ '\n' := by decide
    rw [Hex.digit_eq_numeral]
    exact numeral _
  rw [Hex.text, String.toList_ofList, Hex.digits_eq_map]
  simp [digit]

/-- Texts without line breaks have none when they are put in a row. -/
theorem break_notMem_intercalate {between : String} (apart : '\n' ∉ between.toList)
    {texts : List String} (each : ∀ t ∈ texts, '\n' ∉ t.toList) :
    '\n' ∉ (between.intercalate texts).toList := by
  induction texts with
  | nil => simp
  | cons t texts ih =>
    have rest := ih fun u hu => each u (List.mem_cons_of_mem t hu)
    cases texts with
    | nil => simpa using each
    | cons u texts =>
      simp only [String.intercalate_cons_cons, String.toList_append, List.mem_append, not_or]
      exact ⟨⟨each t List.mem_cons_self, apart⟩, rest⟩

end Text

namespace Machine

variable {ρ σ : Type}

/-- No line of the dump has a line break in it. -/
theorem break_notMem_of_mem_dumpLines {m : Machine ρ} {line : String}
    (among : line ∈ m.dumpLines) : '\n' ∉ line.toList := by
  have depth : '\n' ∉ (depthText m.stack.depth).toList := Text.break_notMem_hex _ _
  have calls : '\n' ∉ (", ".intercalate (m.stack.live.map fun a =>
      Text.Hex.text 4 a.toNat)).toList := by
    apply Text.break_notMem_intercalate (by decide)
    intro t ht
    obtain ⟨a, -, rfl⟩ := List.mem_map.mp ht
    exact Text.break_notMem_hex _ _
  simp only [dumpLines, registerLines, List.mem_append, List.mem_cons, List.mem_map,
    List.not_mem_nil, or_false] at among
  obtain (rfl | ⟨x, -, rfl⟩) | rfl | rfl := among
  all_goals simp [depth, calls, Text.break_notMem_hex, -String.toList_intercalate]

/-- The lines of the dump are those that it is made from. -/
theorem splitOn_dump (m : Machine ρ) :
    m.dump.toList.splitOn '\n' = m.dumpLines.map String.toList := by
  have clean : ∀ line ∈ m.dumpLines.map String.toList, '\n' ∉ line := by
    intro chars among
    obtain ⟨line, shown, rfl⟩ := List.mem_map.mp among
    exact break_notMem_of_mem_dumpLines shown
  have lines : m.dumpLines.map String.toList ≠ [] := by simp [dumpLines]
  have lineBreak : "\n".toList = ['\n'] := by decide
  rw [dump, String.toList_intercalate, lineBreak, List.splitOn_intercalate '\n' clean lines]

/-- The dump tells its lines. -/
theorem dumpLines_of_dump {m : Machine ρ} {n : Machine σ} (same : m.dump = n.dump) :
    m.dumpLines = n.dumpLines := by
  have lines : m.dumpLines.map String.toList = n.dumpLines.map String.toList := by
    rw [← splitOn_dump, ← splitOn_dump, same]
  exact List.map_injective_iff.mpr (fun _ _ => String.toList_inj.mp) lines

/-- **The dump shows what it shows, and nothing else.** -/
theorem dump_eq_iff (m : Machine ρ) (n : Machine σ) : m.dump = n.dump ↔ m.shown = n.shown := by
  constructor
  · intro same
    have lines := dumpLines_of_dump same
    rw [dumpLines, dumpLines, List.append_assoc, List.append_assoc, List.singleton_append,
      List.singleton_append] at lines
    obtain ⟨first, rest⟩ := List.cons.inj lines
    obtain ⟨registers, last⟩ := List.append_inj rest (by simp [registerLines])
    obtain ⟨timers, last⟩ := List.cons.inj last
    obtain ⟨calls, -⟩ := List.cons.inj last
    obtain ⟨pc, operand, index⟩ := counters_of_line first
    obtain ⟨delay, sound⟩ := timers_of_line timers
    have calls := calls_of_line calls
    have depth : m.stack.depth.val = n.stack.depth.val := by
      rw [← CallStack.length_live, calls, CallStack.length_live]
    simp only [shown, pc, operand, index, depth, registers_of_lines registers, delay, sound, calls]
  · intro same
    simp only [shown, Shown.mk.injEq] at same
    obtain ⟨pc, operand, index, depth, registers, delay, sound, calls⟩ := same
    have depth : m.stack.depth = n.stack.depth := Fin.ext depth
    simp only [dump, dumpLines, registerLines, reg, pc, operand, index, depth, registers, delay,
      sound, calls]

/-! ### Numerals -/

/-- The lines that show it: words with four numerals, bytes with two.  The depth of the stack
    takes two only if the stack is full. -/
def Shown.lines (s : Shown) : List String :=
  ["PC: " ++ s.pc.hex ++ "  OP: " ++ s.operand.hex ++ "  I: " ++ s.index.hex ++ "  SP: "
    ++ if s.depth < 16 then String.ofList [Nibble.numeral (BitVec.ofNat 4 s.depth)] else "10"]
  ++ (Nibble.all.map fun x =>
    "V" ++ String.ofList [x.numeral] ++ ": " ++ (s.registers.entry x).hex)
  ++ ["DT: " ++ s.delay.hex ++ "  ST: " ++ s.sound.hex,
    "STACK: [" ++ ", ".intercalate (s.calls.map Word.hex) ++ "]"]

/-- The depth of the stack in numerals. -/
theorem depthText_eq (depth : Fin 17) :
    depthText depth
      = if depth.val < 16 then String.ofList [Nibble.numeral (BitVec.ofNat 4 depth.val)]
        else "10" := by
  revert depth
  decide

/-- These are the lines of the dump. -/
theorem dumpLines_eq (m : Machine ρ) : m.dumpLines = m.shown.lines := by
  have nibble (x : Nibble) : Text.Hex.text 1 x.toNat = String.ofList [x.numeral] := by
    rw [Text.Hex.text, ← Text.Hex.digit_toNat]
    rfl
  simp only [dumpLines, registerLines, Shown.lines, shown, reg, Word.text_toNat, Byte.text_toNat,
    nibble, depthText_eq]
  rfl

end Machine

/-! ### The loose machine -/

namespace Text.Hex

/-- A number of any size and sign in as many digits as it takes, with zeros in front of them up
    to a width, in which the sign counts. -/
def padded (width : Nat) (n : Int) : String :=
  let sign := if n < 0 then ['-'] else []
  let digits := (Nat.toDigits 16 n.natAbs).map Char.toUpper
  String.ofList (sign ++ List.replicate (width - sign.length - digits.length) '0' ++ digits)

/-- The digits of zero. -/
theorem digits_zero (count : Nat) : digits count 0 = List.replicate count '0' := by
  induction count with
  | zero => rfl
  | succ count ih => rw [digits, Nat.zero_div, ih, List.replicate_succ']; rfl

/-- With zeros in front a number has the digits that it has anyway, if there are enough of
    them. -/
theorem replicate_append_toDigits {count n : Nat} (below : n < 16 ^ (count + 1)) :
    let some := (Nat.toDigits 16 n).map Char.toUpper
    List.replicate (count + 1 - some.length) '0' ++ some = digits (count + 1) n := by
  have single {d : Nat} (h : d < 16) : (Nat.toDigits 16 d).map Char.toUpper = [digit d] := by
    rw [Nat.toDigits_of_lt_base h, List.map_singleton]
    have table : ∀ d < 16, (Nat.digitChar d).toUpper = digit d := by decide
    rw [table d h]
  induction count generalizing n with
  | zero =>
    have small : n < 16 := below
    rw [single small]
    rfl
  | succ count ih =>
    rcases Nat.lt_or_ge n 16 with small | large
    · have nothing : n / 16 = 0 := Nat.div_eq_of_lt small
      rw [single small, digits, nothing, digits_zero]
      rfl
    · -- The last digit apart, the number is the one of its other digits.
      have whole : Nat.toDigits 16 n = Nat.toDigits 16 (n / 16) ++ Nat.toDigits 16 (n % 16) := by
        rw [Nat.toDigits_append_toDigits (by decide) (by omega) (Nat.mod_lt n (by decide)),
          Nat.div_add_mod]
      have front := ih (n := n / 16) (by omega)
      have count_eq (k : Nat) : count + 1 + 1 - (k + 1) = count + 1 - k := by omega
      simp only [whole, List.map_append, single (Nat.mod_lt n (by decide)), digit_mod,
        List.length_append, List.length_singleton, count_eq, ← List.append_assoc, front]
      rfl

/-- So it is written with as many digits as the width says. -/
theorem padded_natCast {count n : Nat} (below : n < 16 ^ (count + 1)) :
    padded (count + 1) n = text (count + 1) n := by
  have natural : ¬ (n : Int) < 0 := by omega
  simp only [padded, if_neg natural, List.length_nil, Nat.sub_zero, List.nil_append,
    Int.natAbs_natCast, replicate_append_toDigits below, text]

end Text.Hex

namespace Loose

open Text

variable {ρ α β : Type}

/-- The first entries of a list, up to an index that counts from the end below zero. -/
def upTo (xs : List α) (stop : Int) : List α :=
  xs.take (if stop < 0 then stop + xs.length else stop).toNat

/-- A text with the line of a register behind it. -/
def addRegisterLine (shown : String) (i : Nat) : Step ρ String := do
  let value ← register i
  pure (shown ++ "V" ++ Hex.padded 1 i ++ ": " ++ Hex.padded 2 value ++ "\n")

/-- The state as text. -/
def dump : Step ρ String := do
  let counters ← look fun s =>
    "PC: " ++ Hex.padded 4 s.pc ++ "  OP: " ++ Hex.padded 4 s.operand ++ "  I: "
      ++ Hex.padded 4 s.index ++ "  SP: " ++ Hex.padded 1 s.depth ++ "\n"
  let registers ← (List.range 16).foldlM addRegisterLine counters
  let timers ← look fun s =>
    "DT: " ++ Hex.padded 2 s.delay ++ "  ST: " ++ Hex.padded 2 s.sound ++ "\n"
  let calls ← look fun s => upTo s.slots s.depth
  pure (registers ++ timers
    ++ "STACK: [" ++ ", ".intercalate (calls.map (Hex.padded 4)) ++ "]")

/-- Building a text step by step, with the state left alone. -/
theorem Runs.foldlM {f : β → α → Step ρ β} {g : β → α → β} {m : Machine ρ} (xs : List α)
    (step : ∀ a ∈ xs, ∀ b, Runs (f b a) m (g b a) m) (b : β) :
    Runs (xs.foldlM f b) m (xs.foldl g b) m := by
  induction xs generalizing b with
  | nil => exact pure b
  | cons a xs ih =>
    exact bind (step a List.mem_cons_self b)
      (ih (fun c hc => step c (List.mem_cons_of_mem a hc)) (g b a))

/-- Words and bytes need no more digits than the widths that they are padded to. -/
theorem padded_word (w : Word) : Hex.padded 4 w.toNat = Hex.text 4 w.toNat :=
  Hex.padded_natCast (w.isLt.trans_le (by decide))

theorem padded_byte (b : Byte) : Hex.padded 2 b.toNat = Hex.text 2 b.toNat :=
  Hex.padded_natCast (b.isLt.trans_le (by decide))

theorem padded_depth (depth : Fin 17) : Hex.padded 1 depth.val = Machine.depthText depth := by
  revert depth
  decide

/-- The slots in use are the return addresses. -/
theorem upTo_slots (stack : CallStack) :
    upTo (numbers stack.slots.toList) stack.depth.val = numbers stack.live := by
  have natural : ¬ ((stack.depth.val : Nat) : Int) < 0 := by omega
  rw [upTo, if_neg natural, Int.toNat_natCast, numbers, ← List.map_take]
  rfl

/-- Lines that are put one behind the other, each with a line break behind it, and others that
    are put behind them. -/
theorem intercalate_lines (first : String) (lines : List String) {rest : List String}
    (more : rest ≠ []) :
    "\n".intercalate (first :: (lines ++ rest))
      = lines.foldl (fun shown line => shown ++ line ++ "\n") (first ++ "\n")
        ++ "\n".intercalate rest := by
  induction lines generalizing first with
  | nil => exact String.intercalate_cons_of_ne_nil more
  | cons line lines ih =>
    rw [List.cons_append, String.intercalate_cons_cons, ← String.intercalate_cons_append, ih]
    rfl

/-- **The loose machine shows the same.**  Its numbers are in range, so none needs more digits
    than it is padded to. -/
theorem Runs.dump (m : Machine ρ) : Runs dump m m.dump m := by
  have lines (b : String) : Runs ((List.range 16).foldlM addRegisterLine b) m
      (m.registerLines.foldl (fun shown line => shown ++ line ++ "\n") b) m := by
    have places : List.range 16 = Nibble.all.map BitVec.toNat := by decide
    rw [places, List.foldlM_map, Machine.registerLines, List.foldl_map]
    refine Runs.foldlM _ (fun x _ shown => (register x).bind ?_) b
    have number : Hex.padded 1 x.toNat = Hex.text 1 x.toNat := Hex.padded_natCast x.isLt
    rw [number, padded_byte]
    simp only [String.append_assoc]
    exact pure _
  have calls : (upTo m.loose.slots m.loose.depth).map (Hex.padded 4)
      = m.stack.live.map fun a => Hex.text 4 a.toNat := by
    show (upTo (numbers m.stack.slots.toList) m.stack.depth.val).map (Hex.padded 4) = _
    rw [upTo_slots, numbers, List.map_map]
    exact List.map_congr_left fun a _ => padded_word a
  refine (look _).bind ((lines _).bind ((look _).bind ((look _).bind ?_)))
  rw [calls, Machine.dump, Machine.dumpLines, List.append_assoc, List.singleton_append,
    intercalate_lines _ _ (List.cons_ne_nil _ _), String.intercalate_cons_cons,
    String.intercalate_singleton]
  have counters : m.loose.pc = (m.pc.toNat : Int) ∧ m.loose.operand = (m.operand.toNat : Int)
      ∧ m.loose.index = (m.index.toNat : Int) ∧ m.loose.depth = (m.stack.depth.val : Int)
      ∧ m.loose.delay = (m.delay.toNat : Int) ∧ m.loose.sound = (m.sound.toNat : Int) :=
    ⟨rfl, rfl, rfl, rfl, rfl, rfl⟩
  obtain ⟨pc, operand, index, depth, delay, sound⟩ := counters
  simp only [pc, operand, index, depth, delay, sound, padded_word, padded_byte, padded_depth,
    String.append_assoc]
  exact pure _

end Loose

namespace Machine

variable {ρ σ : Type}

/-- **The dump loses nothing that it shows.**  Two machines are shown the same if and only if
    they have the same counters, registers, timers and return addresses; unused slots, memory,
    picture and keypad do not matter.  The dump has nineteen lines, in which a word is four
    numerals, a byte is two, and a numeral is an upper-case hexadecimal digit.  The loose machine,
    which pads its integers and would show more digits of larger ones, shows the same after any
    run. -/
theorem dump_loses_nothing [RandomSource ρ] (m : Machine ρ) (n : Machine σ) :
    (m.dump = n.dump ↔ m.shown = n.shown)
      ∧ m.dump.toList.splitOn '\n' = m.shown.lines.map String.toList
      ∧ m.shown.lines.length = 19
      ∧ (∀ w : Word, w.hex.length = 4) ∧ (∀ b : Byte, b.hex.length = 2)
      ∧ (∀ d : Nibble, d.numeral ∈ "0123456789ABCDEF".toList)
      ∧ Loose.dump m.loose = .ok m.dump m.loose
      ∧ ∀ (strict : Bool) (random : ρ) (operations : List Operation),
        let s := (Loose.new strict random).after operations
        Loose.dump s = .ok ((new strict random).after operations).dump s := by
  refine ⟨dump_eq_iff m n, ?_, ?_, fun w => ?_, fun b => ?_, by decide, Loose.Runs.dump m,
    fun strict random operations => ?_⟩
  · rw [splitOn_dump, dumpLines_eq]
  · simp [Shown.lines]
  · simp [Word.hex]
  · simp [Byte.hex]
  · intro s
    have same : s = ((new strict random).after operations).loose := by
      rw [← Loose.after_loose, Loose.loose_new]
    rw [same]
    exact Loose.Runs.dump _

end Machine

end ChipEight
