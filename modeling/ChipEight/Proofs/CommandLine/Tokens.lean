import ChipEight.Options.Token
import ChipEight.Proofs.CommandLine.Number
import Mathlib.Data.List.Forall2

namespace ChipEight

open Text

/-!
# Arguments told apart

What the arguments that a command line is made of are taken for, each by its own form.

* `Token.ofArgument_of_no_dash`, `Token.ofArgument_decimal` — what has no dash in front is
  plain, and so is decimal text with one;
* `Token.ofArgument_flag`, `Token.ofArgument_joined` — an option, alone or with its value
  behind an equals sign;
* `Scan.ofArguments_of_forall₂` — the tokens of a command line are those of its arguments.
-/

/-! ### Names of options -/

namespace Flag

/-- An option is found by its name. -/
theorem ofText?_text (f : Flag) : ofText? f.text.toList = some f := by
  cases f <;> decide

/-- There is no equals sign in a name. -/
theorem equals_notMem_text (f : Flag) : '=' ∉ f.text.toList := by
  cases f <;> decide

/-- A name starts with a dash, and no digit is behind it. -/
theorem text_eq_dash (f : Flag) :
    ∃ c cs, f.text.toList = '-' :: c :: cs ∧ c.isDigit = false := by
  cases f <;> exact ⟨_, _, rfl, by decide⟩

/-- What is no name names no option. -/
theorem ofText?_eq_none {cs : List Char} (other : ∀ f : Flag, f.text.toList ≠ cs) :
    ofText? cs = none :=
  List.find?_eq_none.mpr fun f _ => by simpa using other f

end Flag

namespace Token

/-! ### Plain arguments -/

/-- What has no dash in front is plain. -/
theorem ofArgument_of_no_dash {text : String} (plain : text.toList.head? ≠ some '-') :
    ofArgument text = .ok (.plain text) := by
  unfold ofArgument
  split
  case h_1 same => simp [same] at plain
  case h_2 => rfl

section Negative

variable {c : Char} (digit : c.isDigit) (cs : List Char)
include digit

/-- No name is a dash with a digit behind it. -/
theorem text_ne_of_isDigit (f : Flag) : f.text.toList ≠ '-' :: c :: cs := by
  obtain ⟨d, ds, text, other⟩ := f.text_eq_dash
  intro same
  rw [text] at same
  injection same with _ same
  injection same with same _
  rw [same, digit] at other
  exact absurd other (by decide)

/-- No name starts like that either. -/
theorem isPrefixOf_of_isDigit (f : Flag) : ('-' :: c :: cs).isPrefixOf f.text.toList = false := by
  by_contra found
  obtain ⟨rest, text⟩ := List.isPrefixOf_iff_prefix.mp (Bool.of_not_eq_false found)
  exact text_ne_of_isDigit digit (cs ++ rest) f text.symm

/-- So it is short for no option. -/
theorem candidates_of_isDigit : candidates ('-' :: c :: cs) = [] := by
  have single : c ≠ '-' := by
    rintro rfl
    exact absurd digit (by decide)
  rw [candidates, if_neg (by simp [single]), List.filterMap_eq_nil_iff]
  intro f _
  have short : f.text.toList ≠ ('-' :: c :: cs).take 2 := text_ne_of_isDigit digit [] f
  rw [if_neg short, isPrefixOf_of_isDigit digit cs f]
  rfl

end Negative

/-- Digits behind a dash are a negative number. -/
theorem isNegativeNumber_dash {cs : List Char} (digital : ∀ c ∈ cs, c.isDigit)
    (written : cs ≠ []) : isNegativeNumber ('-' :: cs) := by
  have last : cs.getLast? ≠ some '\n' := by
    intro line
    have := digital _ (List.mem_of_getLast? line)
    exact absurd this (by decide)
  have all : cs.all Text.isDigit := by
    rw [List.all_eq_true]
    intro c among
    rw [Text.isDigit, digitValue?_of_isDigit (digital c among)]
    rfl
  simp [isNegativeNumber, last, all, written]

/-- **Decimal text is plain**, and its dash does not make it an option. -/
theorem ofArgument_decimal (n : Decimal) : ofArgument n.text = .ok (.plain n.text) := by
  obtain ⟨c, cs, digits⟩ := List.exists_cons_of_ne_nil n.written
  have digit : c.isDigit := n.digital c (by simp [digits])
  cases negative : n.negative with
  | false =>
    apply ofArgument_of_no_dash
    rw [Decimal.text, String.toList_ofList, Decimal.chars, negative, digits]
    rintro ⟨⟩
    exact absurd digit (by decide)
  | true =>
    have chars : n.text.toList = '-' :: c :: cs := by
      rw [Decimal.text, String.toList_ofList, Decimal.chars, negative, digits]
      rfl
    have number : isNegativeNumber ('-' :: c :: cs) := by
      rw [← digits]
      exact isNegativeNumber_dash n.digital n.written
    have unnamed : named? ('-' :: c :: cs) = none := by
      have apart : '=' ∉ '-' :: c :: cs := by
        rw [← digits]
        intro among
        obtain same | among := List.mem_cons.mp among
        · exact absurd same (by decide)
        · exact absurd (n.digital _ among) (by decide)
      rw [named?, Flag.ofText?_eq_none (text_ne_of_isDigit digit cs)]
      exact if_neg apart
    rw [ofArgument, chars]
    show ofDashed n.text = _
    rw [ofDashed, chars]
    simp only [unnamed, candidates_of_isDigit digit cs, number, true_or, if_true]

/-! ### Options -/

/-- An argument that names an option in full, at its front, is that option. -/
theorem ofArgument_of_named {text : String} {f : Flag} {value : Option String} {rest : List Char}
    (chars : text.toList = f.text.toList ++ rest) (named : named? text.toList = some (f, value)) :
    ofArgument text = .ok (.flag f value) := by
  obtain ⟨c, cs, start, -⟩ := f.text_eq_dash
  have dashed : ofArgument text = ofDashed text := by
    rw [ofArgument, chars, start]
    rfl
  rw [dashed, ofDashed]
  simp only [named]

/-- **An option is told by its name.** -/
theorem ofArgument_flag (f : Flag) : ofArgument f.text = .ok (.flag f none) := by
  apply ofArgument_of_named (List.append_nil _).symm
  rw [named?, f.ofText?_text]

/-- **An option is told by its name in front of an equals sign**, and what is behind the sign is
    its value, whatever it is. -/
theorem ofArgument_joined (f : Flag) (value : String) :
    ofArgument (f.text ++ "=" ++ value) = .ok (.flag f (some value)) := by
  have chars : (f.text ++ "=" ++ value).toList = f.text.toList ++ '=' :: value.toList := by
    simp
  apply ofArgument_of_named chars
  have unnamed : Flag.ofText? (f.text.toList ++ '=' :: value.toList) = none := by
    apply Flag.ofText?_eq_none
    intro g same
    apply g.equals_notMem_text
    rw [same]
    simp
  have name : (f.text.toList ++ '=' :: value.toList).takeWhile (· ≠ '=') = f.text.toList := by
    rw [List.takeWhile_append_of_pos]
    · simp
    · intro c among
      simpa using ne_of_mem_of_not_mem among f.equals_notMem_text
  rw [chars, named?, unnamed]
  simp only [name, f.ofText?_text]
  simp

/-- The separator is no argument that can be told apart. -/
theorem ofArgument_separator {token : Token} : ofArgument "--" ≠ .ok token := by
  have several : ofArgument "--"
      = .error (.refused (.ambiguous "--" [.help, .seed, .strict, .logLevel])) := by
    decide
  rw [several]
  rintro ⟨⟩

end Token

/-! ### Command lines -/

/-- **The tokens of a command line** without a separator are those of its arguments. -/
theorem Scan.ofArguments_of_forall₂ {arguments : List String} {tokens : List Token}
    (told : List.Forall₂ (Token.ofArgument · = .ok ·) arguments tokens) :
    Scan.ofArguments arguments = .ok ⟨tokens, none⟩ := by
  induction told with
  | nil => rfl
  | cons first _ ih =>
    rw [Scan.ofArguments, if_neg, first, ih]
    · rfl
    · rintro rfl
      exact Token.ofArgument_separator first

end ChipEight
