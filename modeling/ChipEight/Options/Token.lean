import ChipEight.Options.Basic
import ChipEight.Text.Digit

namespace ChipEight

/-!
# Tokens of the command line

Each argument is told apart by its own form before any of them is used.

* `Token` — a plain argument, an option with the value written in the same
  argument if there is one, or something that looks like an option but is none;
* `Token.ofArgument` — the token of one argument;
* `Scan` — the tokens up to the separator `--`, and the arguments behind it, which
  are taken as they are;
* `Scan.ofArguments` — the tokens of a command line.
-/

/-- What an argument is. -/
inductive Token
  | plain (text : String)
  | flag (flag : Flag) (value : Option String)
  | unknown (text : String)
deriving DecidableEq, Repr

namespace Token

open Options Text

/-- Whether the rest of a negative number is a decimal fraction: digits, a point and
    at least one digit. -/
def isFraction (cs : List Char) : Bool :=
  match cs.dropWhile isDigit with
  | '.' :: digits => !digits.isEmpty && digits.all isDigit
  | _ => false

/-- Whether an argument that starts with a dash is a negative number: digits, or a
    decimal fraction, after the dash.  A line break may end it. -/
def isNegativeNumber (cs : List Char) : Bool :=
  let body := cs.drop 1
  let body := if body.getLast? = some '\n' then body.dropLast else body
  (!body.isEmpty && body.all isDigit) || isFraction body

/-- The options that an argument may stand for, with their values.  A name that
    starts with two dashes may be shortened and may carry a value behind an equals
    sign; one that starts with a single dash may carry a value right behind its
    letter. -/
def candidates (cs : List Char) : List (Flag × Option String) :=
  if cs.take 2 = ['-', '-'] then
    let name := cs.takeWhile (· ≠ '=')
    let value := if '=' ∈ cs then some (String.ofList (cs.drop (name.length + 1))) else none
    (Flag.all.filter fun f => name.isPrefixOf f.text.toList).map (·, value)
  else
    Flag.all.filterMap fun f =>
      if f.text.toList = cs.take 2 then some (f, some (String.ofList (cs.drop 2)))
      else if cs.isPrefixOf f.text.toList then some (f, none)
      else none

/-- The option that an argument names in full, with the value behind an equals
    sign. -/
def named? (cs : List Char) : Option (Flag × Option String) :=
  match Flag.ofText? cs with
  | some f => some (f, none)
  | none =>
    let name := cs.takeWhile (· ≠ '=')
    if '=' ∈ cs then
      (Flag.ofText? name).map (·, some (String.ofList (cs.drop (name.length + 1))))
    else none

/-- The token of an argument that starts with a dash and has more to it. -/
def ofDashed (text : String) : Except Stop Token :=
  let cs := text.toList
  match named? cs with
  | some (f, value) => .ok (flag f value)
  | none =>
    match candidates cs with
    | [(f, value)] => .ok (flag f value)
    | [] =>
      if isNegativeNumber cs ∨ ' ' ∈ cs then .ok (plain text) else .ok (unknown text)
    | several => .error (.refused (.ambiguous text (several.map Prod.fst)))

/-- The token of an argument.  What does not start with a dash is plain, and so are
    the dash alone, a negative number and, unless it is an option, anything with a
    space in it. -/
def ofArgument (text : String) : Except Stop Token :=
  match text.toList with
  | '-' :: _ :: _ => ofDashed text
  | _ => .ok (plain text)

end Token

/-- The tokens up to the separator, and the arguments behind it if there is one. -/
structure Scan where
  tokens : List Token
  literal : Option (List String)
deriving DecidableEq, Repr

namespace Scan

/-- The tokens of a command line. -/
def ofArguments : List String → Except Options.Stop Scan
  | [] => .ok ⟨[], none⟩
  | text :: rest =>
    if text = "--" then .ok ⟨[], some rest⟩
    else do
      let token ← Token.ofArgument text
      let scan ← ofArguments rest
      return ⟨token :: scan.tokens, scan.literal⟩

end Scan

end ChipEight
