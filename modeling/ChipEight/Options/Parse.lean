import ChipEight.Options.Token
import ChipEight.Text.Integer

namespace ChipEight

/-!
# Reading the command line

`Options.parse` reads the tokens of a command line from left to right.

* `Positionals` — how many of the three positional arguments have been read, and
  their values;
* `Draft` — the settings read so far, and the arguments without a use;
* `Draft.read` — the tokens, one after the other;
* `Draft.readLiteral` — what stands behind the separator;
* `Draft.finish` — the settings, if nothing is missing and nothing is left over.

The first fault met ends the reading, and so does the wish for help.  A separator
that stands where a value is read is taken away, and the argument is hollow: it has
been given, but nothing remains of its value.
-/

/-! ### Positional arguments -/

/-- The positional arguments read so far. -/
inductive Positionals
  | nothing
  | scale (scale : Int)
  | delay (scale delay : Int)
  | rom (scale delay : Int) (rom : String)
deriving DecidableEq, Repr

namespace Positionals

open Options

/-- Whether all of them have been read. -/
def isFull : Positionals → Bool
  | rom .. => true
  | _ => false

/-- The names of those that have not been read. -/
def missing : Positionals → List Argument
  | nothing => [.scale, .delay, .rom]
  | scale _ => [.delay, .rom]
  | delay .. => [.rom]
  | rom .. => []

/-- The integer of an argument. -/
def integer (argument : Argument) (text : String) : Except Stop Int :=
  match Text.integer? text with
  | some n => .ok n
  | none => .error (.refused (.notInteger argument text))

/-- Read the next one. -/
def add (text : String) : Positionals → Except Stop Positionals
  | nothing => (integer .scale text).map scale
  | scale s => (integer .delay text).map (delay s)
  | delay s d => .ok (rom s d text)
  | rom s d r => .ok (rom s d r)

/-- Count the next one as read, with nothing for its value. -/
def addHollow : Positionals → Positionals
  | nothing => scale 0
  | scale s => delay s 0
  | delay s d => rom s d ""
  | rom s d r => rom s d r

end Positionals

/-! ### Drafts -/

/-- What has been read of a command line. -/
structure Draft where
  positionals : Positionals := .nothing
  seed : Option Int := none
  strict : Bool := false
  level : Level := .warning
  /-- The arguments without a use. -/
  extras : List String := []
  /-- The arguments of whose values nothing remains. -/
  hollow : List Argument := []
deriving DecidableEq, Repr

namespace Draft

open Options

/-- Set an argument aside. -/
def setAside (d : Draft) (texts : List String) : Draft := { d with extras := d.extras ++ texts }

/-- Read a positional argument. -/
def addPositional (d : Draft) (text : String) : Except Stop Draft :=
  (d.positionals.add text).map fun p => { d with positionals := p }

/-- Count a positional argument as read, with nothing for its value. -/
def addHollow (d : Draft) : Draft :=
  { d with
    positionals := d.positionals.addHollow
    hollow := d.hollow ++ d.positionals.missing.take 1 }

/-- Give an argument a value of which nothing remains. -/
def setHollow (d : Draft) (argument : Argument) : Draft :=
  { d with hollow := d.hollow.erase argument ++ [argument] }

/-- Give the argument of an option its value.  The last value given counts. -/
def setValue (d : Draft) (argument : Argument) (value : String) : Except Stop Draft :=
  let d := { d with hollow := d.hollow.erase argument }
  match argument with
  | .seed => (Positionals.integer .seed value).map fun n => { d with seed := some n }
  | .logLevel =>
    match Level.ofName? value with
    | some level => .ok { d with level := level }
    | none => .error (.refused (.notLevel value))
  | _ => .ok d

/-- Read an option that takes no value.  Behind the letter of the short one the same
    letter may be repeated, as if the options stood one by one; any other value is
    too much. -/
def setSwitch (d : Draft) (flag : Flag) (value : Option String) : Except Stop Draft :=
  match flag, value with
  | .strict, none => .ok { d with strict := true }
  | .shortHelp, some value =>
    let rest := value.toList.dropWhile (· = 'h')
    if value ≠ "" ∧ rest = [] then .error .help
    else .error (.refused (.needlessValue flag (String.ofList rest)))
  | flag, some value => .error (.refused (.needlessValue flag value))
  | _, none => .error .help

/-! ### Tokens -/

/-- Read the arguments behind the separator, which the free positional arguments take
    in turn. -/
def fill (d : Draft) : List String → Except Stop Draft
  | [] => .ok d
  | text :: rest =>
    if d.positionals.isFull then .ok (d.setAside (text :: rest))
    else if text = "--" then d.addHollow.fill rest
    else do
      let d ← d.addPositional text
      d.fill rest

/-- Read the separator and the arguments behind it.  Right behind a positional
    argument the separator goes with it; otherwise it goes with the first argument
    behind it, if that is taken, and is set aside together with all of them if
    not. -/
def readLiteral (d : Draft) (adjacent : Bool) : Option (List String) → Except Stop Draft
  | none => .ok d
  | some texts =>
    if adjacent then d.fill texts
    else
      match texts with
      | [] => .ok (d.setAside ["--"])
      | text :: rest =>
        if d.positionals.isFull then .ok (d.setAside ("--" :: text :: rest))
        else do
          let d ← d.addPositional text
          d.fill rest

/-- Read tokens, and then what stands behind the separator.  An option that takes a
    value takes the one written with it, or else the plain argument after it.
    `adjacent` says that the last token read was a positional argument. -/
def read (literal : Option (List String)) :
    List Token → (adjacent : Bool) → Draft → Except Stop Draft
  | [], adjacent, d => d.readLiteral adjacent literal
  | .plain text :: tokens, _, d =>
    if d.positionals.isFull then read literal tokens false (d.setAside [text])
    else do
      let d ← d.addPositional text
      read literal tokens true d
  | .unknown text :: tokens, _, d => read literal tokens false (d.setAside [text])
  | .flag f value :: tokens, _, d =>
    match f.argument?, value, tokens with
    | none, value, tokens => do
      let d ← d.setSwitch f value
      read literal tokens false d
    | some argument, some value, tokens =>
      if value = "--" then read literal tokens false (d.setHollow argument)
      else do
        let d ← d.setValue argument value
        read literal tokens false d
    | some argument, none, .plain text :: tokens => do
      let d ← d.setValue argument text
      read literal tokens false d
    | some argument, none, _ => .error (.refused (.missingValue argument))

/-- The settings, if all positional arguments are there, no argument is left over
    and none is hollow. -/
def finish (d : Draft) : Except Stop Options :=
  match d.positionals with
  | .rom scale delay rom =>
    let settings : Options :=
      { scale, delay, rom, seed := d.seed, strict := d.strict, level := d.level }
    if d.extras ≠ [] then .error (.refused (.unrecognized d.extras))
    else if d.hollow ≠ [] then .error (.hollow d.hollow settings)
    else .ok settings
  | p => .error (.refused (.missing p.missing))

end Draft

/-- The settings of a command line. -/
def Options.parse (arguments : List String) : Except Options.Stop Options := do
  let scan ← Scan.ofArguments arguments
  let draft ← Draft.read scan.literal scan.tokens false {}
  draft.finish

end ChipEight
