import ChipEight.Log
import ChipEight.Text.Quoted

namespace ChipEight

open Text

/-!
# Options

What the command line can say, and why it may be turned down.

* `Options` — the settings of a run;
* `Argument` — what the command line gives a value to;
* `Flag` — the options by the names they are written with;
* `Options.Fault` — why a command line is refused, with `Options.Fault.message`;
* `Options.Stop` — every way in which reading a command line ends without settings,
  with the text and the exit status that belong to it;
* `Options.usage`, `Options.help` — the texts that explain the command line.
-/

/-- The settings of a run. -/
structure Options where
  /-- The side of the square that a pixel is shown as. -/
  scale : Int
  /-- A cycle runs when more than this many milliseconds have passed since the last
      one. -/
  delay : Int
  /-- The path of the program. -/
  rom : String
  /-- The seed of the random numbers. -/
  seed : Option Int := none
  /-- Whether an unknown word stops the machine. -/
  strict : Bool := false
  /-- The level from which log records are printed. -/
  level : Level := .warning
deriving DecidableEq, Repr

/-- What the command line gives a value to. -/
inductive Argument
  | scale | delay | rom | seed | logLevel
deriving DecidableEq, Repr

/-- How messages call an argument. -/
def Argument.title : Argument → String
  | scale => "scale"
  | delay => "delay"
  | rom => "rom"
  | seed => "--seed"
  | logLevel => "--log-level"

/-- The options by the names they are written with. -/
inductive Flag
  | shortHelp | help | seed | strict | logLevel
deriving DecidableEq, Repr

namespace Flag

/-- All names, in the order in which they are listed. -/
def all : List Flag := [shortHelp, help, seed, strict, logLevel]

/-- The text of a name. -/
def text : Flag → String
  | shortHelp => "-h"
  | help => "--help"
  | seed => "--seed"
  | strict => "--strict"
  | logLevel => "--log-level"

/-- How messages call the option: by all its names. -/
def title : Flag → String
  | shortHelp => "-h/--help"
  | help => "-h/--help"
  | seed => Argument.title .seed
  | strict => "--strict"
  | logLevel => Argument.title .logLevel

/-- What an option gives a value to, `none` if it takes no value. -/
def argument? : Flag → Option Argument
  | seed => some .seed
  | logLevel => some .logLevel
  | _ => none

/-- The option of a name. -/
def ofText? (cs : List Char) : Option Flag := all.find? (·.text.toList = cs)

end Flag

namespace Options

/-- Why a command line is refused. -/
inductive Fault
  /-- A shortened name fits several options. -/
  | ambiguous (written : String) (candidates : List Flag)
  /-- An option that takes no value was given one. -/
  | needlessValue (flag : Flag) (value : String)
  /-- An option that takes a value was given none. -/
  | missingValue (argument : Argument)
  /-- The value of an argument is no integer. -/
  | notInteger (argument : Argument) (value : String)
  /-- The value of the log level is not one of the choices. -/
  | notLevel (value : String)
  /-- Required arguments are missing. -/
  | missing (arguments : List Argument)
  /-- There are arguments for which there is no use. -/
  | unrecognized (texts : List String)
deriving DecidableEq, Repr

/-- The names of the log levels. -/
def levelNames : List String := Level.all.map Level.name

/-- The text of a fault. -/
def Fault.message : Fault → String
  | ambiguous written candidates =>
    "ambiguous option: " ++ written ++ " could match "
      ++ ", ".intercalate (candidates.map Flag.text)
  | needlessValue flag value =>
    "argument " ++ flag.title ++ ": ignored explicit argument " ++ quoted value
  | missingValue argument => "argument " ++ argument.title ++ ": expected one argument"
  | notInteger argument value =>
    "argument " ++ argument.title ++ ": invalid int value: " ++ quoted value
  | notLevel value =>
    "argument " ++ Argument.logLevel.title ++ ": invalid choice: " ++ quoted value
      ++ " (choose from " ++ ", ".intercalate (levelNames.map quoted) ++ ")"
  | missing arguments =>
    "the following arguments are required: " ++ ", ".intercalate (arguments.map Argument.title)
  | unrecognized texts => "unrecognized arguments: " ++ " ".intercalate texts

/-- The choices of the log level, as the usage shows them. -/
def levelChoices : String := "\x7b" ++ ",".intercalate levelNames ++ "\x7d"

/-- How the program is called. -/
def usage : String :=
  "usage: chip8 [-h] [--seed SEED] [--strict]\n"
    ++ "             [--log-level " ++ levelChoices ++ "]\n"
    ++ "             scale delay rom\n"

/-- The explanation of the command line. -/
def help : String :=
  usage
    ++ "\n"
    ++ "Starts a simple Chip 8 emulator\n"
    ++ "\n"
    ++ "positional arguments:\n"
    ++ "  scale                 the scale factor to apply to the 64x32 display\n"
    ++ "  delay                 the number of milliseconds to wait between CPU cycles\n"
    ++ "  rom                   the ROM file to load on startup\n"
    ++ "\n"
    ++ "options:\n"
    ++ "  -h, --help            show this help message and exit\n"
    ++ "  --seed SEED           seed for the random number generator used by Cxkk\n"
    ++ "  --strict              stop on unknown op-codes instead of skipping them\n"
    ++ "  --log-level " ++ levelChoices ++ "\n"
    ++ "                        logging verbosity (default is WARNING)\n"

/-- How reading a command line ends without settings. -/
inductive Stop
  /-- The explanation was asked for. -/
  | help
  /-- The command line is refused. -/
  | refused (fault : Fault)
  /-- Nothing remains of the values of these arguments; `rest` holds the other
      settings.  No message explains this. -/
  | hollow (arguments : List Argument) (rest : Options)
deriving DecidableEq, Repr

namespace Stop

/-- The exit status. -/
def status : Stop → Nat
  | help => 0
  | refused _ => 2
  | hollow .. => 1

/-- What goes to the standard output. -/
def output : Stop → String
  | help => Options.help
  | refused _ => ""
  | hollow .. => ""

/-- What goes to the standard error. -/
def errorOutput : Stop → String
  | help => ""
  | refused fault => usage ++ "chip8: error: " ++ fault.message ++ "\n"
  | hollow .. => ""

end Stop

end Options

end ChipEight
