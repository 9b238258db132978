import ChipEight.Display
import ChipEight.Machine.Program
import ChipEight.Options.Basic
import ChipEight.Random.Twister
import ChipEight.Session

namespace ChipEight

/-!
# Runs

What the settings of a command line make of a program: it is loaded, a window is
opened, and the session is played.

* `Options.run` — a whole run, as a `Report` of everything that it did;
* `Options.runHollow` — a run for which some arguments have no value: it stops where
  the first of them is used;
* `Report.output` — what a run prints.

If the program cannot be loaded there is no window and no session.
-/

/-- Why a run breaks off without an exit status. -/
inductive Report.Fault
  /-- What was given as a path is none. -/
  | load (fault : LoadFault)
  /-- The window could not be opened. -/
  | window (fault : Window.Fault)
  /-- An argument has no value. -/
  | hollow (argument : Argument)
deriving DecidableEq, Repr

/-- The text of a fault. -/
def Report.Fault.message : Report.Fault → String
  | load fault => fault.message
  | window fault => fault.message
  | hollow argument => "argument " ++ argument.title ++ " has no value"

/-- What comes of a run. -/
structure Report (ρ : Type) where
  /-- The machine, if it came to one. -/
  machine : Option (Machine ρ)
  /-- The window, if one was opened. -/
  window : Option Window
  log : List Record
  passes : List Pass
  /-- The exit status, or why there is none. -/
  ending : Except Report.Fault Nat

/-- What a run prints: the log, from a level on. -/
def Report.output {ρ : Type} (r : Report ρ) (level : Level) : String := Record.print level r.log

/-- The report of a run that an argument without a value stops before it does
    anything. -/
def Report.unstarted {ρ : Type} (argument : Argument) : Report ρ :=
  ⟨none, none, [], [], .error (.hollow argument)⟩

namespace Options

/-- The screen that a run is shown on. -/
def screen (o : Options) : Screen where
  scale := o.scale
  title := "CHIP-8 Emulator - " ++ o.rom

/-- The source of the random numbers.  Without a seed they start as for the seed
    zero, so that every run can be repeated. -/
def twister (o : Options) : Twister := .ofSeed (o.seed.getD 0)

/-- The log record of the state that a session ended in. -/
def finalRecord {ρ : Type} (m : Machine ρ) : Record := ⟨.debug, "Final CPU state:\n" ++ m.dump⟩

variable {ρ : Type} [RandomSource ρ]

/-- The session that a run begins with the contents of the program's file, and the log
    until then, or else the report of a run that does not come to a session. -/
def begin? (o : Options) (random : ρ) (contents : Except ReadFault (Array Byte))
    (start : Int) : Except (Report ρ) (Session ρ × List Record) :=
  let loaded := (Machine.new o.strict random).loadContents o.rom contents
  let m := loaded.machine
  let log := loaded.notices.map Notice.record
  match loaded.result with
  | .error fault =>
    match fault.reason with
    | .noPath => .error ⟨some m, none, log, [], .error (.load fault)⟩
    | _ => .error ⟨some m, none, log ++ [⟨.error, fault.message⟩], [], .ok failureStatus⟩
  | .ok _ =>
    match Display.off.start o.screen with
    | (display, .error fault) => .error ⟨some m, display.window?, log, [], .error (.window fault)⟩
    | (_, .ok window) => .ok (⟨m, window, start⟩, log ++ [o.screen.record])

/-- A whole run, with the contents of the program's file, the time at which it
    starts and a script of frames. -/
def run (o : Options) (random : ρ) (contents : Except ReadFault (Array Byte)) (start : Int)
    (frames : List Frame) : Report ρ :=
  match o.begin? random contents start with
  | .error report => report
  | .ok (session, log) =>
    let t := session.play o.delay (Session.script start frames)
    ⟨some t.session.machine, some t.session.window,
      log ++ t.log ++ [finalRecord t.session.machine], t.passes, .ok t.status⟩

/-- A run for which some arguments have no value.  The log level and the seed are used
    before anything is done, the path when the machine is there and the delay after the
    first poll.  The scale always has a value. -/
def runHollow (o : Options) (hollow : List Argument) (random : ρ)
    (contents : Except ReadFault (Array Byte)) (start : Int) (frames : List Frame) :
    Report ρ :=
  if .logLevel ∈ hollow then .unstarted .logLevel
  else if .seed ∈ hollow then .unstarted .seed
  else if .rom ∈ hollow then
    ⟨some (Machine.new o.strict random), none, [], [], .error (.hollow .rom)⟩
  else
    match o.begin? random contents start with
    | .error report => report
    | .ok (session, log) =>
      let session := ((Session.script start frames).head?.map fun f => (session.poll f).1).getD session
      ⟨some session.machine, some session.window, log ++ [finalRecord session.machine],
        [.brokenOff], .error (.hollow .delay)⟩

end Options

end ChipEight
