import ChipEight.Options.Parse
import ChipEight.Run

/-!
# The program

A host without a screen: the command line is read, the clock and the events come as
lines of the standard input, the log goes to the standard output, and what the
window shows at the end goes to the standard error.

A line is a frame: the time in milliseconds, then events, each of them `quit`,
`down` with the code of a key, or `up` with the code of a key.
-/

namespace ChipEight.Host

/-- The events of a line. -/
def events : List String → List Event
  | "quit" :: rest => .quit :: events rest
  | "down" :: code :: rest => .keyDown ((code.toInt?).getD 0) :: events rest
  | "up" :: code :: rest => .keyUp ((code.toInt?).getD 0) :: events rest
  | _ :: rest => .other :: events rest
  | [] => []

/-- The frame of a line, if it has a time. -/
def frame? (line : String) : Option Frame :=
  match line.trimAscii.toString.splitOn " " with
  | time :: rest => (time.toInt?).map fun t => ⟨t, events (rest.filter (· ≠ ""))⟩
  | [] => none

/-- The frames of the lines that a stream still has. -/
partial def readFrames (input : IO.FS.Stream) : IO (List Frame) := do
  let line ← input.getLine
  if line.isEmpty then return []
  return (frame? line).toList ++ (← readFrames input)

/-- The text that the system has for an error. -/
def reasonOf : IO.Error → String
  | .alreadyExists _ _ text | .invalidArgument _ _ text | .permissionDenied _ _ text
  | .resourceExhausted _ _ text | .inappropriateType _ _ text | .noSuchThing _ _ text
  | .interrupted _ _ text | .noFileOrDirectory _ _ text
  | .otherError _ text | .resourceBusy _ text | .resourceVanished _ text
  | .unsupportedOperation _ text | .hardwareFault _ text | .unsatisfiedConstraints _ text
  | .illegalOperation _ text | .protocolError _ text | .timeExpired _ text
  | .userError text => text
  | .unexpectedEof => "end of file"

/-- The contents of a file. -/
def readProgram (path : String) : IO (Except ReadFault (Array Byte)) := do
  if path.contains '\x00' then return .error .noPath
  try
    let file ← IO.FS.Handle.mk path .read
    let bytes ← file.readBinToEnd
    return .ok (bytes.data.map (·.toBitVec))
  catch e => return .error (.refused (reasonOf e))

/-- What a window shows, as text. -/
def picture (w : Window) : String :=
  let rows := w.canvas.rows.toList.map fun row =>
    String.ofList ((List.range w.canvas.width).map fun x => if row.getMsbD x then '#' else '.')
  "\n".intercalate (w.screen.title :: rows) ++ "\n"

/-- Print what came of a run, and give its exit status. -/
def finish (options : Options) (report : Report Twister) : IO UInt32 := do
  (← IO.getStdout).putStr (report.output options.level)
  (← IO.getStderr).putStr ((report.window.map picture).getD "")
  match report.ending with
  | .ok status => return status.toUInt32
  | .error fault =>
    (← IO.getStderr).putStr (fault.message ++ "\n")
    return failureStatus.toUInt32

/-- Run the program of a command line. -/
def run (arguments : List String) : IO UInt32 := do
  match Options.parse arguments with
  | .error (.hollow hollow options) =>
    finish options (options.runHollow hollow options.twister (← readProgram options.rom) 0
      (← readFrames (← IO.getStdin)))
  | .error stop =>
    (← IO.getStdout).putStr stop.output
    (← IO.getStderr).putStr stop.errorOutput
    return stop.status.toUInt32
  | .ok options =>
    let contents ← readProgram options.rom
    let frames ← readFrames (← IO.getStdin)
    finish options (options.run options.twister contents 0 frames)

end ChipEight.Host

def main (arguments : List String) : IO UInt32 := ChipEight.Host.run arguments
