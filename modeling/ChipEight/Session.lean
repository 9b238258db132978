import ChipEight.Keyboard
import ChipEight.Machine.Dump
import ChipEight.Machine.Execute
import ChipEight.Window

namespace ChipEight

/-!
# Sessions

A program on the machine, with a window, a keyboard and a clock around it.  Clock
and events come as a script of frames, one for each time that the host is polled.

* `Session` — the machine, the window and the time of the last cycle;
* `Session.poll` — the events of a frame move the keys;
* `Session.turn` — one pass: after a poll a cycle runs if it is due, and the picture
  is shown if the cycle drew on it;
* `Session.play` — the passes up to a quit or a trap;
* `Session.script` — a script that comes to an end.

A cycle is due when more than the delay has passed since the last one.  A pass that
sees a quit still runs its cycle.
-/

/-- What a poll of the host gives: the time, and what happened since the last one. -/
structure Frame where
  time : Int
  events : List Event
deriving DecidableEq, Repr

/-- A running program. -/
structure Session (ρ : Type) where
  machine : Machine ρ
  window : Window
  /-- When the last cycle ran; before the first one, when the session began. -/
  lastCycle : Int

/-- What a pass did. -/
inductive Pass
  /-- No cycle was due. -/
  | waited
  /-- A cycle executed the word, and drew on the picture or not. -/
  | ran (operand : Word) (drawn : Bool)
  /-- A cycle stopped the machine. -/
  | trapped (trap : Trap)
  /-- The pass was broken off before a cycle or a wait. -/
  | brokenOff
deriving DecidableEq, Repr

/-- The milliseconds that a pass without a cycle waits. -/
def Pass.waitTime : Nat := 1

/-- What comes of a pass. -/
structure Turn (ρ : Type) where
  session : Session ρ
  log : List Record
  pass : Pass
  /-- Whether an event of the pass asked to quit. -/
  quit : Bool

/-- What comes of a session. -/
structure Transcript (ρ : Type) where
  session : Session ρ
  log : List Record
  passes : List Pass
  /-- The exit status. -/
  status : Nat

/-- The exit status of a run that stopped for a fault of the program. -/
def failureStatus : Nat := 1

/-- The log record of a trap, with the state that the machine stopped in. -/
def Trap.record {ρ : Type} (t : Trap) (m : Machine ρ) : Record :=
  ⟨.error, t.message ++ "\n" ++ m.dump⟩

namespace Session

variable {ρ : Type} [RandomSource ρ]

/-- Whether a cycle is due. -/
def isDue (s : Session ρ) (delay time : Int) : Bool := delay < time - s.lastCycle

/-- Show the picture of the machine, if the last cycle drew on it. -/
def refresh (s : Session ρ) : Session ρ :=
  if s.machine.redraw then
    { s with window := (s.window.update s.machine.picture.cells).1 }
  else s

/-- Run a cycle.  If it stops the machine, the window stays as it is. -/
def runCycle (s : Session ρ) (time : Int) (quit : Bool) : Turn ρ :=
  let r := s.machine.cycle
  let s := { s with machine := r.machine, lastCycle := time }
  let log := r.notices.map Notice.record
  match r.result with
  | .ok operand => ⟨s.refresh, log, .ran operand r.machine.redraw, quit⟩
  | .error trap => ⟨s, log, .trapped trap, quit⟩

/-- The session after a poll, and whether an event asked to quit. -/
def poll (s : Session ρ) (f : Frame) : Session ρ × Bool :=
  let (keypad, quit) := Keyboard.poll s.machine.keypad f.events
  ({ s with machine := { s.machine with keypad := keypad } }, quit)

/-- One pass. -/
def turn (s : Session ρ) (delay : Int) (f : Frame) : Turn ρ :=
  let (s, quit) := s.poll f
  -- The quit does not keep a cycle that is due from running.
  if s.isDue delay f.time then s.runCycle f.time quit else ⟨s, [], .waited, quit⟩

/-- The passes of some frames, up to a quit or a trap. -/
def play (delay : Int) : Session ρ → List Frame → Transcript ρ
  | s, [] => ⟨s, [], [], 0⟩
  | s, f :: frames =>
    let t := s.turn delay f
    match t.pass with
    | .trapped trap =>
      ⟨t.session, t.log ++ [trap.record t.session.machine], [t.pass], failureStatus⟩
    | _ =>
      if t.quit then ⟨t.session, t.log, [t.pass], 0⟩
      else
        let rest := play delay t.session frames
        { rest with log := t.log ++ rest.log, passes := t.pass :: rest.passes }

/-- A script that comes to an end: after the last frame the clock stands still, and
    the window is closed. -/
def script (start : Int) (frames : List Frame) : List Frame :=
  frames ++ [⟨((frames.getLast?).map Frame.time).getD start, [.quit]⟩]

end Session

end ChipEight
