import ChipEight.Keypad

namespace ChipEight

/-!
# The keyboard

How events of the host move the keys of the keypad.

* `Event` — a key of the keyboard goes down or up, the window is closed, or
  anything else;
* `Keyboard.key?` — the key of the keypad that a key of the keyboard stands for;
* `Keyboard.poll` — the keypad after some events, and whether one of them asked
  to quit.

The sixteen keys lie on the left of the keyboard as on the keypad:

    1 2 3 C        1 2 3 4
    4 5 6 D        q w e r
    7 8 9 E        a s d f
    A 0 B F        z x c v
-/

/-- An event of the host.  A key of the keyboard is named by its code, which for a
    printable key is that of its lower-case character. -/
inductive Event
  | keyDown (code : Int)
  | keyUp (code : Int)
  | quit
  | other
deriving DecidableEq, Repr

namespace Keyboard

/-- The characters of the sixteen keys, in the order of the keypad. -/
def layout : List Char :=
  ['x', '1', '2', '3', 'q', 'w', 'e', 'a', 's', 'd', 'z', 'c', '4', 'r', 'f', 'v']

/-- The code of the escape key, which asks to quit. -/
def escape : Int := 27

/-- The key of the keypad that a key of the keyboard stands for. -/
def key? (code : Int) : Option Nibble :=
  (layout.findIdx? fun c => (c.toNat : Int) = code).map (BitVec.ofNat 4)

/-- Whether an event asks to quit. -/
def asksToQuit : Event → Bool
  | .quit => true
  | .keyDown code => code == escape
  | _ => false

/-- Move the key that a key of the keyboard stands for, if there is one. -/
def move (k : Keypad) (code : Int) (down : Bool) : Keypad :=
  match key? code with
  | some key => k.put key down
  | none => k

/-- The keypad after an event. -/
def apply (k : Keypad) : Event → Keypad
  | .keyDown code => move k code true
  | .keyUp code => move k code false
  | .quit => k
  | .other => k

/-- The keypad after some events, and whether one of them asked to quit.  The
    events after such a request still count. -/
def poll (k : Keypad) (events : List Event) : Keypad × Bool :=
  (events.foldl apply k, events.any asksToQuit)

end Keyboard

end ChipEight
