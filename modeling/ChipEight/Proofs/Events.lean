import ChipEight.Keyboard

namespace ChipEight

/-!
# Events and polls

A poll goes through its events in order.  What is left of them is, for each key of the keypad,
the last event that moved it.

* `Keyboard.codeOf`, `Keyboard.key?_eq_some_iff` — the one key of the keyboard for each key of the
  keypad;
* `Keyboard.direction?`, `Keyboard.isDown_apply` — what an event does to a key of the keypad;
* `Keyboard.lastMove?`, `Keyboard.isDown_poll` — what all events of a poll do to it;
* `Keyboard.poll_of_unmapped`, `Keyboard.poll_swap` — events that change nothing may be left out,
  and events about different keys of the keyboard may change places;
* `Keyboard.polls`, `Keyboard.polls_eq_poll` — it is up to the events alone where one poll ends
  and the next one begins;
* `Keyboard.steering`, `Keyboard.lastMove?_steering` — events that put some keys of the keypad
  where they should be;
* `Keyboard.events_are_folded` — all of this for any keypad and any events.
-/

/-- Keypads with the same keys down are the same. -/
theorem Keypad.ext_isDown {k l : Keypad} (h : ∀ key, k.isDown key = l.isDown key) : k = l := by
  obtain ⟨ks⟩ := k
  obtain ⟨ls⟩ := l
  congr 1
  exact Bank.ext_entry h

/-- The key of the keyboard that an event is about. -/
def Event.code? : Event → Option Int
  | keyDown code => some code
  | keyUp code => some code
  | quit => none
  | other => none

namespace Keyboard

/-! ### Keys of the keyboard and keys of the keypad -/

/-- The code of the key of the keyboard for a key of the keypad. -/
def codeOf (key : Nibble) : Int :=
  have inside : key.toNat < layout.length := key.isLt
  (layout[key.toNat].toNat : Int)

/-- A key of the keypad has exactly one key of the keyboard. -/
theorem key?_eq_some_iff (code : Int) (key : Nibble) :
    key? code = some key ↔ code = codeOf key := by
  constructor
  · intro known
    obtain ⟨i, found, rfl⟩ := Option.map_eq_some_iff.mp known
    obtain ⟨inside, same, -⟩ := List.findIdx?_eq_some_iff_getElem.mp found
    have small : i < 16 := inside
    simp only [codeOf, BitVec.toNat_ofNat, Nat.mod_eq_of_lt small]
    exact (of_decide_eq_true same).symm
  · rintro rfl
    revert key
    decide

/-- The escape key is the key of no key of the keypad. -/
theorem key?_escape : key? escape = none := by decide

/-! ### One event -/

/-- Whether an event presses or releases a key of the keypad, `none` if it leaves it alone. -/
def direction? (key : Nibble) : Event → Option Bool
  | .keyDown code => if key? code = some key then some true else none
  | .keyUp code => if key? code = some key then some false else none
  | .quit => none
  | .other => none

/-- An event that moves a key of the keypad is about the key of the keyboard for it. -/
theorem code?_of_direction? {key : Nibble} {e : Event} {down : Bool}
    (moves : direction? key e = some down) : e.code? = some (codeOf key) := by
  cases e with
  | keyDown code | keyUp code =>
    simp only [direction?, Option.ite_none_right_eq_some] at moves
    rw [Event.code?, (key?_eq_some_iff code key).mp moves.1]
  | quit | other => exact nomatch moves

/-- Moving the key of a key of the keyboard. -/
theorem isDown_move (k : Keypad) (code : Int) (down : Bool) (key : Nibble) :
    (move k code down).isDown key = if key? code = some key then down else k.isDown key := by
  rw [move]
  cases known : key? code with
  | some moved =>
    simp only [Keypad.isDown_put, Option.some.injEq, eq_comm]
  | none => rfl

/-- After an event a key is where the event moved it, or else where it was. -/
theorem isDown_apply (k : Keypad) (e : Event) (key : Nibble) :
    (apply k e).isDown key = (direction? key e).getD (k.isDown key) := by
  cases e with
  | keyDown code | keyUp code =>
    rw [apply, isDown_move, direction?]
    split <;> rfl
  | quit | other => rfl

/-- An event that is about no key of the keyboard, or about one that is the key of no key of the
    keypad, changes nothing. -/
theorem apply_of_unmapped (k : Keypad) {e : Event} (unmapped : e.code?.bind key? = none) :
    apply k e = k := by
  cases e with
  | keyDown code | keyUp code =>
    have unknown : key? code = none := unmapped
    rw [apply, move, unknown]
  | quit | other => rfl

/-- An event that asks to quit is such an event. -/
theorem unmapped_of_asksToQuit {e : Event} (quits : asksToQuit e = true) :
    e.code?.bind key? = none := by
  cases e with
  | keyDown code =>
    obtain rfl : code = escape := eq_of_beq quits
    exact key?_escape
  | keyUp code | other => exact nomatch quits
  | quit => rfl

/-- The events that ask to quit. -/
theorem asksToQuit_iff (e : Event) : asksToQuit e = true ↔ e = .quit ∨ e = .keyDown escape := by
  cases e <;> simp [asksToQuit]

/-- Events about different keys of the keyboard may change places. -/
theorem apply_comm (k : Keypad) {e f : Event} (apart : ∀ code ∈ e.code?, code ∉ f.code?) :
    apply (apply k e) f = apply (apply k f) e := by
  refine Keypad.ext_isDown fun key => ?_
  simp only [isDown_apply]
  cases first : direction? key e with
  | none => rfl
  | some down =>
    cases second : direction? key f with
    | none => rfl
    | some down' => exact absurd (code?_of_direction? second) (apart _ (code?_of_direction? first))

/-! ### One poll -/

/-- Where the last of some events that moves a key of the keypad puts it. -/
def lastMove? (key : Nibble) (events : List Event) : Option Bool :=
  (events.filterMap (direction? key)).getLast?

/-- **The last event counts.**  After a poll a key is where the last event that moves it puts it,
    or else where it was. -/
theorem isDown_poll (k : Keypad) (events : List Event) (key : Nibble) :
    (poll k events).1.isDown key = (lastMove? key events).getD (k.isDown key) := by
  show (events.foldl apply k).isDown key = _
  induction events generalizing k with
  | nil => rfl
  | cons e events ih =>
    rw [List.foldl_cons, ih, isDown_apply, lastMove?, lastMove?]
    cases moves : direction? key e with
    | none => rw [List.filterMap_cons_none moves]; rfl
    | some down => rw [List.filterMap_cons_some moves, List.getLast?_cons]; rfl

/-- A poll in two parts moves the keys of the first part first. -/
theorem poll_append (k : Keypad) (first second : List Event) :
    poll k (first ++ second)
      = ((poll (poll k first).1 second).1, (poll k first).2 || (poll k second).2) := by
  simp only [poll, List.foldl_append, List.any_append]

/-- A poll asks to quit if one of its events does. -/
theorem poll_snd_eq_true_iff (k : Keypad) (events : List Event) :
    (poll k events).2 = true ↔ .quit ∈ events ∨ .keyDown escape ∈ events := by
  show events.any asksToQuit = true ↔ _
  simp only [List.any_eq_true, asksToQuit_iff, and_or_left, exists_or, exists_eq_right]

/-- An event that changes nothing may be left out of a poll. -/
theorem poll_of_unmapped (k : Keypad) (before : List Event) {e : Event} (later : List Event)
    (unmapped : e.code?.bind key? = none) :
    (poll k (before ++ e :: later)).1 = (poll k (before ++ later)).1 := by
  simp only [poll_append]
  show ((e :: later).foldl apply _) = later.foldl apply _
  rw [List.foldl_cons, apply_of_unmapped _ unmapped]

/-- Neighbours that are about different keys of the keyboard may change places in a poll. -/
theorem poll_swap (k : Keypad) (before : List Event) {e f : Event} (later : List Event)
    (apart : ∀ code ∈ e.code?, code ∉ f.code?) :
    (poll k (before ++ f :: e :: later)).1 = (poll k (before ++ e :: f :: later)).1 := by
  simp only [poll_append]
  show (f :: e :: later).foldl apply _ = (e :: f :: later).foldl apply _
  simp only [List.foldl_cons, apply_comm _ apart]

/-! ### Polls in a row -/

/-- Polls in a row: the keypad after the last one, and which of them asked to quit. -/
def polls : Keypad → List (List Event) → Keypad × List Bool
  | k, [] => (k, [])
  | k, events :: rest =>
    let (k, quit) := poll k events
    let (k, quits) := polls k rest
    (k, quit :: quits)

/-- Polls in a row come to the same as a single poll of all their events. -/
theorem polls_eq_poll (k : Keypad) (parts : List (List Event)) :
    (polls k parts).1 = (poll k parts.flatten).1
      ∧ ((polls k parts).2.any fun quit => quit) = (poll k parts.flatten).2 := by
  induction parts generalizing k with
  | nil => exact ⟨rfl, rfl⟩
  | cons events rest ih =>
    obtain ⟨keypad, quits⟩ := ih (poll k events).1
    rw [List.flatten_cons, poll_append]
    refine ⟨keypad, ?_⟩
    show ((poll k events).2 || (polls (poll k events).1 rest).2.any _) = _
    rw [quits]
    rfl

/-! ### Steering the keypad -/

/-- The event that moves a key of the keypad. -/
def moving (key : Nibble) (down : Bool) : Event :=
  if down then .keyDown (codeOf key) else .keyUp (codeOf key)

/-- It moves that key and no other one. -/
theorem direction?_moving (key moved : Nibble) (down : Bool) :
    direction? key (moving moved down) = if moved = key then some down else none := by
  have known : key? (codeOf moved) = some moved := (key?_eq_some_iff _ moved).mpr rfl
  cases down <;> simp [moving, direction?, known]

/-- It does not ask to quit. -/
theorem asksToQuit_moving (key : Nibble) (down : Bool) : asksToQuit (moving key down) = false := by
  revert key down
  decide

/-- Events that put some keys of the keypad where they should be, and leave the others alone. -/
def steering (target : Nibble → Option Bool) : List Event :=
  Nibble.all.filterMap fun key => (target key).map (moving key)

/-- The last of these events that moves a key is the one that should. -/
theorem lastMove?_steering (target : Nibble → Option Bool) (key : Nibble) :
    lastMove? key (steering target) = target key := by
  have moves (other : Nibble) :
      ((target other).map (moving other)).bind (direction? key)
        = if other = key then target key else none := by
    by_cases here : other = key
    · subst here
      cases target other <;> simp [direction?_moving]
    · cases target other <;> simp [direction?_moving, here]
  simp only [lastMove?, steering, List.filterMap_filterMap, moves]
  -- What is left of the sixteen keys is what should be done to this one.
  generalize effect : (Nibble.all.filterMap fun other =>
    if other = key then target key else none) = left
  have mem (down : Bool) : down ∈ left ↔ target key = some down := by
    rw [← effect]
    simp [Nibble.mem_all]
  cases last : left.getLast? with
  | some down => exact ((mem down).mp (List.mem_of_getLast? last)).symm
  | none =>
    obtain rfl : left = [] := List.getLast?_eq_none_iff.mp last
    exact (Option.eq_none_iff_forall_ne_some.mpr fun down here => nomatch (mem down).mpr here).symm

/-- None of them asks to quit. -/
theorem poll_snd_steering (k : Keypad) (target : Nibble → Option Bool) :
    (poll k (steering target)).2 = false := by
  refine List.any_eq_false.mpr fun e mem => ?_
  obtain ⟨key, -, moved⟩ := List.mem_filterMap.mp mem
  obtain ⟨down, -, rfl⟩ := Option.map_eq_some_iff.mp moved
  rw [asksToQuit_moving]
  exact Bool.false_ne_true

/-! ### All of it -/

/-- **Events are folded without loss.**  A poll asks to quit if one of its events does, and leaves
    each key where the last event that moves it puts it.  Events that are about no key of the
    keypad can be left out, those that ask to quit among them, so what comes after such an event
    still counts.  Hence it makes no difference where one poll ends and the next one begins, nor
    in which order events about different keys of the keyboard come: each key of the keypad has
    a key of the keyboard to itself, by which it can be put anywhere whatever the others do. -/
theorem events_are_folded (k : Keypad) (events : List Event) :
    ((poll k events).2 = true ↔ .quit ∈ events ∨ .keyDown escape ∈ events)
      ∧ (∀ key, (poll k events).1.isDown key
        = ((events.filterMap (direction? key)).getLast?).getD (k.isDown key))
      ∧ (∀ before e later, events = before ++ e :: later →
        e.code?.bind key? = none ∨ asksToQuit e = true →
          (poll k events).1 = (poll k (before ++ later)).1)
      ∧ (∀ parts : List (List Event), parts.flatten = events →
        (polls k parts).1 = (poll k events).1
          ∧ ((polls k parts).2.any fun quit => quit) = (poll k events).2)
      ∧ (∀ before e f later, events = before ++ e :: f :: later →
        (∀ code ∈ e.code?, code ∉ f.code?) →
          (poll k (before ++ f :: e :: later)).1 = (poll k events).1)
      ∧ (∀ code code' key, key? code = some key → key? code' = some key → code = code')
      ∧ ∀ target : Nibble → Option Bool, ∃ moves : List Event,
        (poll k moves).2 = false
          ∧ ∀ key, (poll k moves).1.isDown key = (target key).getD (k.isDown key) := by
  refine ⟨poll_snd_eq_true_iff k events, isDown_poll k events, ?_, ?_, ?_, ?_, fun target => ?_⟩
  · rintro before e later rfl mute
    exact poll_of_unmapped k before later (mute.elim id unmapped_of_asksToQuit)
  · rintro parts rfl
    exact polls_eq_poll k parts
  · rintro before e f later rfl apart
    exact poll_swap k before later apart
  · intro code code' key known known'
    rw [(key?_eq_some_iff code key).mp known, (key?_eq_some_iff code' key).mp known']
  · refine ⟨steering target, poll_snd_steering k target, fun key => ?_⟩
    rw [isDown_poll, lastMove?_steering]

end Keyboard

end ChipEight
