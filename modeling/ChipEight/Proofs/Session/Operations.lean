import ChipEight.Proofs.Cycles
import ChipEight.Proofs.Session.Passes

namespace ChipEight

/-!
# What a session does to its machine

The passes of a session do nothing to the machine but move its keys and run cycles, at times
that the clock alone decides.

* `Frame.moves`, `Frame.quits` — what the events of a frame ask for;
* `Frame.operations`, `Session.operations` — the operations of a pass, and of all passes;
* `Session.turn_follows` — a pass is these operations, and tells what its cycle did;
* `Session.play_follows` — hence so are all passes;
* `Session.ends_play`, `Session.status_play` — which pass is the last one, and the exit status;
* `Session.play_lockstep` — sessions whose machines cannot be told apart go through the same
  passes, whatever their windows.
-/

/-! ### Operations of a pass -/

/-- What an event does to the keypad, as an operation. -/
def Keyboard.operation? : Event → Option Operation
  | .keyDown code => (key? code).map fun key => .setKey key true
  | .keyUp code => (key? code).map fun key => .setKey key false
  | .quit => none
  | .other => none

namespace Frame

/-- The keys that the events of a frame move, in their order. -/
def moves (f : Frame) : List Operation := f.events.filterMap Keyboard.operation?

/-- Whether an event of a frame asks to quit. -/
def quits (f : Frame) : Bool := f.events.any Keyboard.asksToQuit

/-- Whether a cycle is due at a frame, given the delay and the time of the last cycle. -/
def isDue (f : Frame) (delay last : Int) : Bool := delay < f.time - last

/-- When the last cycle ran, once the pass of a frame is over. -/
def lastCycle (f : Frame) (delay last : Int) : Int := if f.isDue delay last then f.time else last

/-- The operations of the pass of a frame: keys are moved, then a cycle runs if it is due. -/
def operations (f : Frame) (delay last : Int) : List Operation :=
  f.moves ++ if f.isDue delay last then [.cycle] else []

/-- The events of a frame do nothing but move keys. -/
theorem eq_setKey_of_mem_moves {f : Frame} {operation : Operation}
    (moves : operation ∈ f.moves) : ∃ key down, operation = .setKey key down := by
  obtain ⟨event, -, move⟩ := List.mem_filterMap.mp moves
  cases event with
  | keyDown code =>
    obtain ⟨key, -, rfl⟩ := Option.map_eq_some_iff.mp move
    exact ⟨key, true, rfl⟩
  | keyUp code =>
    obtain ⟨key, -, rfl⟩ := Option.map_eq_some_iff.mp move
    exact ⟨key, false, rfl⟩
  | quit => exact nomatch move
  | other => exact nomatch move

end Frame

/-- The operations of the passes of some frames, one pass after the other. -/
def Session.operations (delay : Int) : (last : Int) → List Frame → List Operation
  | _, [] => []
  | last, f :: frames =>
    f.operations delay last ++ operations delay (f.lastCycle delay last) frames

/-- They move keys and run cycles. -/
theorem Session.isPlaying_of_mem_operations (delay last : Int) (frames : List Frame) :
    ∀ operation ∈ Session.operations delay last frames, operation.IsPlaying := by
  induction frames generalizing last with
  | nil => exact nofun
  | cons f frames ih =>
    intro operation mem
    rcases List.mem_append.mp mem with here | later
    · rcases List.mem_append.mp here with moves | cycle
      · obtain ⟨key, down, rfl⟩ := Frame.eq_setKey_of_mem_moves moves
        trivial
      · split at cycle
        · obtain rfl := List.mem_singleton.mp cycle
          trivial
        · exact nomatch cycle
    · exact ih (f.lastCycle delay last) operation later

namespace Pass

/-- Whether a pass stopped the machine. -/
def isTrap : Pass → Bool
  | trapped _ => true
  | _ => false

/-- Whether a pass ran a cycle. -/
def ranCycle : Pass → Bool
  | waited => false
  | brokenOff => false
  | _ => true

/-- The pass of a cycle, given the machine that the cycle meets. -/
def ofCycle {ρ : Type} [RandomSource ρ] (m : Machine ρ) : Pass :=
  match m.cycle.result with
  | .ok operand => .ran operand m.cycle.machine.redraw
  | .error trap => .trapped trap

/-- The pass of a cycle ran one. -/
theorem ranCycle_ofCycle {ρ : Type} [RandomSource ρ] (m : Machine ρ) :
    (ofCycle m).ranCycle = true := by
  rw [ofCycle]
  cases m.cycle.result <;> rfl

end Pass

namespace Machine

variable {ρ : Type} [RandomSource ρ]

/-- Moving the keys of some events puts the keypad in place that they make. -/
theorem after_moves (m : Machine ρ) (events : List Event) :
    m.after (events.filterMap Keyboard.operation?)
      = m.withKeypad (events.foldl Keyboard.apply m.keypad) := by
  induction events generalizing m with
  | nil => rfl
  | cons event events ih =>
    have first : (m.after (Keyboard.operation? event).toList)
        = m.withKeypad (Keyboard.apply m.keypad event) := by
      cases event with
      | keyDown code =>
        rw [Keyboard.operation?, Keyboard.apply, Keyboard.move]
        cases Keyboard.key? code <;> rfl
      | keyUp code =>
        rw [Keyboard.operation?, Keyboard.apply, Keyboard.move]
        cases Keyboard.key? code <;> rfl
      | quit => rfl
      | other => rfl
    have split : (event :: events).filterMap Keyboard.operation?
        = (Keyboard.operation? event).toList ++ events.filterMap Keyboard.operation? := by
      rw [List.filterMap_cons]
      cases Keyboard.operation? event <;> rfl
    rw [split, after_append, first, ih]
    rfl

end Machine

namespace Session

variable {ρ : Type}

/-! ### One pass -/

/-- Showing the picture leaves the rest of a session alone. -/
theorem refresh_keeps (s : Session ρ) :
    s.refresh.machine = s.machine ∧ s.refresh.lastCycle = s.lastCycle := by
  rw [refresh]
  split <;> exact ⟨rfl, rfl⟩

variable [RandomSource ρ]

/-- A pass that is what its operations make of a machine, given the time of the last cycle:
    it leaves the machine that they leave, it tells what its cycle did, or that none was
    due, and it asks to quit if its events do. -/
structure TurnFollows (delay : Int) (m : Machine ρ) (last : Int) (f : Frame) (t : Turn ρ) :
    Prop where
  machine : t.session.machine = m.after (f.operations delay last)
  lastCycle : t.session.lastCycle = f.lastCycle delay last
  pass : t.pass = if f.isDue delay last then .ofCycle (m.after f.moves) else .waited
  quit : t.quit = f.quits

/-- A pass that runs a cycle tells what it did. -/
theorem runCycle_keeps (s : Session ρ) (time : Int) (quit : Bool) :
    (s.runCycle time quit).session.machine = s.machine.cycle.machine
      ∧ (s.runCycle time quit).session.lastCycle = time
      ∧ (s.runCycle time quit).pass = .ofCycle s.machine
      ∧ (s.runCycle time quit).quit = quit := by
  rw [runCycle, Pass.ofCycle]
  cases s.machine.cycle.result with
  | ok operand =>
    obtain ⟨machine, lastCycle⟩ :=
      refresh_keeps { s with machine := s.machine.cycle.machine, lastCycle := time }
    exact ⟨machine, lastCycle, rfl, rfl⟩
  | error trap => exact ⟨rfl, rfl, rfl, rfl⟩

/-- **One pass** is what its operations make of the machine. -/
theorem turn_follows (delay : Int) (s : Session ρ) (f : Frame) :
    TurnFollows delay s.machine s.lastCycle f (s.turn delay f) := by
  have polled : (s.poll f).1.machine = s.machine.after f.moves :=
    (s.machine.after_moves f.events).symm
  have turn : s.turn delay f
      = if f.isDue delay s.lastCycle then (s.poll f).1.runCycle f.time f.quits
        else ⟨(s.poll f).1, [], .waited, f.quits⟩ := rfl
  rw [turn]
  by_cases due : f.isDue delay s.lastCycle = true
  · rw [if_pos due]
    obtain ⟨machine, lastCycle, pass, quit⟩ := (s.poll f).1.runCycle_keeps f.time f.quits
    refine ⟨?_, ?_, ?_, quit⟩
    · rw [machine, polled, Frame.operations, if_pos due, Machine.after_append]
      rfl
    · rw [lastCycle, Frame.lastCycle, if_pos due]
    · rw [pass, polled, if_pos due]
  · rw [if_neg due]
    refine ⟨?_, ?_, ?_, rfl⟩
    · rw [polled, Frame.operations, if_neg due, List.append_nil]
    · rw [Frame.lastCycle, if_neg due]
      rfl
    · rw [if_neg due]

/-- A pass is the last one if it stops the machine or its events ask to quit. -/
theorem isLast_turn (delay : Int) (s : Session ρ) (f : Frame) :
    (s.turn delay f).isLast = ((s.turn delay f).pass.isTrap || f.quits) := by
  have quit := (turn_follows delay s f).quit
  rw [Turn.isLast, ← quit]
  cases (s.turn delay f).pass <;> rfl

/-- The passes behind a pass are there if it is not the last one. -/
theorem passes_play_cons (delay : Int) (s : Session ρ) (f : Frame) (frames : List Frame) :
    (s.play delay (f :: frames)).passes
      = (s.turn delay f).pass :: if (s.turn delay f).pass.isTrap || f.quits then []
        else ((s.turn delay f).session.play delay frames).passes := by
  rw [← isLast_turn]
  exact (play_cons delay s f frames).2

/-! ### All passes -/

/-- Passes that are what their operations make of a machine, given the time of the last
    cycle: the machines at the end of each pass are those that the operations so far leave,
    the passes so far that ran a cycle tell what the cycles of these operations did, and the
    machine at the end is the one that all of them leave. -/
structure PlayFollows (delay : Int) (m : Machine ρ) (last : Int) (frames : List Frame)
    (machines : List (Machine ρ)) (passes : List Pass) (final : Machine ρ) : Prop where
  machines : machines = (List.range passes.length).map fun k =>
    m.after (operations delay last (frames.take (k + 1)))
  cycles : ∀ k ≤ passes.length, (passes.take k).filter Pass.ranCycle
    = (m.cycles (operations delay last (frames.take k))).map .ofCycle
  final : final = m.after (operations delay last (frames.take passes.length))

/-- No passes do nothing. -/
theorem PlayFollows.nil (delay : Int) (m : Machine ρ) (last : Int) (frames : List Frame) :
    PlayFollows delay m last frames [] [] m := by
  refine ⟨rfl, ?_, rfl⟩
  intro k hk
  obtain rfl : k = 0 := Nat.le_zero.mp hk
  rfl

/-- A pass in front of others. -/
theorem PlayFollows.cons {delay : Int} {m : Machine ρ} {last : Int} {f : Frame} {t : Turn ρ}
    {frames : List Frame} {machines : List (Machine ρ)} {passes : List Pass} {final : Machine ρ}
    (first : TurnFollows delay m last f t)
    (rest : PlayFollows delay t.session.machine t.session.lastCycle frames machines passes final) :
    PlayFollows delay m last (f :: frames) (t.session.machine :: machines) (t.pass :: passes)
      final := by
  obtain ⟨machine, lastCycle, pass, -⟩ := first
  obtain ⟨restMachines, restCycles, restFinal⟩ := rest
  rw [lastCycle] at restMachines restCycles restFinal
  -- What is done in the first pass comes before what is done in the others.
  have after (k : Nat) : m.after (operations delay last ((f :: frames).take (k + 1)))
      = t.session.machine.after (operations delay (f.lastCycle delay last) (frames.take k)) := by
    rw [List.take_succ_cons, operations, Machine.after_append, ← machine]
  refine ⟨?_, ?_, ?_⟩
  · rw [restMachines, List.length_cons, List.range_succ_eq_map, List.map_cons, List.map_map, after]
    refine congrArg _ (List.map_congr_left fun k _ => ?_)
    exact (after (k + 1)).symm
  · intro k hk
    cases k with
    | zero => rfl
    | succ k =>
      have ran : [t.pass].filter Pass.ranCycle
          = (m.cycles (f.operations delay last)).map .ofCycle := by
        have keys : m.cycles f.moves = [] := m.cycles_eq_nil fun cycle => by
          obtain ⟨key, down, move⟩ := Frame.eq_setKey_of_mem_moves cycle
          exact nomatch move
        rw [Frame.operations, Machine.cycles_append, keys, List.nil_append, pass]
        by_cases due : f.isDue delay last = true
        · rw [if_pos due, if_pos due, List.filter_cons_of_pos (Pass.ranCycle_ofCycle _)]
          rfl
        · rw [if_neg due, if_neg due]
          rfl
      rw [List.take_succ_cons, List.take_succ_cons, operations, Machine.cycles_append,
        List.map_append, ← machine, ← restCycles k (Nat.le_of_succ_le_succ hk), ← ran,
        ← List.filter_append]
      rfl
  · rw [restFinal, List.length_cons, after]

/-- **All passes** are what their operations make of the machine. -/
theorem play_follows (delay : Int) (s : Session ρ) (frames : List Frame) :
    PlayFollows delay s.machine s.lastCycle frames
      ((stages (fun s => s.turn delay) s frames).map Session.machine)
      (s.play delay frames).passes (s.play delay frames).session.machine := by
  induction frames generalizing s with
  | nil => exact .nil delay s.machine s.lastCycle []
  | cons f frames ih =>
    obtain ⟨session, passes⟩ := play_cons delay s f frames
    have first := turn_follows delay s f
    rw [session, passes, stages]
    by_cases last : (s.turn delay f).isLast = true
    · simp only [if_pos last]
      exact .cons first (.nil delay _ _ frames)
    · simp only [if_neg last]
      exact .cons first (ih (s.turn delay f).session)

/-- A script is closed by its last frame at the latest. -/
theorem quits_script (start : Int) (frames : List Frame) :
    ∀ f ∈ (script start frames).getLast?, f.quits = true := by
  intro f last
  rw [script, List.getLast?_concat] at last
  obtain rfl := Option.some.inj last
  rfl

/-- A pass is the last one exactly if it stops the machine or its events ask to quit, in a
    session that is closed by its last frame at the latest. -/
theorem ends_play (delay : Int) (s : Session ρ) {frames : List Frame}
    (closed : ∀ f ∈ frames.getLast?, f.quits = true) {k : Nat} {f : Frame} {p : Pass}
    (frame : frames[k]? = some f) (pass : (s.play delay frames).passes[k]? = some p) :
    k + 1 = (s.play delay frames).passes.length ↔ (p.isTrap || f.quits) = true := by
  induction frames generalizing s k with
  | nil => exact nomatch frame
  | cons g frames ih =>
    obtain ⟨-, passes⟩ := play_cons delay s g frames
    rw [passes] at pass ⊢
    have stops := isLast_turn delay s g
    by_cases last : (s.turn delay g).isLast = true
    · rw [if_pos last] at pass ⊢
      cases k with
      | zero =>
        obtain rfl : g = f := Option.some.inj frame
        obtain rfl : (s.turn delay g).pass = p := Option.some.inj pass
        exact iff_of_true rfl (stops ▸ last)
      | succ k => exact nomatch pass
    · rw [if_neg last] at pass ⊢
      cases frames with
      | nil =>
        -- A session is not closed before its last frame asks to quit.
        have quits : g.quits = true := closed g rfl
        rw [stops, quits, Bool.or_true] at last
        exact absurd rfl last
      | cons h frames =>
        cases k with
        | zero =>
          obtain rfl : g = f := Option.some.inj frame
          obtain rfl : (s.turn delay g).pass = p := Option.some.inj pass
          obtain ⟨-, more⟩ := play_cons delay (s.turn delay g).session h frames
          refine iff_of_false ?_ (stops ▸ last)
          rw [more, List.length_cons, List.length_cons]
          omega
        | succ k =>
          rw [List.length_cons, Nat.add_right_cancel_iff]
          exact ih (s.turn delay g).session (fun f hf => closed f hf) frame pass

/-- The exit status tells whether the machine was stopped. -/
theorem status_play (delay : Int) (s : Session ρ) (frames : List Frame) :
    (s.play delay frames).status
      = if (s.play delay frames).passes.any Pass.isTrap then failureStatus else 0 := by
  induction frames generalizing s with
  | nil => rfl
  | cons f frames ih =>
    rw [play]
    cases pass : (s.turn delay f).pass with
    | trapped trap => rfl
    | _ =>
      cases (s.turn delay f).quit with
      | true => rfl
      | false => exact ih (s.turn delay f).session

/-! ### Two sessions -/

section Lockstep

variable {Alike : Machine ρ → Machine ρ → Prop} {Good : Machine ρ → Word → Prop}
  (lockstep : Machine.Lockstep Alike fun m _ => Good m)
  (redraw : ∀ {m n}, Alike m n → m.redraw = n.redraw)

include lockstep redraw

/-- A pass does the same on machines that cannot be told apart. -/
theorem turn_lockstep (delay : Int) {s t : Session ρ} (alike : Alike s.machine t.machine)
    (lastCycle : s.lastCycle = t.lastCycle) (f : Frame)
    (good : s.machine.Executes Good (f.operations delay s.lastCycle)) :
    (s.turn delay f).pass = (t.turn delay f).pass
      ∧ (s.turn delay f).session.lastCycle = (t.turn delay f).session.lastCycle
      ∧ Alike (s.turn delay f).session.machine (t.turn delay f).session.machine := by
  have left := turn_follows delay s f
  have right := turn_follows delay t f
  rw [← lastCycle] at right
  have moves := (Machine.executes_append Good s.machine f.moves _).mp good
  obtain ⟨-, moved⟩ := lockstep.answers alike f.moves moves.1
  obtain ⟨-, machine⟩ := lockstep.answers alike _ good
  rw [left.machine, left.lastCycle, left.pass, right.machine, right.lastCycle, right.pass]
  refine ⟨?_, rfl, machine⟩
  by_cases due : f.isDue delay s.lastCycle = true
  · rw [if_pos due, if_pos due, Pass.ofCycle, Pass.ofCycle]
    have cycled : Good (s.machine.after f.moves).fetched (s.machine.after f.moves).fetch := by
      have last := moves.2
      rw [if_pos due] at last
      exact last (_, .cycle) List.mem_cons_self _ rfl
    have same := lockstep.cycle moved cycled
    rw [same.result, redraw same.machine]
  · rw [if_neg due, if_neg due]

/-- **Sessions whose machines cannot be told apart** go through the same passes, whatever
    their windows show. -/
theorem play_lockstep (delay : Int) {s t : Session ρ} (alike : Alike s.machine t.machine)
    (lastCycle : s.lastCycle = t.lastCycle) (frames : List Frame)
    (good : s.machine.Executes Good (operations delay s.lastCycle
      (frames.take (s.play delay frames).passes.length))) :
    (s.play delay frames).passes = (t.play delay frames).passes
      ∧ Alike (s.play delay frames).session.machine (t.play delay frames).session.machine := by
  induction frames generalizing s t with
  | nil => exact ⟨rfl, alike⟩
  | cons f frames ih =>
    obtain ⟨session, passes⟩ := play_cons delay s f frames
    obtain ⟨session', passes'⟩ := play_cons delay t f frames
    have follows := turn_follows delay s f
    rw [passes, List.length_cons, List.take_succ_cons, operations, Machine.executes_append,
      ← follows.machine, ← follows.lastCycle] at good
    obtain ⟨pass, lastCycle, machine⟩ :=
      turn_lockstep lockstep redraw delay alike lastCycle f good.1
    have ends : (s.turn delay f).isLast = (t.turn delay f).isLast := by
      rw [isLast_turn, isLast_turn, pass]
    rw [session, session', passes, passes', pass, ← ends]
    by_cases last : (s.turn delay f).isLast = true
    · rw [if_pos last, if_pos last, if_pos last, if_pos last]
      exact ⟨rfl, machine⟩
    · have later := good.2
      simp only [if_neg last] at later ⊢
      obtain ⟨rest, final⟩ := ih machine lastCycle later
      exact ⟨congrArg _ rest, final⟩

end Lockstep

end Session

end ChipEight
