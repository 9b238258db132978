import ChipEight.Options.Parse
import ChipEight.Proofs.Session.Pacing

namespace ChipEight

/-!
# How a run ends

A run fails if its program cannot be loaded, or if it is strict and a cycle fetches an unknown
word before the first quit is over.  Otherwise it succeeds.

* `Options.any_isTrap_iff` — when a run makes a pass that stops its machine;
* `Options.exists_eq_concat_of_isTrap` — which is the last one then;
* `Options.ExitFollows`, `Options.exit_follows` — how a run ends whose program loads and whose
  window opens;
* `Options.FailsNowhereElse`, `Options.fails_nowhere_else` — on the loose machine and in the
  window, too, nothing else breaks a run off;
* `Options.exit_status_is_determined` — all of this together;
* `Options.a_seed_may_have_no_value` — why an argument must have a value.
-/

/-- The operations of the first passes come first. -/
theorem Session.operations_isPrefix (delay last : Int) {frames frames' : List Frame}
    (front : frames <+: frames') :
    Session.operations delay last frames <+: Session.operations delay last frames' := by
  induction frames generalizing last frames' with
  | nil => exact List.nil_prefix
  | cons f frames ih =>
    obtain ⟨rest, rfl⟩ := front
    exact List.prefix_append_right_inj _ |>.mpr (ih _ (List.prefix_append frames rest))

/-- No pass of a session but the last one stops the machine. -/
theorem Session.isTrap_of_mem_dropLast {ρ : Type} [RandomSource ρ] (delay : Int) (s : Session ρ)
    (frames : List Frame) : ∀ p ∈ (s.play delay frames).passes.dropLast, p.isTrap = false := by
  induction frames generalizing s with
  | nil => exact nofun
  | cons f frames ih =>
    rw [passes_play_cons]
    by_cases last : ((s.turn delay f).pass.isTrap || f.quits) = true
    · rw [if_pos last]
      exact nofun
    · rw [if_neg last]
      have later := ih (s.turn delay f).session
      cases rest : ((s.turn delay f).session.play delay frames).passes with
      | nil => exact nofun
      | cons next passes =>
        rw [Bool.or_eq_true, not_or] at last
        rw [rest] at later
        rw [List.dropLast_cons_cons]
        exact List.forall_mem_cons.mpr ⟨Bool.eq_false_iff.mpr last.1, later⟩

namespace Options

variable {ρ : Type} [RandomSource ρ] {o : Options}

/-- The machines that the cycles of the first passes of a run meet are met by more passes,
    too. -/
theorem mem_cycles_of_le {core m : Machine ρ} (start : Int) (frames : List Frame) {few more : Nat}
    (le : few ≤ more) (met : m ∈ core.cycles (o.operations start frames few)) :
    m ∈ core.cycles (o.operations start frames more) := by
  obtain ⟨rest, all⟩ := Session.operations_isPrefix o.delay start
    (List.take_isPrefix_take.mpr (.inl le) : (Session.script start frames).take few <+: _)
  rw [operations, ← all, Machine.cycles_append]
  exact List.mem_append_left _ met

/-! ### Passes that stop the machine -/

/-- **A run makes a pass that stops its machine** exactly if it is strict and one of the cycles
    up to the first quit fetches an unknown word. -/
theorem any_isTrap_iff (random : ρ) (program : Array Byte) (path : '\x00' ∉ o.rom.toList)
    (opens : o.Opens) (start : Int) (frames : List Frame) :
    (o.run random (.ok program) start frames).passes.any Pass.isTrap = true
      ↔ o.strict = true ∧ ∃ m ∈ (o.core random program).cycles
          (o.operations start frames (Session.quitPass start frames + 1)), m.fetch.IsUnknown := by
  constructor
  · intro traps
    obtain ⟨p, among, trap⟩ := List.any_eq_true.mp traps
    obtain ⟨t, rfl⟩ := Pass.exists_of_isTrap trap
    obtain ⟨strict, m, met, unknown, -⟩ := exists_of_trapped random program path start frames among
    have le := length_run_le random program path opens start frames
    exact ⟨strict, m, mem_cycles_of_le start frames le met, unknown⟩
  · rintro ⟨strict, m, met, unknown⟩
    rw [List.any_eq_true]
    rcases length_run random program path opens start frames with all | ⟨-, trap, last⟩
    · -- The run came to the quit, so it ran the cycle.
      have cycles := (run_follows random program path start frames).ran
      rw [all] at cycles
      have kept : m.strict = o.strict := Machine.strict_of_mem_cycles met
      have trapped : Pass.ofCycle m = .trapped ⟨m.fetch⟩ :=
        Pass.ofCycle_eq_trapped_iff.mpr ⟨⟨kept.trans strict, unknown⟩, rfl⟩
      have ran := List.mem_map_of_mem (f := Pass.ofCycle) met
      rw [← cycles, trapped] at ran
      exact ⟨_, (List.mem_filter.mp ran).1, rfl⟩
    · exact ⟨_, List.mem_of_getLast? last, rfl⟩

/-- Such a pass is the last one, and the only one of its kind. -/
theorem exists_eq_concat_of_isTrap (random : ρ) (program : Array Byte)
    (path : '\x00' ∉ o.rom.toList) (opens : o.Opens) (start : Int) (frames : List Frame)
    (traps : (o.run random (.ok program) start frames).passes.any Pass.isTrap = true) :
    ∃ before w, (o.run random (.ok program) start frames).passes = before ++ [.trapped ⟨w⟩]
      ∧ w.IsUnknown ∧ ∀ p ∈ before, p.isTrap = false := by
  obtain ⟨w, played⟩ := exists_passes_eq random program path opens start frames
  have others := Session.isTrap_of_mem_dropLast o.delay ⟨o.core random program, w, start⟩
    (Session.script start frames)
  rw [← played] at others
  obtain ⟨p, among, trap⟩ := List.any_eq_true.mp traps
  obtain ⟨t, rfl⟩ := Pass.exists_of_isTrap trap
  obtain ⟨-, m, -, unknown, rfl⟩ := exists_of_trapped random program path start frames among
  obtain ⟨before, last, split⟩ := (List.eq_nil_or_concat' _).resolve_left (List.ne_nil_of_mem among)
  rw [split] at others among ⊢
  rw [List.dropLast_concat] at others
  rcases List.mem_append.mp among with early | final
  · exact absurd trap (Bool.eq_false_iff.mp (others _ early))
  · obtain rfl := List.mem_singleton.mp final
    exact ⟨before, m.fetch, rfl, unknown, others⟩

/-! ### A run that has a window -/

/-- How a run ends whose program loads and whose window opens, given its machine with the
    program loaded. -/
structure ExitFollows (o : Options) (core : Machine ρ) (start : Int) (frames : List Frame)
    (r : Report ρ) : Prop where
  /-- It fails exactly if it is strict and one of the cycles up to the first quit fetches an
      unknown word. -/
  fails : r.ending = .ok failureStatus ↔ o.strict = true
    ∧ ∃ m ∈ core.cycles (o.operations start frames (Session.quitPass start frames + 1)),
      m.fetch.IsUnknown
  /-- Then there is no pass behind the first one that met such a word, and this is the pass of
      the first quit at the latest. -/
  stops : r.ending = .ok failureStatus → r.passes.length ≤ Session.quitPass start frames + 1
    ∧ ∃ before w, r.passes = before ++ [.trapped ⟨w⟩] ∧ w.IsUnknown ∧ ∀ p ∈ before, p.isTrap = false
  /-- Otherwise it succeeds after the pass of the first quit. -/
  succeeds : r.ending ≠ .ok failureStatus → r.ending = .ok 0
    ∧ r.passes.length = Session.quitPass start frames + 1
  /-- So it does if it is not strict, whatever its program is. -/
  lenient : o.strict = false → r.ending = .ok 0

/-- **Every run ends like that** whose program loads and whose window opens. -/
theorem exit_follows (random : ρ) (program : Array Byte) (path : '\x00' ∉ o.rom.toList)
    (opens : o.Opens) (start : Int) (frames : List Frame) :
    ExitFollows o (o.core random program) start frames
      (o.run random (.ok program) start frames) := by
  have ending := (ending_of_opens random program path start frames opens).2
  have fails : (o.run random (.ok program) start frames).ending = .ok failureStatus
      ↔ (o.run random (.ok program) start frames).passes.any Pass.isTrap = true := by
    rw [ending]
    split
    · next traps => exact iff_of_true rfl traps
    · next none => exact iff_of_false nofun none
  have traps := any_isTrap_iff random program path opens start frames
  have succeeds : (o.run random (.ok program) start frames).ending ≠ .ok failureStatus →
      (o.run random (.ok program) start frames).ending = .ok 0 := by
    intro other
    rw [ending, if_neg (mt fails.mpr other)]
  refine ⟨fails.trans traps, fun failed => ⟨length_run_le random program path opens start frames,
    exists_eq_concat_of_isTrap random program path opens start frames (fails.mp failed)⟩,
    fun other => ⟨succeeds other, ?_⟩, fun lenient => succeeds fun failed => ?_⟩
  · refine (length_run random program path opens start frames).resolve_right ?_
    rintro ⟨-, trap, last⟩
    exact other (fails.mpr (List.any_eq_true.mpr ⟨_, List.mem_of_getLast? last, rfl⟩))
  · have strict := (traps.mp (fails.mp failed)).1
    exact absurd strict (lenient ▸ Bool.false_ne_true)

/-- A run whose window opens has one. -/
theorem window_ne_none (random : ρ) (program : Array Byte) (path : '\x00' ∉ o.rom.toList)
    (opens : o.Opens) (start : Int) (frames : List Frame) :
    (o.run random (.ok program) start frames).window ≠ none := by
  obtain ⟨w, opened⟩ := opens
  obtain ⟨log, began⟩ := begin?_of_openWindow opened (hasTitle_of_path path) random program start
  rw [run, began]
  exact Option.some_ne_none _

/-! ### Runs without a program -/

/-- A run whose program cannot be loaded fails, and does nothing more. -/
theorem run_of_refused (random : ρ) (reason : String) (start : Int) (frames : List Frame) :
    let r := o.run random (.error (.refused reason)) start frames
    r.ending = .ok failureStatus ∧ r.window = none ∧ r.passes = [] := ⟨rfl, rfl, rfl⟩

/-! ### Nothing else breaks a run off -/

/-- A program that cannot be loaded has a file that cannot be read, on the loose machine, too,
    if it has a path at all. -/
theorem unreadable_of_operate {m : Machine ρ} {path : String}
    {contents : Except ReadFault (Array Byte)} (isPath : contents ≠ .error .noPath)
    {fault : Loose.Fault} {left : Loose ρ}
    (failed : Loose.operate (.loadContents path contents) m.loose = .error fault left) :
    ∃ reason, contents = .error reason ∧ fault = .unreadable path reason := by
  obtain ⟨e, stopped, rfl⟩ := Loose.operate_eq_error failed
  obtain ⟨_, _, word, -⟩ | ⟨_, reason, same, rfl⟩ := Machine.apply_eq_error stopped
  · exact nomatch word
  · obtain ⟨rfl, rfl⟩ := Operation.loadContents.inj same
    cases reason with
    | noPath => exact absurd rfl isPath
    | refused text => exact ⟨_, rfl, rfl⟩

/-- Moving keys and running cycles fails on the loose machine only where a strict machine
    fetches an unknown word. -/
theorem trap_of_operate {core : Machine ρ} {operations : List Operation}
    (playing : ∀ operation ∈ operations, operation.IsPlaying) {m : Machine ρ}
    {operation : Operation} (met : (m, operation) ∈ core.history operations)
    {fault : Loose.Fault} {left : Loose ρ}
    (failed : Loose.operate operation m.loose = .error fault left) :
    core.strict = true ∧ m.fetch.IsUnknown ∧ fault = .trap m.fetch.toNat := by
  have among := playing operation (Machine.mem_of_mem_history met)
  obtain ⟨e, stopped, rfl⟩ := Loose.operate_eq_error failed
  obtain ⟨strict, w, word, unknown, rfl⟩ | ⟨_, _, rfl, -⟩ := Machine.apply_eq_error stopped
  · cases operation with
    | cycle =>
      obtain rfl := Option.some.inj word
      exact ⟨Machine.strict_of_mem_history met ▸ strict, unknown, rfl⟩
    | setKey key down => exact nomatch word
    | _ => exact absurd among id
  · exact absurd among id

/-- Any picture can be shown in the window of a run, before each pass and behind the last one. -/
theorem update_of_mem_stages (random : ρ) (program : Array Byte) (path : '\x00' ∉ o.rom.toList)
    {w : Window} (opened : o.screen.openWindow = .ok w) (start : Int) (frames : List Frame)
    {t : Session ρ}
    (stage : t ∈ ⟨o.core random program, w, start⟩ :: o.stages random (.ok program) start frames)
    (p : Picture) : (t.window.update p.cells).2 = .ok () := by
  have opening := Window.paintable_of_openWindow rfl rfl opened
  have paintable : t.window.Paintable := by
    rcases List.mem_cons.mp stage with rfl | later
    · exact opening
    · rw [stages_of_openWindow opened (hasTitle_of_path path)] at later
      exact Session.paintable_stages o.delay opening _ t later
  obtain ⟨shown, updated, -⟩ := paintable.update p
  rw [updated]

/-- Nothing that a run does can fail but where its exit status tells of that. -/
structure FailsNowhereElse (o : Options) (random : ρ) (contents : Except ReadFault (Array Byte))
    (start : Int) (frames : List Frame) : Prop where
  /-- Loading, where the file cannot be read. -/
  loading : ∀ fault left, Loose.operate (.loadContents o.rom contents)
    (Machine.new o.strict random).loose = .error fault left →
    ∃ reason, contents = .error reason ∧ fault = .unreadable o.rom reason
  /-- Moving a key or running a cycle, where a strict machine fetches an unknown word. -/
  playing : ∀ program, contents = .ok program →
    ∀ m operation, (m, operation) ∈ (o.core random program).history
      (o.operations start frames (Session.quitPass start frames + 1)) →
    ∀ fault left, Loose.operate operation m.loose = .error fault left →
    o.strict = true ∧ m.fetch.IsUnknown ∧ fault = .trap m.fetch.toNat
  /-- Showing a picture in the window of a pass, nowhere. -/
  showing : ∀ program w, contents = .ok program → o.screen.openWindow = .ok w →
    ∀ t ∈ ⟨o.core random program, w, start⟩ :: o.stages random contents start frames,
    ∀ p : Picture, (t.window.update p.cells).2 = .ok ()

/-- So it is for every run whose program has a path. -/
theorem fails_nowhere_else (random : ρ) {contents : Except ReadFault (Array Byte)}
    (path : '\x00' ∉ o.rom.toList) (isPath : contents ≠ .error .noPath) (start : Int)
    (frames : List Frame) : FailsNowhereElse o random contents start frames where
  loading _ _ failed := unreadable_of_operate isPath failed
  playing _ _ _ _ met _ _ failed :=
    trap_of_operate (Session.isPlaying_of_mem_operations _ _ _) met failed
  showing := by
    rintro program w rfl opened t stage p
    exact update_of_mem_stages random program path opened start frames stage p

/-! ### All of it -/

/-- **The exit status is determined**, whatever reading the path of the program gave.  A run
    whose window could open fails without a window or a pass exactly if its program cannot be
    loaded.  A run with a program fails exactly if it is strict and meets an unknown word before
    its first quit is over, and succeeds otherwise, after the pass of that quit.  Nothing else
    breaks it off. -/
theorem exit_status_is_determined (random : ρ) (contents : Except ReadFault (Array Byte))
    (opens : o.Opens) (path : '\x00' ∉ o.rom.toList) (isPath : contents ≠ .error .noPath)
    (start : Int) (frames : List Frame) :
    let r := o.run random contents start frames
    (r.ending = .ok failureStatus ∧ r.window = none ∧ r.passes = []
        ↔ ∃ fault, contents = .error fault)
      ∧ (∀ program, contents = .ok program →
        ExitFollows o (o.core random program) start frames r)
      ∧ FailsNowhereElse o random contents start frames := by
  intro r
  refine ⟨?_, ?_, fails_nowhere_else random path isPath start frames⟩
  · constructor
    · rintro ⟨-, closed, -⟩
      cases contents with
      | error fault => exact ⟨fault, rfl⟩
      | ok program => exact absurd closed (window_ne_none random program path opens start frames)
    · rintro ⟨fault, rfl⟩
      cases fault with
      | noPath => exact absurd rfl isPath
      | refused reason => exact run_of_refused random reason start frames
  · rintro program rfl
    exact exit_follows random program path opens start frames

/-- The theorem at a strict run of a program without a word, which is quit in its first pass:
    the cycle of that pass stops it. -/
theorem quit_does_not_hide_a_trap :
    let o : Options := { scale := 1, delay := 0, rom := "/a", strict := true }
    let contents : Except ReadFault (Array Byte) := .ok #[]
    o.Opens ∧ '\x00' ∉ o.rom.toList ∧ contents ≠ .error .noPath
      ∧ (o.run (Wheel.ofList []) contents 0 [⟨1, [.quit]⟩]).ending = .ok 1 := by
  intro o contents
  have opens : o.Opens := opens_of_scale (by decide) (by decide)
  have path : '\x00' ∉ o.rom.toList := by decide
  have isPath : contents ≠ .error .noPath := nofun
  have blank : (Memory.initial.overlay programStart #[]).readWord 0x200 = 0x0000 := by
    simp [Memory.readWord, Memory.read_overlay, Memory.read_initial, programStart, Font.start]
    decide
  have met : o.core (Wheel.ofList []) #[] ∈ (o.core (Wheel.ofList []) #[]).cycles
      (o.operations 0 [⟨1, [.quit]⟩] (Session.quitPass 0 [⟨1, [.quit]⟩] + 1)) :=
    List.mem_cons_self
  have unknown : (o.core (Wheel.ofList []) #[]).fetch.IsUnknown := by
    have fetched : (o.core (Wheel.ofList []) #[]).fetch = 0x0000 := blank
    rw [fetched]
    decide
  obtain ⟨-, exits, -⟩ := exit_status_is_determined (Wheel.ofList []) contents opens path isPath 0
    [⟨1, [.quit]⟩]
  exact ⟨opens, path, isPath, (exits #[] rfl).fails.mpr ⟨rfl, _, met, unknown⟩⟩

/-- **A seed may have no value**: of `--seed=--` nothing remains, and the run breaks off without
    an exit status. -/
theorem a_seed_may_have_no_value :
    ¬ ∀ (arguments : List String) (hollow : List Argument) (o : Options),
      Options.parse arguments = .error (.hollow hollow o) → 1 ≤ o.scale → '\x00' ∉ o.rom.toList →
      ∀ (program : Array Byte) (start : Int) (frames : List Frame),
        ∃ status, (o.runHollow hollow (Wheel.ofList []) (.ok program) start frames).ending
          = .ok status := by
  intro ends
  have parsed : Options.parse ["1", "1", "a", "--seed=--"]
      = .error (.hollow [.seed] { scale := 1, delay := 1, rom := "a" }) := by cbv
  obtain ⟨status, ending⟩ := ends _ _ _ parsed (by decide) (by decide) #[] 0 []
  cases ending

end Options

end ChipEight
