import ChipEight.Proofs.Chance
import ChipEight.Proofs.Session.Opening
import ChipEight.Proofs.Session.Operations

namespace ChipEight

/-!
# The host never perturbs the machine

A run does to its machine what a host without a window would do: it loads the program, moves
keys and runs cycles.  Its program may come from any path, that is from any text without a NUL.

* `Options.stages` — the sessions at the end of each pass of a run;
* `Options.run_follows` — a run is what the operations of its passes make of the machine with
  the program loaded;
* `Options.run_congr` — the scale and the log level make no difference to the passes, as long
  as the window opens;
* `Options.cycles_congr` — times and events make none to the cycles, but for the keypads that
  these meet;
* `Options.run_withRandom` — the random source makes none to a run that draws no number;
* `Options.host_never_perturbs_the_machine` — all of this together;
* `Options.a_window_may_be_too_large` — why the window must open.
-/

namespace Options

variable {ρ : Type} [RandomSource ρ]

/-- The sessions at the end of each pass of a run. -/
def stages (o : Options) (random : ρ) (contents : Except ReadFault (Array Byte))
    (start : Int) (frames : List Frame) : List (Session ρ) :=
  match o.begin? random contents start with
  | .error _ => []
  | .ok (s, _) => Session.stages (fun s => s.turn o.delay) s (Session.script start frames)

/-- The machine of a run with its program loaded, before the first pass. -/
def core (o : Options) (random : ρ) (program : Array Byte) : Machine ρ :=
  (Machine.new o.strict random).place program

/-- The operations of the first passes of a run. -/
def operations (o : Options) (start : Int) (frames : List Frame) (passes : Nat) : List Operation :=
  Session.operations o.delay start ((Session.script start frames).take passes)

/-- What a run does, in terms of the machine alone. -/
structure RunFollows (o : Options) (core : Machine ρ) (start : Int) (frames : List Frame)
    (stages : List (Session ρ)) (r : Report ρ) : Prop where
  /-- The machine at the end of each pass is the one that the operations so far leave. -/
  machines : stages.map Session.machine
    = (List.range r.passes.length).map fun k => core.after (o.operations start frames (k + 1))
  /-- The machine at the end is the one that all of them leave. -/
  final : r.machine = some (core.after (o.operations start frames r.passes.length))
  /-- The passes so far that ran a cycle tell what the cycles of their operations did. -/
  cycles : ∀ k ≤ r.passes.length, (r.passes.take k).filter Pass.ranCycle
    = (core.cycles (o.operations start frames k)).map .ofCycle
  /-- A pass is the last one exactly if it stopped the machine or its events ask to quit. -/
  ends : ∀ k f p, (Session.script start frames)[k]? = some f → r.passes[k]? = some p →
    (k + 1 = r.passes.length ↔ (p.isTrap || f.quits) = true)
  /-- At the end of each pass the picture of the machine can be shown. -/
  shows : ∀ t ∈ stages, (t.window.update t.machine.picture.cells).2 = .ok ()

/-- All passes that ran a cycle tell what the cycles of all operations did. -/
theorem RunFollows.ran {o : Options} {core : Machine ρ} {start : Int} {frames : List Frame}
    {stages : List (Session ρ)} {r : Report ρ} (follows : RunFollows o core start frames stages r) :
    r.passes.filter Pass.ranCycle
      = (core.cycles (o.operations start frames r.passes.length)).map .ofCycle := by
  have cycles := follows.cycles _ (Nat.le_refl _)
  rw [List.take_length] at cycles
  exact cycles

/-! ### One run -/

variable {o : Options}

/-- The sessions of a run whose window opens. -/
theorem stages_of_openWindow {w : Window} (opened : o.screen.openWindow = .ok w)
    (titled : o.screen.hasTitle = true) (random : ρ) (program : Array Byte) (start : Int)
    (frames : List Frame) :
    o.stages random (.ok program) start frames
      = Session.stages (fun s => s.turn o.delay) ⟨o.core random program, w, start⟩
        (Session.script start frames) := by
  obtain ⟨log, began⟩ := begin?_of_openWindow opened titled random program start
  rw [stages, began]
  rfl

/-- **A run** is what the operations of its passes make of the machine with the program
    loaded. -/
theorem run_follows (random : ρ) (program : Array Byte) (path : '\x00' ∉ o.rom.toList)
    (start : Int) (frames : List Frame) :
    RunFollows o (o.core random program) start frames
      (o.stages random (.ok program) start frames) (o.run random (.ok program) start frames) := by
  have titled := hasTitle_of_path path
  cases opened : o.screen.openWindow with
  | error fault =>
    obtain ⟨machine, passes, -⟩ :=
      run_of_openWindow_eq_error opened random program start frames
    have none : o.stages random (.ok program) start frames = [] := by
      simp only [stages, begin?, Machine.loadContents, Machine.load, Display.start, opened]
    rw [none]
    refine ⟨?_, ?_, ?_, ?_, ?_⟩
    · rw [passes]
      rfl
    · rw [passes]
      exact machine
    · rw [passes]
      intro k hk
      obtain rfl : k = 0 := Nat.le_zero.mp hk
      rfl
    · rw [passes]
      intro k f p _ pass
      cases pass
    · intro t ht
      exact absurd ht List.not_mem_nil
  | ok w =>
    obtain ⟨machine, passes, -⟩ := run_of_openWindow opened titled random program start frames
    have paintable := Window.paintable_of_openWindow rfl rfl opened
    obtain ⟨machines, cycles, final⟩ := Session.play_follows o.delay
      ⟨o.core random program, w, start⟩ (Session.script start frames)
    rw [stages_of_openWindow opened titled]
    refine ⟨?_, ?_, ?_, ?_, ?_⟩
    · rw [passes]
      exact machines
    · rw [passes, machine]
      exact congrArg some final
    · rw [passes]
      exact cycles
    · rw [passes]
      intro k f p frame pass
      exact Session.ends_play o.delay _ (Session.quits_script start frames) frame pass
    · intro t ht
      obtain ⟨shown, updated, -⟩ :=
        (Session.paintable_stages o.delay paintable _ t ht).update t.machine.picture
      rw [updated]

/-- A run whose window opens comes to an exit status, which tells whether the machine was
    stopped. -/
theorem ending_of_opens (random : ρ) (program : Array Byte) (path : '\x00' ∉ o.rom.toList)
    (start : Int) (frames : List Frame) (opens : o.Opens) :
    let r := o.run random (.ok program) start frames
    r.passes ≠ [] ∧ r.ending = .ok (if r.passes.any Pass.isTrap then failureStatus else 0) := by
  obtain ⟨w, opened⟩ := opens
  obtain ⟨-, passes, ending⟩ :=
    run_of_openWindow opened (hasTitle_of_path path) random program start frames
  obtain ⟨f, rest, script⟩ : ∃ f rest, Session.script start frames = f :: rest :=
    List.exists_cons_of_ne_nil (List.concat_ne_nil _ _)
  intro r
  show (o.run random _ _ _).passes ≠ [] ∧ (o.run random _ _ _).ending = _
  refine ⟨?_, ?_⟩
  · rw [passes, script, (Session.play_cons o.delay _ f rest).2]
    exact List.cons_ne_nil _ _
  · rw [ending, Session.status_play, ← passes]

/-- A run whose window does not open has no passes. -/
theorem ending_of_not_opens (random : ρ) (program : Array Byte) (start : Int)
    (frames : List Frame) (closed : ¬ o.Opens) :
    let r := o.run random (.ok program) start frames
    r.passes = [] ∧ ∃ fault, r.ending = .error (.window fault) := by
  intro r
  cases opened : o.screen.openWindow with
  | error fault =>
    obtain ⟨-, passes, ending⟩ := run_of_openWindow_eq_error opened random program start frames
    exact ⟨passes, fault, ending⟩
  | ok w => exact absurd ⟨w, opened⟩ closed

/-! ### Two runs -/

/-- Two runs whose windows open, with the same delay, and whose machines cannot be told apart
    go through the same passes and end in the same way. -/
theorem run_lockstep {Alike : Machine ρ → Machine ρ → Prop} {Good : Machine ρ → Word → Prop}
    (lockstep : Machine.Lockstep Alike fun m _ => Good m)
    (redraw : ∀ {m n}, Alike m n → m.redraw = n.redraw)
    {o o' : Options} (random random' : ρ) {program : Array Byte} (start : Int)
    (frames : List Frame) (opens : o.Opens) (opens' : o'.Opens)
    (titled : o.screen.hasTitle = true) (titled' : o'.screen.hasTitle = true)
    (delay : o.delay = o'.delay) (alike : Alike (o.core random program) (o'.core random' program))
    (good : (o.core random program).Executes Good (o.operations start frames
      (o.run random (.ok program) start frames).passes.length)) :
    (o'.run random' (.ok program) start frames).passes
        = (o.run random (.ok program) start frames).passes
      ∧ (o'.run random' (.ok program) start frames).ending
        = (o.run random (.ok program) start frames).ending
      ∧ ∃ m n, Alike m n ∧ (o.run random (.ok program) start frames).machine = some m
        ∧ (o'.run random' (.ok program) start frames).machine = some n := by
  obtain ⟨w, opened⟩ := opens
  obtain ⟨w', opened'⟩ := opens'
  obtain ⟨machine, passes, ending⟩ := run_of_openWindow opened titled random program start frames
  obtain ⟨machine', passes', ending'⟩ :=
    run_of_openWindow opened' titled' random' program start frames
  rw [passes] at good
  obtain ⟨same, final⟩ := Session.play_lockstep lockstep redraw o.delay
    (s := ⟨o.core random program, w, start⟩) (t := ⟨o'.core random' program, w', start⟩)
    alike rfl (Session.script start frames) good
  rw [← delay] at passes' ending' machine'
  refine ⟨?_, ?_, _, _, final, machine, machine'⟩
  · rw [passes', passes]
    exact same.symm
  · rw [ending', ending, Session.status_play, Session.status_play]
    exact congrArg (fun passes : List Pass => Except.ok (if passes.any _ then _ else _)) same.symm

/-- **The scale and the log level** make no difference to a run whose window opens. -/
theorem run_congr (random : ρ) (program : Array Byte) (path : '\x00' ∉ o.rom.toList)
    (start : Int) (frames : List Frame) {scale : Int} {level : Level} (opens : o.Opens)
    (opens' : { o with scale := scale, level := level }.Opens) :
    let r := o.run random (.ok program) start frames
    let r' := { o with scale := scale, level := level }.run random (.ok program) start frames
    r'.passes = r.passes ∧ r'.machine = r.machine ∧ r'.ending = r.ending := by
  obtain ⟨passes, ending, m, n, same, machine, machine'⟩ := run_lockstep Machine.lockstep_eq
    (congrArg Machine.redraw) random random start frames opens opens' (hasTitle_of_path path)
    (hasTitle_of_path path) rfl (rfl : o.core random program = _) fun _ _ _ _ => trivial
  intro r r'
  exact ⟨passes, machine'.trans (same ▸ machine.symm), ending⟩

/-- **The random source** makes no difference to a run that draws no number. -/
theorem run_withRandom (random random' : ρ) (program : Array Byte)
    (path : '\x00' ∉ o.rom.toList) (start : Int) (frames : List Frame) :
    let r := o.run random (.ok program) start frames
    let r' := o.run random' (.ok program) start frames
    (∀ w ∈ (o.core random program).words (o.operations start frames r.passes.length),
      ¬ w.DrawsNumber) →
    r'.passes = r.passes ∧ r'.machine = r.machine.map (Machine.withRandom · random')
      ∧ r'.ending = r.ending := by
  have titled := hasTitle_of_path path
  intro r r' sure
  cases opened : o.screen.openWindow with
  | error fault =>
    obtain ⟨machine, passes, ending⟩ :=
      run_of_openWindow_eq_error opened random program start frames
    obtain ⟨machine', passes', ending'⟩ :=
      run_of_openWindow_eq_error opened random' program start frames
    refine ⟨passes'.trans passes.symm, ?_, ending'.trans ending.symm⟩
    show (o.run random' _ _ _).machine = (o.run random _ _ _).machine.map _
    rw [machine', machine]
    rfl
  | ok w =>
    obtain ⟨passes, ending, m, n, same, machine, machine'⟩ := run_lockstep
      (Machine.lockstep_withRandom random') (fun {m n} same => same ▸ rfl) random random'
      start frames ⟨w, opened⟩ ⟨w, opened⟩ titled titled rfl
      (rfl : o.core random' program = (o.core random program).withRandom random')
      (Machine.executes_of_words sure)
    refine ⟨passes, ?_, ending⟩
    show (o.run random' _ _ _).machine = (o.run random _ _ _).machine.map _
    rw [machine', machine, same]
    rfl

/-- **Times and events** make no difference to the cycles of a run but for the keypads that
    these meet, whatever else a second run with the same program and random source differs
    in. -/
theorem cycles_congr (random : ρ) (program : Array Byte) {o' : Options}
    (path : '\x00' ∉ o.rom.toList) (path' : '\x00' ∉ o'.rom.toList)
    (strict : o'.strict = o.strict) (start start' : Int) (frames frames' : List Frame) :
    let r := o.run random (.ok program) start frames
    let r' := o'.run random (.ok program) start' frames'
    let cycles := (o.core random program).cycles (o.operations start frames r.passes.length)
    let cycles' := (o.core random program).cycles (o'.operations start' frames' r'.passes.length)
    ∀ count, (cycles.map Machine.keypad).take count = (cycles'.map Machine.keypad).take count →
      cycles.take count = cycles'.take count
        ∧ (r.passes.filter Pass.ranCycle).take count
          = (r'.passes.filter Pass.ranCycle).take count := by
  intro r r' cycles cycles' count keypads
  have core : o'.core random program = o.core random program := by
    rw [Options.core, Options.core, strict]
  have same : cycles.take count = cycles'.take count :=
    Machine.cycles_take_congr _ (Session.isPlaying_of_mem_operations _ _ _)
      (Session.isPlaying_of_mem_operations _ _ _) count keypads
  have ran := (run_follows random program path start frames).ran
  have ran' := (run_follows random program path' start' frames').ran
  rw [core] at ran'
  refine ⟨same, ?_⟩
  rw [ran, ran', ← List.map_take, ← List.map_take]
  exact congrArg _ same

/-! ### All of it -/

/-- **The host never perturbs the machine.**  A run whose program loads, from whatever path, is
    what the operations of its passes make of the machine with that program: the keys that the
    events of a pass move, then a cycle if the pass was due, up to a quit or a trap.  If the
    window opens, as it does for the scales from 1 to 256, it comes to an exit status, and its
    passes, its machine and its exit status do not depend on the scale or the log level; if it
    does not open, there are no passes.  Two runs with the same program, random source and
    strictness have the same cycles as long as these meet the same keypads, and a run that draws
    no number is the same with any random source. -/
theorem host_never_perturbs_the_machine (o : Options) (random : ρ) (program : Array Byte)
    (path : '\x00' ∉ o.rom.toList) (start : Int) (frames : List Frame) :
    let r := o.run random (.ok program) start frames
    let cycles := (o.core random program).cycles (o.operations start frames r.passes.length)
    RunFollows o (o.core random program) start frames
        (o.stages random (.ok program) start frames) r
      ∧ (1 ≤ o.scale → o.scale ≤ 256 → o.Opens)
      ∧ (o.Opens → r.passes ≠ []
        ∧ r.ending = .ok (if r.passes.any Pass.isTrap then failureStatus else 0))
      ∧ (¬ o.Opens → r.passes = [] ∧ ∃ fault, r.ending = .error (.window fault))
      ∧ (∀ (scale : Int) (level : Level), o.Opens →
        { o with scale := scale, level := level }.Opens →
        let r' := { o with scale := scale, level := level }.run random (.ok program) start frames
        r'.passes = r.passes ∧ r'.machine = r.machine ∧ r'.ending = r.ending)
      ∧ (∀ o' : Options, '\x00' ∉ o'.rom.toList → o'.strict = o.strict →
        ∀ (start' : Int) (frames' : List Frame),
        let r' := o'.run random (.ok program) start' frames'
        let cycles' := (o.core random program).cycles
          (o'.operations start' frames' r'.passes.length)
        ∀ count, (cycles.map Machine.keypad).take count = (cycles'.map Machine.keypad).take count →
          cycles.take count = cycles'.take count
            ∧ (r.passes.filter Pass.ranCycle).take count
              = (r'.passes.filter Pass.ranCycle).take count)
      ∧ (∀ random' : ρ,
        (∀ w ∈ (o.core random program).words (o.operations start frames r.passes.length),
          ¬ w.DrawsNumber) →
        let r' := o.run random' (.ok program) start frames
        r'.passes = r.passes ∧ r'.machine = r.machine.map (Machine.withRandom · random')
          ∧ r'.ending = r.ending) := by
  intro r cycles
  refine ⟨run_follows random program path start frames, opens_of_scale,
    ending_of_opens random program path start frames,
    ending_of_not_opens random program start frames, ?_, ?_, ?_⟩
  · intro scale level opens opens'
    exact run_congr random program path start frames opens opens'
  · intro o' path' strict start' frames'
    exact cycles_congr random program path path' strict start start' frames frames'
  · intro random'
    exact run_withRandom random random' program path start frames

/-- The theorem at a program that waits for a key, shown at the scales one and two. -/
theorem same_passes_at_scale_two :
    let o : Options := { scale := 1, delay := 0, rom := "/a" }
    let frames : List Frame := [⟨1, []⟩, ⟨2, [.keyDown 120]⟩]
    '\x00' ∉ o.rom.toList
      ∧ ({ o with scale := 2 }.run (Wheel.ofList []) (.ok #[0xF0, 0x0A]) 0 frames).passes
        = (o.run (Wheel.ofList []) (.ok #[0xF0, 0x0A]) 0 frames).passes := by
  intro o frames
  have path : '\x00' ∉ o.rom.toList := by decide
  obtain ⟨-, opens, -, -, scaled, -⟩ := host_never_perturbs_the_machine o (Wheel.ofList [])
    #[0xF0, 0x0A] path 0 frames
  have double : { o with scale := 2 }.Opens := opens_of_scale (by decide) (by decide)
  exact ⟨path, (scaled 2 o.level (opens (by decide) (by decide)) double).1⟩

/-- **A window may be too large.**  So a run can end otherwise than one that differs from it
    only in a scale of at least one: at the scale 257 the window would be wider than any may
    be. -/
theorem a_window_may_be_too_large :
    ¬ ∀ (o : Options) (program : Array Byte) (scale : Int),
      '\x00' ∉ o.rom.toList → 1 ≤ o.scale → 1 ≤ scale →
      ∀ (start : Int) (frames : List Frame),
        ({ o with scale := scale }.run (Wheel.ofList []) (.ok program) start frames).ending
          = (o.run (Wheel.ofList []) (.ok program) start frames).ending := by
  intro same
  have path : '\x00' ∉ "a".toList := by decide
  have ending := same { scale := 1, delay := 1, rom := "a" } #[] 257 path (by decide) (by decide)
    0 []
  obtain ⟨-, small⟩ := ending_of_opens (Wheel.ofList []) #[] path 0 []
    (opens_of_scale (o := { scale := 1, delay := 1, rom := "a" }) (by decide) (by decide))
  have large : Screen.openWindow
      (screen { scale := 257, delay := 1, rom := "a" }) = .error .tooLarge := by rfl
  rw [small, (run_of_openWindow_eq_error large (Wheel.ofList []) #[] 0 []).2.2] at ending
  cases ending

end Options

end ChipEight
