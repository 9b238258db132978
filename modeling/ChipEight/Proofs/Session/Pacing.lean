import ChipEight.Proofs.Session.Isolation
import ChipEight.Proofs.Strictness

namespace ChipEight

/-!
# When cycles run

The clock settles which passes run a cycle, and the events settle which pass is the last one.
The clock may stand still or go back.

* `Session.cycleTimes` — the times of the passes that ran a cycle;
* `Session.OnTime` — a pass runs a cycle exactly if more than the delay has passed since the
  last pass that did;
* `Session.play_onTime` — so it is in every session;
* `Session.mul_le_of_apart`, `Session.length_le_of_apart` — hence the time of a cycle bounds the
  number of those before it;
* `Session.length_play` — a session lasts up to the first quit, unless a trap ends it earlier;
* `Session.quitPass` — where that quit is in the script of a run;
* `Options.cycles_are_paced` — all of this for a run;
* `Options.no_pass_without_a_window` — why the window must open.
-/

/-! ### Traps -/

/-- A pass that stopped the machine tells of the trap. -/
theorem Pass.exists_of_isTrap {p : Pass} (trap : p.isTrap = true) : ∃ t, p = .trapped t := by
  cases p with
  | trapped t => exact ⟨t, rfl⟩
  | _ => exact nomatch trap

/-- The pass of a cycle is a trap where the cycle fetches an unknown word on a strict
    machine. -/
theorem Pass.ofCycle_eq_trapped_iff {ρ : Type} [RandomSource ρ] {m : Machine ρ} {trap : Trap} :
    ofCycle m = .trapped trap ↔ (m.strict = true ∧ m.fetch.IsUnknown) ∧ trap = ⟨m.fetch⟩ := by
  rw [ofCycle, Machine.result_cycle_eq]
  by_cases stops : m.fetch.IsUnknown ∧ m.strict = true
  · rw [if_pos stops]
    refine ⟨fun same => ⟨stops.symm, (Pass.trapped.inj same).symm⟩, fun named => ?_⟩
    rw [named.2]
  · rw [if_neg stops]
    refine iff_of_false (fun same => ?_) fun other => stops other.1.symm
    cases same

namespace Session

/-! ### Times of cycles -/

/-- The times of the passes that ran a cycle, in their order. -/
def cycleTimes (frames : List Frame) (passes : List Pass) : List Int :=
  ((frames.zip passes).filter (·.2.ranCycle)).map (·.1.time)

/-- The time of the last of these passes, or the start if there is none. -/
def lastTime (start : Int) (frames : List Frame) (passes : List Pass) : Int :=
  (cycleTimes frames passes).getLast?.getD start

/-- Without a pass there is no time. -/
@[simp] theorem cycleTimes_nil (frames : List Frame) : cycleTimes frames [] = [] := by
  rw [cycleTimes, List.zip_nil_right]
  rfl

/-- A pass puts its time in front if it ran a cycle. -/
theorem cycleTimes_cons (f : Frame) (frames : List Frame) (p : Pass) (passes : List Pass) :
    cycleTimes (f :: frames) (p :: passes)
      = if p.ranCycle then f.time :: cycleTimes frames passes else cycleTimes frames passes := by
  rw [cycleTimes, List.zip_cons_cons, List.filter_cons]
  split <;> rfl

/-- The passes behind a pass start where it leaves the time of the last cycle. -/
theorem lastTime_cons (start : Int) (f : Frame) (frames : List Frame) (p : Pass)
    (passes : List Pass) :
    lastTime start (f :: frames) (p :: passes)
      = lastTime (if p.ranCycle then f.time else start) frames passes := by
  rw [lastTime, cycleTimes_cons]
  split
  · rw [List.getLast?_cons]
    rfl
  · rfl

/-- They are times of the frames of the passes. -/
theorem exists_of_mem_cycleTimes {frames : List Frame} {passes : List Pass} {time : Int}
    (mem : time ∈ cycleTimes frames passes) :
    ∃ f ∈ frames.take passes.length, f.time = time := by
  induction frames generalizing passes with
  | nil => exact nomatch mem
  | cons f frames ih =>
    cases passes with
    | nil => exact absurd (cycleTimes_nil _ ▸ mem) List.not_mem_nil
    | cons p passes =>
      have among : time = f.time ∨ time ∈ cycleTimes frames passes := by
        rw [cycleTimes_cons] at mem
        split at mem
        · exact List.mem_cons.mp mem
        · exact .inr mem
      rw [List.length_cons, List.take_succ_cons]
      rcases among with rfl | later
      · exact ⟨f, List.mem_cons_self, rfl⟩
      · obtain ⟨g, found, same⟩ := ih later
        exact ⟨g, List.mem_cons_of_mem f found, same⟩

/-- There is one for every pass that ran a cycle. -/
theorem length_cycleTimes {frames : List Frame} {passes : List Pass}
    (enough : passes.length ≤ frames.length) :
    (cycleTimes frames passes).length = (passes.filter Pass.ranCycle).length := by
  have ran : ((frames.zip passes).filter (·.2.ranCycle)).map Prod.snd
      = passes.filter Pass.ranCycle := by
    rw [← List.map_snd_zip enough, List.filter_map, List.map_snd_zip enough]
    rfl
  rw [cycleTimes, List.length_map, ← ran, List.length_map]

/-! ### Keeping to the clock -/

/-- Passes that keep to the clock. -/
structure OnTime (delay start : Int) (frames : List Frame) (passes : List Pass) : Prop where
  /-- A pass runs a cycle exactly if more than the delay has passed since the last pass that
      did, and waits if it runs none. -/
  turns : ∀ k f p, frames[k]? = some f → passes[k]? = some p →
    (p.ranCycle = true ↔ delay < f.time - lastTime start frames (passes.take k))
      ∧ (p = .waited ↔ p.ranCycle = false)
  /-- From the start to the first cycle, and from each cycle to the next, more than the delay
      has passed. -/
  apart : (start :: cycleTimes frames passes).IsChain fun earlier later =>
    delay + 1 ≤ later - earlier

/-- No passes keep to any clock. -/
theorem OnTime.nil (delay start : Int) (frames : List Frame) : OnTime delay start frames [] := by
  refine ⟨fun k f p _ pass => (nomatch pass), ?_⟩
  rw [cycleTimes_nil]
  exact .singleton start

variable {ρ : Type} [RandomSource ρ]

/-- A pass in front of others. -/
theorem OnTime.cons {delay : Int} {m : Machine ρ} {last : Int} {f : Frame} {t : Turn ρ}
    {frames : List Frame} {passes : List Pass} (first : TurnFollows delay m last f t)
    (rest : OnTime delay t.session.lastCycle frames passes) :
    OnTime delay last (f :: frames) (t.pass :: passes) := by
  have due : f.isDue delay last = true ↔ delay < f.time - last := decide_eq_true_iff
  have ran : t.pass.ranCycle = f.isDue delay last := by
    rw [first.pass]
    split
    · next isDue => rw [Pass.ranCycle_ofCycle, isDue]
    · next notDue => exact (Bool.eq_false_iff.mpr notDue).symm
  have lastCycle : t.session.lastCycle = if t.pass.ranCycle then f.time else last := by
    rw [first.lastCycle, ran]
    rfl
  rw [lastCycle] at rest
  refine ⟨fun k g p frame pass => ?_, ?_⟩
  · cases k with
    | zero =>
      obtain rfl : f = g := Option.some.inj frame
      obtain rfl : t.pass = p := Option.some.inj pass
      refine ⟨ran ▸ due, fun waits => waits ▸ rfl, fun idle => ?_⟩
      rw [first.pass, if_neg (ran ▸ Bool.eq_false_iff.mp idle)]
    | succ k =>
      rw [List.take_succ_cons, lastTime_cons]
      exact rest.turns k g p frame pass
  · have apart := rest.apart
    rw [cycleTimes_cons]
    by_cases runs : t.pass.ranCycle = true
    · have passed := due.mp (ran ▸ runs)
      rw [if_pos runs] at apart ⊢
      exact .cons_cons (by omega) apart
    · rw [if_neg runs] at apart ⊢
      exact apart

/-- **A session keeps to its clock**, whatever times the clock shows. -/
theorem play_onTime (delay : Int) (s : Session ρ) (frames : List Frame) :
    OnTime delay s.lastCycle frames (s.play delay frames).passes := by
  induction frames generalizing s with
  | nil => exact .nil delay s.lastCycle []
  | cons f frames ih =>
    rw [(play_cons delay s f frames).2]
    have first := turn_follows delay s f
    split
    · exact .cons first (.nil delay _ frames)
    · exact .cons first (ih (s.turn delay f).session)

/-! ### How many cycles there are -/

/-- The cycle with `i` others before it is `i + 1` delays behind the start. -/
theorem mul_le_of_apart {gap start : Int} {times : List Int}
    (apart : (start :: times).IsChain fun earlier later => gap ≤ later - earlier) {i : Nat}
    {time : Int} (found : times[i]? = some time) : (i + 1) * gap ≤ time - start := by
  induction times generalizing start i with
  | nil => exact nomatch found
  | cons first times ih =>
    obtain ⟨here, later⟩ := List.isChain_cons_cons.mp apart
    cases i with
    | zero =>
      obtain rfl : first = time := Option.some.inj found
      simpa using here
    | succ i =>
      have behind := ih later found
      push_cast
      linarith

/-- So a clock that never shows more than some time leaves room for this many. -/
theorem length_le_of_apart {delay start : Int} (forward : 0 ≤ delay) {times : List Int}
    (apart : (start :: times).IsChain fun earlier later => delay + 1 ≤ later - earlier)
    {latest : Int} (bound : ∀ time ∈ times, time ≤ latest) :
    (times.length : Int) ≤ if start ≤ latest then (latest - start) / (delay + 1) else 0 := by
  rcases List.eq_nil_or_concat' times with rfl | ⟨before, last, rfl⟩
  · split
    · exact Int.ediv_nonneg (by omega) (by omega)
    · exact Int.le_refl 0
  · have found : (before ++ [last])[before.length]? = some last := by simp
    have behind := mul_le_of_apart apart found
    have inside : last ≤ latest := bound last (by simp)
    have some : 0 < ((before.length : Int) + 1) * (delay + 1) := by positivity
    rw [List.length_append, List.length_singleton, if_pos (by omega)]
    refine Int.le_ediv_of_mul_le (by omega) ?_
    push_cast
    omega

/-! ### How many passes there are -/

/-- A session lasts up to the first quit, unless a trap ends it earlier. -/
theorem length_play (delay : Int) (s : Session ρ) {frames : List Frame}
    (closed : ∃ f ∈ frames, f.quits = true) :
    let passes := (s.play delay frames).passes
    let quit := frames.findIdx Frame.quits
    passes.length = quit + 1
      ∨ passes.length ≤ quit ∧ ∃ trap, passes.getLast? = some (.trapped trap) := by
  induction frames generalizing s with
  | nil => exact nomatch closed
  | cons f frames ih =>
    intro passes quit
    have pass : passes = _ := passes_play_cons delay s f frames
    cases quits : f.quits with
    | true =>
      left
      have here : quit = 0 := List.findIdx_cons.trans (by rw [quits]; rfl)
      rw [pass, quits, Bool.or_true, if_pos rfl, here]
      rfl
    | false =>
      have here : quit = frames.findIdx Frame.quits + 1 :=
        List.findIdx_cons.trans (by rw [quits]; rfl)
      rw [quits, Bool.or_false] at pass
      cases trap : (s.turn delay f).pass.isTrap with
      | true =>
        right
        obtain ⟨t, trapped⟩ := Pass.exists_of_isTrap trap
        rw [pass, trap, if_pos rfl, here, trapped]
        exact ⟨Nat.succ_le_succ (Nat.zero_le _), t, rfl⟩
      | false =>
        have later : ∃ g ∈ frames, g.quits = true :=
          ((List.exists_mem_cons_iff _ f frames).mp closed).resolve_left
            (Bool.eq_false_iff.mp quits)
        rw [pass, trap, if_neg Bool.false_ne_true, here, List.length_cons, List.getLast?_cons]
        rcases ih (s.turn delay f).session later with all | ⟨fewer, t, last⟩
        · exact .inl (congrArg _ all)
        · refine .inr ⟨Nat.succ_le_succ fewer, t, ?_⟩
          rw [last]
          rfl

/-- The events of some frame of a script ask to quit. -/
theorem exists_quits_script (start : Int) (frames : List Frame) :
    ∃ f ∈ script start frames, f.quits = true :=
  ⟨_, List.mem_append_right _ List.mem_cons_self, rfl⟩

/-- The place of the first pass of a run whose events ask to quit. -/
def quitPass (start : Int) (frames : List Frame) : Nat :=
  (script start frames).findIdx Frame.quits

/-- A script has one. -/
theorem quitPass_lt (start : Int) (frames : List Frame) :
    quitPass start frames < (script start frames).length :=
  List.findIdx_lt_length_of_exists (exists_quits_script start frames)

end Session

namespace Options

variable {ρ : Type} [RandomSource ρ] {o : Options}

/-- The passes of a run whose window opens are those of a session. -/
theorem exists_passes_eq (random : ρ) (program : Array Byte) (path : '\x00' ∉ o.rom.toList)
    (opens : o.Opens) (start : Int) (frames : List Frame) :
    ∃ w : Window, (o.run random (.ok program) start frames).passes
      = (Session.play o.delay ⟨o.core random program, w, start⟩
        (Session.script start frames)).passes := by
  obtain ⟨w, opened⟩ := opens
  exact ⟨w, (run_of_openWindow opened (hasTitle_of_path path) random program start frames).2.1⟩

/-- A run lasts up to the first quit, unless a trap ends it earlier. -/
theorem length_run (random : ρ) (program : Array Byte) (path : '\x00' ∉ o.rom.toList)
    (opens : o.Opens) (start : Int) (frames : List Frame) :
    let passes := (o.run random (.ok program) start frames).passes
    let quit := Session.quitPass start frames
    passes.length = quit + 1
      ∨ passes.length ≤ quit ∧ ∃ trap, passes.getLast? = some (.trapped trap) := by
  obtain ⟨w, played⟩ := exists_passes_eq random program path opens start frames
  rw [played]
  exact Session.length_play o.delay _ (Session.exists_quits_script start frames)

/-- So it makes no pass behind that quit. -/
theorem length_run_le (random : ρ) (program : Array Byte) (path : '\x00' ∉ o.rom.toList)
    (opens : o.Opens) (start : Int) (frames : List Frame) :
    (o.run random (.ok program) start frames).passes.length
      ≤ Session.quitPass start frames + 1 := by
  rcases length_run random program path opens start frames with all | ⟨fewer, -⟩
  · exact Nat.le_of_eq all
  · exact Nat.le_succ_of_le fewer

/-- A pass that stopped the machine of a run fetched an unknown word, and the run is strict. -/
theorem exists_of_trapped (random : ρ) (program : Array Byte) (path : '\x00' ∉ o.rom.toList)
    (start : Int) (frames : List Frame) {trap : Trap}
    (among : .trapped trap ∈ (o.run random (.ok program) start frames).passes) :
    o.strict = true ∧ ∃ m ∈ (o.core random program).cycles (o.operations start frames
        (o.run random (.ok program) start frames).passes.length),
      m.fetch.IsUnknown ∧ trap = ⟨m.fetch⟩ := by
  have ran : .trapped trap ∈ (o.run random (.ok program) start frames).passes.filter
      Pass.ranCycle := List.mem_filter.mpr ⟨among, rfl⟩
  rw [(run_follows random program path start frames).ran] at ran
  obtain ⟨m, met, stopped⟩ := List.mem_map.mp ran
  have kept : m.strict = o.strict := Machine.strict_of_mem_cycles met
  obtain ⟨⟨strict, unknown⟩, same⟩ := Pass.ofCycle_eq_trapped_iff.mp stopped
  exact ⟨kept ▸ strict, m, met, unknown, same⟩

/-- **Cycles are paced by the clock**, whatever times it shows.  In a run whose program loads
    and whose window opens each pass runs a cycle or waits, and it runs one exactly if more
    than the delay has passed since the last one, or since the start.  So a cycle with `i`
    others before it is `i + 1` delays behind the start, and the latest time of a pass bounds
    the number of cycles.  The run goes up to the first pass with a quit, that one included,
    unless it is strict and a trap ends it earlier. -/
theorem cycles_are_paced (random : ρ) (program : Array Byte) (path : '\x00' ∉ o.rom.toList)
    (opens : o.Opens) (start : Int) (frames : List Frame) :
    let script := Session.script start frames
    let r := o.run random (.ok program) start frames
    let times := Session.cycleTimes script r.passes
    let quit := Session.quitPass start frames
    Session.OnTime o.delay start script r.passes
      ∧ (∀ (i : Nat) (time : Int), times[i]? = some time →
        (i + 1) * (o.delay + 1) ≤ time - start)
      ∧ (0 ≤ o.delay → ∀ latest, (∀ f ∈ script.take r.passes.length, f.time ≤ latest) →
        (times.length : Int) ≤ if start ≤ latest then (latest - start) / (o.delay + 1) else 0)
      ∧ times.length
        = ((o.core random program).cycles (o.operations start frames r.passes.length)).length
      ∧ (r.passes.length = quit + 1
        ∨ r.passes.length ≤ quit ∧ o.strict = true
          ∧ ∃ trap, r.passes.getLast? = some (.trapped trap)) := by
  intro script r times quit
  obtain ⟨w, played⟩ := exists_passes_eq random program path opens start frames
  have onTime : Session.OnTime o.delay start script r.passes :=
    played ▸ Session.play_onTime o.delay ⟨o.core random program, w, start⟩ script
  have inside : r.passes.length ≤ script.length :=
    Nat.le_trans (length_run_le random program path opens start frames)
      (Session.quitPass_lt start frames)
  refine ⟨onTime, fun i time found => Session.mul_le_of_apart onTime.apart found,
    fun forward latest bound => ?_, ?_, ?_⟩
  · refine Session.length_le_of_apart forward onTime.apart fun time mem => ?_
    obtain ⟨f, made, rfl⟩ := Session.exists_of_mem_cycleTimes mem
    exact bound f made
  · rw [Session.length_cycleTimes inside, (run_follows random program path start frames).ran,
      List.length_map]
  · refine (length_run random program path opens start frames).imp_right
      fun ⟨fewer, trap, last⟩ => ⟨fewer, ?_, trap, last⟩
    exact (exists_of_trapped random program path start frames (List.mem_of_getLast? last)).1

/-- The theorem at a clock that goes back: of the four passes at the times 10, 3, 16 and 16
    two may run a cycle, by the latest of these times. -/
theorem cycles_are_few_on_a_clock_that_goes_back :
    let o : Options := { scale := 1, delay := 5, rom := "/a" }
    let script := Session.script 0 [⟨10, []⟩, ⟨3, []⟩, ⟨16, []⟩]
    let r := o.run (Wheel.ofList []) (.ok #[]) 0 [⟨10, []⟩, ⟨3, []⟩, ⟨16, []⟩]
    '\x00' ∉ o.rom.toList ∧ o.Opens ∧ r.passes.length = 4
      ∧ (Session.cycleTimes script r.passes).length ≤ 2 := by
  intro o script r
  have path : '\x00' ∉ o.rom.toList := by decide
  have opens : o.Opens := opens_of_scale (by decide) (by decide)
  obtain ⟨-, -, few, -, lasts⟩ := cycles_are_paced (Wheel.ofList []) #[] path opens 0
    [⟨10, []⟩, ⟨3, []⟩, ⟨16, []⟩]
  have four : r.passes.length = 4 :=
    lasts.resolve_right fun trapped => Bool.false_ne_true trapped.2.1
  refine ⟨path, opens, four, ?_⟩
  have bound := few (by decide) 16 (fun f made => ?_)
  · exact Int.ofNat_le.mp bound
  · have all : f ∈ script := List.mem_of_mem_take made
    have late : ∀ f ∈ script, f.time ≤ 16 := by decide
    exact late f all

/-- **A run without a window** makes no pass, so the window must open: at the scale 257 it
    would be wider than any may be. -/
theorem no_pass_without_a_window :
    ¬ ∀ (o : Options) (program : Array Byte),
      '\x00' ∉ o.rom.toList → 1 ≤ o.scale → o.strict = false →
      ∀ (start : Int) (frames : List Frame),
        (o.run (Wheel.ofList []) (.ok program) start frames).passes.length
          = Session.quitPass start frames + 1 := by
  intro lasts
  have made := lasts { scale := 257, delay := 1, rom := "a" } #[] (by decide) (by decide) rfl 0 []
  have large : Screen.openWindow
      (screen { scale := 257, delay := 1, rom := "a" }) = .error .tooLarge := by rfl
  rw [(run_of_openWindow_eq_error large (Wheel.ofList []) #[] 0 []).2.1] at made
  exact Nat.succ_ne_zero _ made.symm

end Options

end ChipEight
