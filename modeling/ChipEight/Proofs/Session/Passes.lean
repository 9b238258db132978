import ChipEight.Run

namespace ChipEight

/-!
# Passes of a session

* `Turn.isLast` — whether a pass ends the session;
* `Session.stages` — the sessions at the end of each pass;
* `Session.stages_induction` — what every pass keeps holds at the end of each of them;
* `Session.session_play` — a session ends as its last pass leaves it;
* `Options.begin?_eq_ok` — a session begins with the program in place and its window
  open.
-/

variable {ρ : Type}

/-- Whether a pass ends the session: a quit or a trap does. -/
def Turn.isLast (t : Turn ρ) : Bool :=
  match t.pass with
  | .trapped _ => true
  | _ => t.quit

namespace Session

/-- The sessions at the end of each pass, for some frames and what a pass does with
    one. -/
def stages (pass : Session ρ → Frame → Turn ρ) : Session ρ → List Frame → List (Session ρ)
  | _, [] => []
  | s, f :: frames =>
    let t := pass s f
    t.session :: if t.isLast then [] else stages pass t.session frames

/-- What every pass keeps holds at the end of each of them. -/
theorem stages_induction {pass : Session ρ → Frame → Turn ρ} {P : Session ρ → Prop}
    (keeps : ∀ s f, P s → P (pass s f).session) {s : Session ρ} (start : P s)
    (frames : List Frame) : ∀ t ∈ stages pass s frames, P t := by
  induction frames generalizing s with
  | nil => exact nofun
  | cons f frames ih =>
    intro t ht
    rcases List.mem_cons.mp ht with rfl | later
    · exact keeps s f start
    -- A later stage is there only if this pass was not the last one.
    · by_cases last : (pass s f).isLast = true
      · rw [if_pos last] at later
        exact absurd later List.not_mem_nil
      · rw [if_neg last] at later
        exact ih (keeps s f start) t later

/-- Two ways to go through a pass that agree as long as a condition holds, which the
    passes keep, lead through the same sessions. -/
theorem stages_congr {pass pass' : Session ρ → Frame → Turn ρ} {P : Session ρ → Prop}
    (keeps : ∀ s f, P s → P (pass s f).session) (agree : ∀ s f, P s → pass' s f = pass s f)
    {s : Session ρ} (start : P s) (frames : List Frame) :
    stages pass' s frames = stages pass s frames := by
  induction frames generalizing s with
  | nil => rfl
  | cons f frames ih =>
    rw [stages, stages, agree s f start, ih (keeps s f start)]

variable [RandomSource ρ]

/-- The passes up to a quit or a trap, with the end of a session told apart. -/
theorem play_cons (delay : Int) (s : Session ρ) (f : Frame) (frames : List Frame) :
    (s.play delay (f :: frames)).session
        = (if (s.turn delay f).isLast then (s.turn delay f).session
          else ((s.turn delay f).session.play delay frames).session)
      ∧ (s.play delay (f :: frames)).passes
        = (s.turn delay f).pass :: (if (s.turn delay f).isLast then []
          else ((s.turn delay f).session.play delay frames).passes) := by
  rw [play, Turn.isLast]
  cases (s.turn delay f).pass with
  | trapped trap => exact ⟨rfl, rfl⟩
  | _ => cases (s.turn delay f).quit <;> exact ⟨rfl, rfl⟩

/-- A session ends as its last pass leaves it, and it has a stage for every pass. -/
theorem session_play (delay : Int) (s : Session ρ) (frames : List Frame) :
    (s.play delay frames).session
        = (stages (fun s => s.turn delay) s frames).getLast?.getD s
      ∧ (s.play delay frames).passes.length
        = (stages (fun s => s.turn delay) s frames).length := by
  induction frames generalizing s with
  | nil => exact ⟨rfl, rfl⟩
  | cons f frames ih =>
    obtain ⟨session, passes⟩ := play_cons delay s f frames
    rw [session, passes, stages]
    by_cases last : (s.turn delay f).isLast = true
    · simp only [if_pos last]
      exact ⟨rfl, rfl⟩
    · simp only [if_neg last]
      obtain ⟨session, passes⟩ := ih (s.turn delay f).session
      rw [session, List.length_cons, List.length_cons, passes, List.getLast?_cons]
      exact ⟨rfl, rfl⟩

end Session

/-! ### The beginning -/

namespace Options

/-- A session begins with the program in place and its window open. -/
theorem begin?_eq_ok {o : Options} {random : ρ} {contents : Except ReadFault (Array Byte)}
    {start : Int} {s : Session ρ} {log : List Record}
    (began : o.begin? random contents start = .ok (s, log)) :
    ∃ program w, contents = .ok program ∧ o.screen.openWindow = .ok w
      ∧ s = ⟨(Machine.new o.strict random).place program, w, start⟩ := by
  cases contents with
  | error reason =>
    cases reason <;> exact nomatch began
  | ok program =>
    simp only [begin?, Machine.loadContents, Machine.load, Display.start] at began
    cases opened : o.screen.openWindow with
    | error fault =>
      simp only [opened] at began
      exact nomatch began
    | ok w =>
      cases titled : o.screen.hasTitle with
      | false =>
        simp only [opened, titled] at began
        exact nomatch began
      | true =>
        simp only [opened, titled, if_true] at began
        obtain ⟨rfl, -⟩ := Prod.mk.inj (Except.ok.inj began)
        exact ⟨program, w, rfl, rfl, rfl⟩

/-- A run whose program can be read and whose window opens comes to a session. -/
theorem begin?_of_openWindow {o : Options} {w : Window} (opened : o.screen.openWindow = .ok w)
    (titled : o.screen.hasTitle = true) (random : ρ) (program : Array Byte) (start : Int) :
    ∃ log, o.begin? random (.ok program) start
      = .ok (⟨(Machine.new o.strict random).place program, w, start⟩, log) := by
  simp only [begin?, Machine.loadContents, Machine.load, Display.start, opened, titled, if_true]
  exact ⟨_, rfl⟩

end Options

end ChipEight
