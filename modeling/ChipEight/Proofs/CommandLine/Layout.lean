import ChipEight.Options.Parse
import ChipEight.Proofs.CommandLine.Tokens
import Mathlib.Data.List.Induction
import Mathlib.Tactic.IntervalCases

namespace ChipEight

open Text

/-!
# Layouts of the command line

The options of a command line may stand anywhere between its positional arguments, in any
order, and each may carry its value in one of two ways.  None of this makes a difference to what
is read.

* `Options.Choice`, `Options.Part` — an option with its value, and a piece of a command line:
  such an option or a positional argument;
* `Draft.Reads` — what the reading of some arguments amounts to, whatever is behind them;
* `Draft.reads_words` — the pieces are read one by one;
* `Draft.foldlM_enter` — the options might as well all stand in front of the positional
  arguments;
* `Draft.foldl_choose` — of the options of one name the last one counts;
* `Options.layouts_come_back` — so a command line gives back what it was made of, in whatever
  layout, or is refused because it has too few or too many positional arguments.
-/

/-! ### Pieces of a command line -/

/-- The arguments by which an option is given a value: two of them, or a single one if they are
    joined by an equals sign. -/
def Flag.written (f : Flag) (joined : Bool) (value : String) : List String :=
  if joined then [f.text ++ "=" ++ value] else [f.text, value]

namespace Options

/-- An option with its value, and whether the two are joined. -/
inductive Choice
  | seed (n : Decimal) (joined : Bool)
  | strict
  | level (level : Level) (joined : Bool)
deriving DecidableEq

namespace Choice

/-- The arguments that it is written with. -/
def words : Choice → List String
  | seed n joined => Flag.seed.written joined n.text
  | strict => [Flag.strict.text]
  | level l joined => Flag.logLevel.written joined l.name

/-- The seed that it gives. -/
def seed? : Choice → Option Int
  | seed n _ => some n.value
  | _ => none

/-- The level that it gives. -/
def level? : Choice → Option Level
  | level l _ => some l
  | _ => none

/-- The last seed that some options give. -/
def lastSeed? (choices : List Choice) : Option Int := (choices.filterMap seed?).getLast?

/-- The last level that some options give. -/
def lastLevel? (choices : List Choice) : Option Level := (choices.filterMap level?).getLast?

end Choice

/-- A piece of a command line. -/
inductive Part
  | option (choice : Choice)
  | positional (text : String)
deriving DecidableEq

namespace Part

/-- The arguments that it is written with. -/
def words : Part → List String
  | option c => c.words
  | positional text => [text]

/-- The option that it is. -/
def choice? : Part → Option Choice
  | option c => some c
  | positional _ => none

/-- The positional argument that it is. -/
def positional? : Part → Option String
  | option _ => none
  | positional text => some text

end Part

end Options

open Options

/-! ### What a piece does -/

/-- Decimal text is an integer where one is due. -/
theorem Positionals.integer_text (argument : Argument) (n : Decimal) :
    integer argument n.text = .ok n.value := by
  rw [integer, n.integer?_text]

namespace Draft

/-- Take an option over, with its value. -/
def choose (d : Draft) : Choice → Draft
  | .seed n _ => { d with seed := some n.value, hollow := d.hollow.erase .seed }
  | .strict => { d with strict := true }
  | .level l _ => { d with level := l, hollow := d.hollow.erase .logLevel }

/-- Read a positional argument, or set it aside when there have been enough. -/
def place (d : Draft) (text : String) : Except Stop Draft :=
  if d.positionals.isFull then .ok (d.setAside [text]) else d.addPositional text

/-- Read a piece of a command line. -/
def enter (d : Draft) : Part → Except Stop Draft
  | .option c => .ok (d.choose c)
  | .positional text => d.place text

/-! ### Arguments and what they do -/

/-- It makes no difference to tokens whether a positional argument was in front of them, if no
    separator follows. -/
theorem read_adjacent (tokens : List Token) (adjacent : Bool) (d : Draft) :
    read none tokens adjacent d = read none tokens false d := by
  cases tokens with
  | nil => rfl
  | cons token tokens => cases token <;> unfold read <;> rfl

/-- Some arguments are told apart, and reading them has an effect of its own, whatever is
    behind them. -/
def Reads (arguments : List String) (effect : Draft → Except Stop Draft) : Prop :=
  ∃ tokens, List.Forall₂ (Token.ofArgument · = .ok ·) arguments tokens
    ∧ ∀ behind adjacent d,
      read none (tokens ++ behind) adjacent d = effect d >>= read none behind false

/-- No arguments have no effect. -/
theorem Reads.nil : Reads [] pure :=
  ⟨[], .nil, fun behind adjacent d => read_adjacent behind adjacent d⟩

/-- The effects of arguments follow each other as the arguments do. -/
theorem Reads.append {front back : List String} {first second : Draft → Except Stop Draft}
    (hf : Reads front first) (hb : Reads back second) :
    Reads (front ++ back) fun d => first d >>= second := by
  obtain ⟨ts, told, reads⟩ := hf
  obtain ⟨us, toldBack, readsBack⟩ := hb
  refine ⟨ts ++ us, List.rel_append told toldBack, fun behind adjacent d => ?_⟩
  rw [List.append_assoc, reads, bind_assoc]
  exact congrArg (first d >>= ·) (funext fun e => readsBack behind false e)

/-- An option that takes a value is given it, joined or not. -/
theorem Reads.written {f : Flag} {argument : Argument} {value : String}
    (takes : f.argument? = some argument) (plain : Token.ofArgument value = .ok (.plain value))
    (joined : Bool) : Reads (f.written joined value) (·.setValue argument value) := by
  cases joined with
  | false =>
    refine ⟨[.flag f none, .plain value],
      .cons (Token.ofArgument_flag f) (.cons plain .nil), fun behind adjacent d => ?_⟩
    rw [List.cons_append, List.cons_append, List.nil_append]
    unfold read
    simp only [takes]
  | true =>
    refine ⟨[.flag f (some value)], .cons (Token.ofArgument_joined f value) .nil,
      fun behind adjacent d => ?_⟩
    have apart : value ≠ "--" := by
      rintro rfl
      exact Token.ofArgument_separator plain
    rw [List.cons_append, List.nil_append]
    unfold read
    simp only [takes, if_neg apart]

/-- An option of a command line is taken over. -/
theorem Reads.choice (c : Choice) : Reads c.words fun d => .ok (d.choose c) := by
  cases c with
  | seed n joined =>
    have effect (d : Draft) : d.setValue .seed n.text = .ok (d.choose (.seed n joined)) := by
      simp only [setValue, Positionals.integer_text]
      rfl
    simpa only [effect, Choice.words] using
      Reads.written (f := .seed) rfl (Token.ofArgument_decimal n) joined
  | strict => exact ⟨[.flag .strict none], .cons (Token.ofArgument_flag .strict) .nil,
      fun _ _ _ => rfl⟩
  | level l joined =>
    have effect (d : Draft) : d.setValue .logLevel l.name = .ok (d.choose (.level l joined)) := by
      cases l <;> rfl
    have plain : Token.ofArgument l.name = .ok (.plain l.name) :=
      Token.ofArgument_of_no_dash (by cases l <;> decide)
    simpa only [effect, Choice.words] using Reads.written (f := .logLevel) rfl plain joined

/-- A plain argument is a positional one. -/
theorem Reads.positional {text : String} (plain : Token.ofArgument text = .ok (.plain text)) :
    Reads [text] (·.place text) := by
  refine ⟨[.plain text], .cons plain .nil, fun behind adjacent d => ?_⟩
  simp only [List.cons_append, List.nil_append, read, place]
  split
  · rfl
  · simp only [read_adjacent behind true]

variable {parts : List Part}

/-- **The pieces are read one by one.** -/
theorem reads_words
    (plain : ∀ text ∈ parts.filterMap Part.positional?, Token.ofArgument text = .ok (.plain text)) :
    Reads (parts.flatMap Part.words) (parts.foldlM enter) := by
  -- Each piece reads in the same way whatever is behind it, so the others may follow.
  induction parts with
  | nil => exact Reads.nil
  | cons part parts ih =>
    rw [List.flatMap_cons]
    cases part with
    | option c => exact (Reads.choice c).append (ih plain)
    | positional text =>
      obtain ⟨here, there⟩ := List.forall_mem_cons.mp plain
      exact (Reads.positional here).append (ih there)

/-- So a command line ends with what its pieces leave. -/
theorem parse_words
    (plain : ∀ text ∈ parts.filterMap Part.positional?, Token.ofArgument text = .ok (.plain text)) :
    Options.parse (parts.flatMap Part.words) = parts.foldlM enter {} >>= finish := by
  obtain ⟨tokens, told, reads⟩ := reads_words plain
  have whole : read none tokens false {} = parts.foldlM enter {} := by
    have whole := reads [] false {}
    rw [List.append_nil] at whole
    rw [whole]
    exact bind_pure _
  simp only [Options.parse, Scan.ofArguments_of_forall₂ told]
  show read none tokens false {} >>= finish = _
  rw [whole]

/-! ### The order of the pieces -/

/-- An option may change places with a positional argument. -/
theorem place_choose (d : Draft) (c : Choice) (text : String) :
    (d.choose c).place text = (·.choose c) <$> d.place text := by
  have positionals : (d.choose c).positionals = d.positionals := by cases c <;> rfl
  simp only [place, addPositional, positionals]
  split
  · cases c <;> rfl
  · cases d.positionals.add text with
    | error stop => rfl
    | ok p => cases c <;> rfl

/-- So may several of them. -/
theorem place_foldl_choose (d : Draft) (choices : List Choice) (text : String) :
    (choices.foldl choose d).place text = (choices.foldl choose ·) <$> d.place text := by
  induction choices generalizing d with
  | nil => exact (id_map _).symm
  | cons c choices ih => simp only [List.foldl_cons, ih, place_choose, Functor.map_map]

/-- **The order of options and positional arguments does not matter.**  The pieces leave what
    the positional arguments leave when all options are in front of them. -/
theorem foldlM_enter (parts : List Part) (d : Draft) :
    parts.foldlM enter d
      = (parts.filterMap Part.positional?).foldlM place
        ((parts.filterMap Part.choice?).foldl choose d) := by
  induction parts generalizing d with
  | nil => rfl
  | cons part parts ih =>
    rw [List.foldlM_cons]
    cases part with
    | option c => exact ih (d.choose c)
    | positional text =>
      -- The options behind a positional argument are moved in front of it.
      show (d.place text >>= parts.foldlM enter) = _
      simp only [List.filterMap_cons, Part.positional?, Part.choice?, List.foldlM_cons,
        place_foldl_choose, bind_map_left, funext ih]

/-- What some options leave of a command line without positional arguments. -/
def ofChoices (choices : List Choice) : Draft where
  seed := Choice.lastSeed? choices
  strict := .strict ∈ choices
  level := (Choice.lastLevel? choices).getD .warning

/-- **The last option of a name counts.** -/
theorem foldl_choose (choices : List Choice) : choices.foldl choose {} = ofChoices choices := by
  induction choices using List.reverseRecOn with
  | nil => rfl
  | append_singleton choices c ih =>
    rw [List.foldl_append, ih]
    cases c <;> simp [choose, ofChoices, Choice.lastSeed?, Choice.lastLevel?, Choice.seed?,
      Choice.level?]

/-- A command line ends with what its positional arguments add to the last option of each
    name. -/
theorem parse_layout
    (plain : ∀ text ∈ parts.filterMap Part.positional?, Token.ofArgument text = .ok (.plain text)) :
    Options.parse (parts.flatMap Part.words)
      = (parts.filterMap Part.positional?).foldlM place (ofChoices (parts.filterMap Part.choice?))
        >>= finish := by
  rw [parse_words plain, foldlM_enter, foldl_choose]

/-! ### The number of positional arguments -/

/-- What is behind the last positional argument is set aside. -/
theorem foldlM_place_of_isFull {d : Draft} (full : d.positionals.isFull) (extras : List String) :
    extras.foldlM place d = .ok (d.setAside extras) := by
  induction extras generalizing d with
  | nil => rw [setAside, List.append_nil]; rfl
  | cons text extras ih =>
    rw [List.foldlM_cons, place, if_pos full]
    show extras.foldlM place (d.setAside [text]) = _
    rw [ih (d := d.setAside [text]) full, setAside, setAside, setAside, List.append_assoc]
    rfl

end Draft

/-- The first three positional arguments, as many as have been read. -/
def Positionals.first (scale delay : Int) (rom : String) : Nat → Positionals
  | 0 => nothing
  | 1 => Positionals.scale scale
  | 2 => Positionals.delay scale delay
  | _ => Positionals.rom scale delay rom

namespace Draft

variable (scale delay : Decimal) (rom : String)

/-- The positional arguments that are there are read. -/
theorem foldlM_place_take (k : Nat) (d : Draft) (fresh : d.positionals = .nothing) :
    ([scale.text, delay.text, rom].take k).foldlM place d
      = .ok { d with positionals := .first scale.value delay.value rom k } := by
  obtain ⟨positionals, seed, strict, level, extras, hollow⟩ := d
  obtain rfl : positionals = .nothing := fresh
  match k with
  | 0 => rfl
  | 1 | 2 | k + 3 =>
    simp [place, addPositional, Positionals.isFull, Positionals.add, Positionals.integer_text,
      Positionals.first, Except.map, Except.bind, bind, pure, Except.pure]

/-- Arguments behind the last positional one are refused. -/
theorem finish_of_isFull {d : Draft} {s t : Int} {r : String} {extras : List String}
    (full : d.positionals = .rom s t r) (tidy : d.extras = []) (more : extras ≠ []) :
    extras.foldlM place d >>= finish = .error (.refused (.unrecognized extras)) := by
  have aside : (d.setAside extras).extras = extras := by rw [setAside, tidy, List.nil_append]
  rw [foldlM_place_of_isFull (by rw [full]; rfl)]
  show (d.setAside extras).finish = _
  rw [finish, show (d.setAside extras).positionals = _ from full, aside]
  exact if_pos more

end Draft

/-! ### Command lines of any layout -/

namespace Options

variable (scale delay : Decimal) {rom : String} {parts : List Part}

/-- Arguments that are decimal text or have no dash in front are plain. -/
theorem ofArgument_required (dashless : rom.toList.head? ≠ some '-') :
    ∀ text ∈ [scale.text, delay.text, rom], Token.ofArgument text = .ok (.plain text) := by
  simp only [List.forall_mem_cons, List.not_mem_nil, false_imp_iff, implies_true, and_true]
  exact ⟨Token.ofArgument_decimal scale, Token.ofArgument_decimal delay,
    Token.ofArgument_of_no_dash dashless⟩

/-- All three positional arguments give the settings, in any layout. -/
theorem parse_of_required (dashless : rom.toList.head? ≠ some '-')
    (required : parts.filterMap Part.positional? = [scale.text, delay.text, rom]) :
    parse (parts.flatMap Part.words) = .ok
      { scale := scale.value
        delay := delay.value
        rom
        seed := Choice.lastSeed? (parts.filterMap Part.choice?)
        strict := .strict ∈ parts.filterMap Part.choice?
        level := (Choice.lastLevel? (parts.filterMap Part.choice?)).getD .warning } := by
  have plain := ofArgument_required scale delay dashless
  rw [Draft.parse_layout (by rwa [required]), required]
  exact congrArg (· >>= Draft.finish) (Draft.foldlM_place_take scale delay rom 3 _ rfl)

/-- More of them are refused, in any layout. -/
theorem parse_of_extras (dashless : rom.toList.head? ≠ some '-') {extras : List String}
    (more : extras ≠ []) (plain : ∀ text ∈ extras, text.toList.head? ≠ some '-')
    (required : parts.filterMap Part.positional? = [scale.text, delay.text, rom] ++ extras) :
    parse (parts.flatMap Part.words) = .error (.refused (.unrecognized extras)) := by
  have told : ∀ text ∈ [scale.text, delay.text, rom] ++ extras,
      Token.ofArgument text = .ok (.plain text) := by
    intro text among
    obtain among | among := List.mem_append.mp among
    · exact ofArgument_required scale delay dashless text among
    · exact Token.ofArgument_of_no_dash (plain text among)
  have placed := Draft.foldlM_place_take scale delay rom 3
    (Draft.ofChoices (parts.filterMap Part.choice?)) rfl
  rw [List.take_of_length_le (by simp)] at placed
  rw [Draft.parse_layout (by rwa [required]), required, List.foldlM_append, placed]
  show (extras.foldlM Draft.place _ >>= Draft.finish) = _
  exact Draft.finish_of_isFull rfl rfl more

/-- Fewer of them are refused, in any layout. -/
theorem parse_of_take (dashless : rom.toList.head? ≠ some '-') {k : Nat} (few : k < 3)
    (present : parts.filterMap Part.positional? = [scale.text, delay.text, rom].take k) :
    parse (parts.flatMap Part.words)
      = .error (.refused (.missing ([.scale, .delay, .rom].drop k))) := by
  have plain : ∀ text ∈ [scale.text, delay.text, rom].take k,
      Token.ofArgument text = .ok (.plain text) := fun text among =>
    ofArgument_required scale delay dashless text (List.mem_of_mem_take among)
  rw [Draft.parse_layout (by rwa [present]), present, Draft.foldlM_place_take _ _ _ _ _ rfl]
  interval_cases k <;> rfl

/-- **A command line gives back what it was made of.**  In whatever way options and their values
    are written and spread between the positional arguments, the settings are the integers of
    the first two of these, the text of the third, the last seed and the last level that were
    given, or else none and the level of warnings, and strictness if it was asked for.  Further
    arguments behind all of this are refused with the exit status 2, and so is a command line
    without the last ones of the three positional arguments.  Decimal text is what integers are
    printed with, unless it is too long. -/
theorem layouts_come_back (dashless : rom.toList.head? ≠ some '-') :
    let required := [scale.text, delay.text, rom]
    (parts.filterMap Part.positional? = required →
        parse (parts.flatMap Part.words) = .ok
          { scale := scale.value
            delay := delay.value
            rom
            seed := Choice.lastSeed? (parts.filterMap Part.choice?)
            strict := .strict ∈ parts.filterMap Part.choice?
            level := (Choice.lastLevel? (parts.filterMap Part.choice?)).getD .warning }
        ∧ ∀ extras ≠ [], (∀ text ∈ extras, text.toList.head? ≠ some '-') →
          let stop := Stop.refused (.unrecognized extras)
          parse (parts.flatMap Part.words ++ extras) = .error stop ∧ stop.status = 2)
      ∧ (∀ k < 3, parts.filterMap Part.positional? = required.take k →
        let stop := Stop.refused (.missing ([.scale, .delay, .rom].drop k))
        parse (parts.flatMap Part.words) = .error stop ∧ stop.status = 2)
      ∧ ∀ n : Int, n.natAbs < 10 ^ digitLimit →
        ∃ d : Decimal, d.text = toString n ∧ d.value = n := by
  intro required
  refine ⟨fun present => ⟨parse_of_required scale delay dashless present,
    fun extras more plain => ⟨?_, rfl⟩⟩,
    fun k few present => ⟨parse_of_take scale delay dashless few present, rfl⟩,
    fun n small => ⟨.ofInt n small, Decimal.text_ofInt n small, Decimal.value_ofInt n small⟩⟩
  -- The further arguments are pieces of their own.
  have words : (parts ++ extras.map Part.positional).flatMap Part.words
      = parts.flatMap Part.words ++ extras := by
    simp [List.flatMap_map, Part.words]
  rw [← words]
  apply parse_of_extras scale delay dashless more plain
  simp [List.filterMap_map, present, required, Part.positional?, Function.comp_def]

/-- Options may be scattered: a negative seed joined to its name in front of everything, the
    other options between the scale and a negative delay, and another seed at the end. -/
theorem scattered_options_come_back :
    let front := ["--seed=-5", "10", "--strict", "--log-level", "DEBUG", "-1"]
    let back := ["roms/pong.ch8", "--seed", "-0042"]
    parse (front ++ back) = .ok
        { scale := 10
          delay := -1
          rom := "roms/pong.ch8"
          seed := some (-42)
          strict := true
          level := .debug }
      ∧ parse (front ++ back ++ ["", "more"]) = .error (.refused (.unrecognized ["", "more"]))
      ∧ parse front = .error (.refused (.missing [.rom])) := by
  intro front back
  let scale : Decimal := ⟨false, ['1', '0'], by simp, by simp, by decide⟩
  let delay : Decimal := ⟨true, ['1'], by simp, by simp, by decide⟩
  let parts : List Part :=
    [.option (.seed ⟨true, ['5'], by simp, by simp, by decide⟩ true), .positional scale.text,
      .option .strict, .option (.level .debug false), .positional delay.text]
  let others : List Part :=
    [.positional "roms/pong.ch8",
      .option (.seed ⟨true, ['0', '0', '4', '2'], by simp, by simp, by decide⟩ false)]
  have dashless : "roms/pong.ch8".toList.head? ≠ some '-' := by decide
  have words : (parts ++ others).flatMap Part.words = front ++ back := by decide
  have wordsOfFront : parts.flatMap Part.words = front := by decide
  obtain ⟨settings, refused⟩ := (layouts_come_back scale delay dashless).1
    (show (parts ++ others).filterMap Part.positional? = _ from rfl)
  obtain ⟨missing, -⟩ := (layouts_come_back scale delay dashless).2.1 2 (by decide)
    (show parts.filterMap Part.positional? = _ from rfl)
  obtain ⟨unused, -⟩ := refused ["", "more"] (by decide) (by decide)
  rw [words] at settings unused
  rw [wordsOfFront] at missing
  exact ⟨settings, unused, missing⟩

end Options

end ChipEight
