namespace ChipEight

/-!
# The log

* `Level` — how serious a record is, in ascending order;
* `Record` — a level and a text;
* `Record.line` — how a record is printed.
-/

/-- How serious a log record is. -/
inductive Level
  | debug | info | warning | error | critical
deriving DecidableEq, Repr

namespace Level

/-- All levels, the least serious first. -/
def all : List Level := [debug, info, warning, error, critical]

/-- The position of a level, which rises with the seriousness. -/
def rank : Level → Nat
  | debug => 0
  | info => 1
  | warning => 2
  | error => 3
  | critical => 4

/-- A level is at most another one if it is no more serious. -/
instance : LE Level := ⟨fun a b => a.rank ≤ b.rank⟩

instance (a b : Level) : Decidable (a ≤ b) := inferInstanceAs (Decidable (a.rank ≤ b.rank))

/-- The name of a level. -/
def name : Level → String
  | debug => "DEBUG"
  | info => "INFO"
  | warning => "WARNING"
  | error => "ERROR"
  | critical => "CRITICAL"

/-- The level of a name. -/
def ofName? (name : String) : Option Level := all.find? (·.name = name)

end Level

/-- An entry of the log. -/
structure Record where
  level : Level
  text : String
deriving DecidableEq, Repr

namespace Record

/-- The printed form of a record. -/
def line (r : Record) : String := "[" ++ r.level.name ++ "]:  " ++ r.text ++ "\n"

/-- What is printed of a log when only records from a level on are wanted. -/
def print (threshold : Level) (log : List Record) : String :=
  String.join ((log.filter (threshold ≤ ·.level)).map line)

end Record

end ChipEight
