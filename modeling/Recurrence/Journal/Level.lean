import Recurrence.Fault

namespace Recurrence.Journal

/-- The levels that have a name. -/
inductive Level where
  | debug | info | warning | error | critical
  deriving DecidableEq, Repr

namespace Level

/-- All levels, the least first. -/
def all : List Level := [debug, info, warning, error, critical]

def name : Level → String
  | debug => "DEBUG"
  | info => "INFO"
  | warning => "WARNING"
  | error => "ERROR"
  | critical => "CRITICAL"

/-- The rank of a level among the numbers of levels. -/
def number : Level → Nat
  | debug => 10
  | info => 20
  | warning => 30
  | error => 40
  | critical => 50

/-- The name of the rank that lets everything pass. -/
def noneName : String := "NOTSET"

/-- The name of a rank, which is made of the number where there is no name. -/
def nameOf (rank : Int) : Text :=
  if rank = 0 then noneName.toList
  else
    match all.find? fun level => (level.number : Int) = rank with
    | some level => level.name.toList
    | none => "Level ".toList ++ Text.ofInt rank

/-- Other names that a level goes by where it is configured. -/
def aliases : List (String × Nat) :=
  [(noneName, 0), ("WARN", 30), ("FATAL", 50)]

/-- The rank with the given name. -/
def rankOf? (t : Text) : Option Nat :=
  match all.find? fun level => level.name.toList = t with
  | some level => some level.number
  | none => (aliases.find? fun entry => entry.1.toList = t).map Prod.snd

/-- The rank that a value stands for: a number is a rank itself. -/
def read : Datum → Except Fault Int
  | .str t =>
    match rankOf? t with
    | some rank => .ok rank
    | none => .error .badValue
  | d =>
    match d.asIntOrBool? with
    | some rank => .ok rank
    | none => .error .wrongKind

end Level

end Recurrence.Journal
