import Recurrence.Datum.Display
import Recurrence.Fault

namespace Recurrence.Journal

/-- A value that a message is made of. -/
inductive Content where
  | plain (value : Datum)
  /-- A value that is computed once it is certain that the message is written. -/
  | computed (value : Datum)
  /-- A value that is computed whenever it is displayed. -/
  | onDisplay (value : Datum)
  deriving DecidableEq

/-- Work that keeps account of the values that were computed for it, the first
one first. The account stays when the work fails. -/
abbrev Telling (α : Type) := ExceptT Fault (StateM (List Datum)) α

namespace Content

/-- Computes a value, and puts it on the account. -/
def compute (value : Datum) : Telling Datum := do
  modify (· ++ [value])
  return value

/-- Computes what has to be computed before the message is written. -/
def settle : Content → Telling Content
  | computed value => do return plain (← compute value)
  | content => pure content

/-- The value for display. -/
def displayed : Content → Telling Datum
  | plain value => pure value
  | computed value | onDisplay value => compute value

/-- The whole number that a value is displayed as. -/
def whole : Content → Telling Int
  | plain (.int n) => pure n
  | plain (.bool b) => pure (if b then 1 else 0)
  | plain (.float .notANumber) => throw .badValue
  | plain (.float d) =>
    match d.truncated? with
    | some n => pure n
    | none => throw .overflow
  | _ => throw .wrongKind

end Content

/-- The values that the marks of a message stand for. -/
structure Filling where
  /-- The values in their order. -/
  values : List Content
  /-- Whether values may be left over. -/
  mayRemain : Bool := false
  /-- The values for marks that have a name. -/
  named : Option Entries := none

namespace Filling

/-- A single value for the marks. Values that have places or names of their own
may be left over. -/
def one (value : Datum) : Filling where
  values := [.plain value]
  mayRemain := match value with
    | .dict _ | .list _ => true
    | _ => false
  named := match value with
    | .dict entries => some entries
    | _ => none

/-- The values given with a message. A mapping on its own gives its values by name. -/
def ofValues : List Content → Filling
  | [.plain (.dict (entry :: entries))] => one (.dict (entry :: entries))
  | values => { values }

/-- The filling that a value stands for; values that count as nothing have none. -/
def ofDatum? (d : Datum) : Option Filling :=
  if d.truthy then
    match d with
    | .tuple items => some { values := items.map .plain }
    | value => some (one value)
  else none

/-- Takes the next value. -/
def next (filling : Filling) : Telling (Content × Filling) :=
  match filling.values with
  | value :: values => pure (value, { filling with values })
  | [] => throw .wrongKind

/-- Makes the value with the given name the only one. -/
def select (filling : Filling) (name : Text) : Telling Filling :=
  match filling.named with
  | none => throw .wrongKind
  | some entries =>
    match entries.lookup name with
    | some value => pure { filling with values := [.plain value] }
    | none => throw .missingKey

/-- The text that a mark stands for: `s` the value, `r` its display, `d` and `i`
the whole number. -/
def mark (filling : Filling) (kind : Char) : Telling (Text × Filling) := do
  let (value, rest) ← filling.next
  if kind = 's' then return ((← value.displayed).text, rest)
  else if kind = 'r' then return ((← value.displayed).quoted, rest)
  else if kind = 'd' ∨ kind = 'i' then return (Text.ofInt (← value.whole), rest)
  else throw .badValue

/-- Puts the values in the place of the marks. A mark is a percent sign and a
letter, with a name in parentheses between them or not; two percent signs stand
for one. -/
def fill (filling : Filling) (t : Text) : Telling Text :=
  match t with
  | [] => if filling.values.isEmpty || filling.mayRemain then pure [] else throw .wrongKind
  | '%' :: '%' :: rest => do return '%' :: (← fill filling rest)
  | '%' :: '(' :: rest => do
    let chosen ← filling.select (rest.takeWhile (· != ')'))
    match (rest.dropWhile (· != ')'))[1]? with
    | some kind =>
      let (shown, left) ← chosen.mark kind
      return shown ++ (← fill left ((rest.dropWhile (· != ')')).drop 2))
    | none => throw .badValue
  | '%' :: kind :: rest => do
    let (shown, left) ← filling.mark kind
    return shown ++ (← fill left rest)
  | ['%'] => throw .badValue
  | c :: rest => do return c :: (← fill filling rest)
termination_by t.length
decreasing_by
  all_goals
    have shorter := (List.dropWhile_sublist (l := rest) fun c : Char => c != ')').length_le
    simp only [List.length_cons, List.length_drop]
    omega

end Filling

/-- The text of a message. Its marks are looked at only when there are values. -/
def message (content : Content) (filling : Option Filling) : Telling Text := do
  let words := (← content.displayed).text
  match filling with
  | none => return words
  | some filling => filling.fill words

end Recurrence.Journal
