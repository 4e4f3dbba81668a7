import Recurrence.Fault

namespace Recurrence.Datum

/-- The frequency that a value names: a frequency itself, or its name in any
case with blanks around it. -/
def toFrequency (d : Datum) : Except Fault Frequency :=
  match d with
  | .frequency f => .ok f
  | _ =>
    match d.asText?.bind fun t => Frequency.ofName? (Text.upper (Text.trim t)) with
    | some f => .ok f
    | Option.none => .error (.unknownFrequency d)

/-- The weekday that a value names: a weekday itself, or its code, its name or
the first three letters of the name, in any case with blanks around it. -/
def toWeekday (d : Datum) : Except Fault Weekday :=
  match d with
  | .weekday w => .ok w
  | _ =>
    match d.asText?.bind fun t => Weekday.ofAlias? (Text.upper (Text.trim t)) with
    | some w => .ok w
    | Option.none => .error (.unknownWeekday d)

/-- A weekday occurrence from one of the shapes that stand for it: a weekday or
its name for every such day, and a pair of an integer and a name for one of
them. Occurrences stay as they are. -/
def toOccurrence (d : Datum) : Except Fault Datum :=
  match d with
  | .every _ | .nth _ _ => .ok d
  | _ =>
    match d.asText? with
    | some _ => do return .every (.weekday (← d.toWeekday))
    | Option.none =>
      match d.asPair? with
      | some (.int n, day) => do return .nth (.int n) (.weekday (← day.toWeekday))
      | _ => .error (.unknownShape d)

/-- Reads a value, where nothing stands for itself. -/
def optional (read : Datum → Except Fault Datum) (d : Datum) : Except Fault Datum :=
  match d with
  | .none => .ok .none
  | _ => read d

/-- The values that a list part holds when the given value is offered for it:
the items of a tuple, nothing for a value that counts as false, and otherwise
the items of a value that has items. -/
def toItems (d : Datum) : Except Fault (List Datum) :=
  match d with
  | .tuple items => .ok items
  | _ =>
    if d.truthy then
      match d.items? with
      | some items => .ok items
      | Option.none => .error .wrongKind
    else .ok []

theorem toItems_tuple (items : List Datum) : (Datum.tuple items).toItems = .ok items := rfl

end Recurrence.Datum
