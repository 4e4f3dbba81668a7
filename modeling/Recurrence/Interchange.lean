import Recurrence.Datum.Coercion
import Recurrence.Intake.Fields
import Recurrence.Rule.Printer

namespace Recurrence

/-- A weekday occurrence as programs exchange it: the name of a day, alone or
after an ordinal. The name keeps its spelling. -/
inductive DayName where
  | every (name : Text)
  | nth (ordinal : Int) (name : Text)
  deriving DecidableEq, Repr

/-- The plain form in which programs exchange rules. The shape of its values is
settled, but their ranges are not. -/
structure Interchange where
  frequency : Frequency
  interval : Int
  count : Option Int
  ends : Option Timestamp
  weekStart : Weekday
  setPositions : List Int
  months : List Int
  monthDays : List Int
  yearDays : List Int
  weekNumbers : List Int
  weekdays : List DayName
  hours : List Int
  minutes : List Int
  seconds : List Int
  deriving DecidableEq

namespace DayName

/-- The occurrence as a value. -/
def toDatum : DayName → Datum
  | every name => .str name
  | nth ordinal name => .tuple [.int ordinal, .str name]

/-- Where a pair of an integer and a text is looked for. -/
def pairStep : Text := "tuple[int, str]".toList

/-- Takes in a pair of an integer and a text. -/
def takePair (d : Datum) : Intake DayName :=
  match d with
  | .list items | .tuple items =>
    match items with
    | [ordinal, name] =>
      Intake.both nth (Intake.within ['0'] (Intake.int ordinal))
        (Intake.within ['1'] (Intake.text name))
    | [ordinal] =>
      Intake.both nth (Intake.within ['0'] (Intake.int ordinal))
        (Intake.within ['1'] (Intake.refuse .missing))
    | [] =>
      Intake.both nth (Intake.within ['0'] (Intake.refuse .missing))
        (Intake.within ['1'] (Intake.refuse .missing))
    | _ => Intake.refuse .tooLong
  | _ => Intake.refuse .tupleType

/-- Takes in a text or a pair. When it is neither, both are complained about. -/
def take (d : Datum) : Intake DayName :=
  match d.asText? with
  | some name => .ok (every name)
  | none =>
    match takePair d with
    | .ok name => .ok name
    | .error complaints =>
      Intake.both (fun (_ : DayName) name => name)
        (Intake.within "str".toList (Intake.refuse .stringType))
        (Intake.within pairStep (.error complaints))

/-- Takes in names of days, all of which must mean one. -/
def takeAll (d : Datum) : Intake (List DayName) :=
  (Intake.list take d).andThen fun names =>
    (Intake.meaning (names.mapM fun name => name.toDatum.toOccurrence)).map fun _ => names

end DayName

namespace Interchange

/-- The greatest interval of the exchanged form. -/
def maxInterval : Int := 65535

/-- The integers of a list part. -/
def takeNumbers (entries : Entries) (part : ListPart) : Intake (List Int) :=
  Intake.fieldOr entries part.name [] (Intake.list Intake.int)

/-- Takes in the exchanged form from named values. Every value is looked at and
every complaint is given; a name that is no part's is one of them. -/
def take (d : Datum) : Intake Interchange :=
  (Intake.mapping d).andThen fun entries =>
    let form : Intake Interchange :=
      Intake.take (Intake.take (Intake.take (Intake.take (Intake.take (Intake.take (Intake.take
      (Intake.take (Intake.take (Intake.take (Intake.take (Intake.take (Intake.take (Intake.take
      (.ok Interchange.mk)
      (Intake.field entries Part.frequency.name fun value =>
        (Intake.text value).andThen fun t => Intake.meaning (Datum.str t).toFrequency))
      (Intake.fieldOr entries Part.interval.name 1 (Intake.intIn 1 (some maxInterval))))
      (Intake.fieldOr entries Part.count.name none (Intake.optional (Intake.intIn 0 none))))
      (Intake.fieldOr entries Part.ends.name none (Intake.optional Intake.moment)))
      (Intake.fieldOr entries Part.weekStart.name .monday fun value =>
        (Intake.text value).andThen fun t => Intake.meaning (Datum.str t).toWeekday))
      (takeNumbers entries .setPosition))
      (takeNumbers entries .month))
      (takeNumbers entries .monthDay))
      (takeNumbers entries .yearDay))
      (takeNumbers entries .weekNumber))
      (Intake.fieldOr entries ListPart.weekday.name [] DayName.takeAll))
      (takeNumbers entries .hour))
      (takeNumbers entries .minute))
      (takeNumbers entries .second)
    Intake.both (fun form _ => form) form
      (Intake.onlyKnown (Part.all.map fun part => part.name.toList) entries)

/-- The exchanged form of a rule. -/
def ofRule (r : Rule) : Intake Interchange := take (.dict r.entries)

/-- The values of the parts apart from the frequency. -/
def options (form : Interchange) : Entries :=
  let numbers (ns : List Int) : Datum := .list (ns.map Datum.int)
  [(Part.interval, .int form.interval),
    (Part.count, form.count.elim .none Datum.int),
    (Part.ends, form.ends.elim .none Datum.moment),
    (Part.weekStart, .str form.weekStart.code),
    (Part.list .setPosition, numbers form.setPositions),
    (Part.list .month, numbers form.months),
    (Part.list .monthDay, numbers form.monthDays),
    (Part.list .yearDay, numbers form.yearDays),
    (Part.list .weekNumber, numbers form.weekNumbers),
    (Part.list .weekday, .list (form.weekdays.map DayName.toDatum)),
    (Part.list .hour, numbers form.hours),
    (Part.list .minute, numbers form.minutes),
    (Part.list .second, numbers form.seconds)].map fun (part, value) => (part.name.toList, value)

/-- The rule of the exchanged form. -/
def toRule (form : Interchange) : Except Fault Rule :=
  Rule.build (.str form.frequency.label) form.options

/-- The end in the exchanged form: `Z` stands for a clock that shows UTC, and
seconds of the distance from UTC are not written. -/
def endText (t : Timestamp) : Text :=
  match t.offset with
  | some 0 => ({ t with offset := none } : Timestamp).isoText ++ ['Z']
  | some offset =>
    let minutes := offset.natAbs / 60
    let sign := if offset < 0 ∧ minutes ≠ 0 then '-' else '+'
    ({ t with offset := none } : Timestamp).isoText ++
      sign :: Text.padded 2 (minutes / 60) ++ [':'] ++ Text.padded 2 (minutes % 60)
  | none => t.isoText

/-- The exchanged form as plain values. -/
def entries (form : Interchange) : Entries :=
  (Part.frequency.name.toList, .str form.frequency.label) ::
    (form.options.put Part.ends.name.toList
      (form.ends.elim .none fun t => .str (endText t))).put ListPart.weekday.name.toList
      (.list (form.weekdays.map fun
        | .every name => .str name
        | .nth ordinal name => .list [.int ordinal, .str name]))

end Interchange

end Recurrence
