import Recurrence.Rule.Basic

namespace Recurrence

/-- The two forms in which a rule text writes its end. -/
inductive EndForm where
  /-- With dashes, colons and, where there are any, milliseconds. -/
  | extended
  /-- Compact, except where milliseconds would be lost. -/
  | basic
  deriving DecidableEq, Repr

namespace Rule

/-- A weekday occurrence as a rule text writes it. A pair stands for an ordinal
and a day, and any other value for a day. -/
def occurrenceText (d : Datum) : Text :=
  match d with
  | .nth ordinal day => ordinal.text ++ day.token
  | .every day => day.token
  | _ =>
    match d.asPair? with
    | some (ordinal, day) => ordinal.text ++ day.token
    | none => d.token

/-- An item of a list part as a rule text writes it. -/
def itemText (part : ListPart) (d : Datum) : Text :=
  if part = .weekday then occurrenceText d else d.text

/-- The end of a rule as a rule text writes it. -/
def endText (form : EndForm) (d : Datum) : Text :=
  match d with
  | .moment t => t.utcText (form == .basic)
  | _ => d.text

/-- A key with its value. -/
def segment (part : Part) (value : Text) : Text := part.key ++ '=' :: value

/-- The segment of a list part, which empty parts do not have. -/
def listSegment (r : Rule) (part : ListPart) : List Text :=
  let items := r.values part
  if items.isEmpty then []
  else [segment (.list part) (Text.join [','] (items.map (itemText part)))]

/-- The segments of a rule in their fixed order, without those of parts that
hold their default. -/
def segments (form : EndForm) (r : Rule) : List Text :=
  [segment .frequency r.frequency.token] ++
  (if r.interval.same (.int 1) then [] else [segment .interval r.interval.text]) ++
  (if r.count = .none then [] else [segment .count r.count.text]) ++
  (if r.ends = .none then [] else [segment .ends (endText form r.ends)]) ++
  (if r.weekStart.token = Weekday.monday.code then []
    else [segment .weekStart r.weekStart.token]) ++
  ListPart.all.flatMap r.listSegment

/-- The canonical text of a rule. Values of a shape that no text has are written
as well as their plain text allows. -/
def print (form : EndForm) (r : Rule) : Text := Text.join [';'] (r.segments form)

/-- A weekday occurrence as exports give it: a code for every such day, and a
list of ordinal and code for one of them. Other values stay as they are. -/
def occurrenceExport (d : Datum) : Datum :=
  match d with
  | .nth ordinal day => .list [ordinal, .str day.token]
  | .every day => .str day.token
  | _ => d

/-- The value of a part as exports give it. -/
def partExport (r : Rule) : Part → Datum
  | .frequency =>
    match r.frequency with
    | .frequency f => .str f.label
    | d => d
  | .interval => r.interval
  | .count => r.count
  | .ends =>
    match r.ends with
    | .moment t => .str (t.utcText false)
    | d => d
  | .weekStart => .str r.weekStart.token
  | .list .weekday => .list (r.weekdays.map occurrenceExport)
  | .list part => .list (r.values part)

/-- The rule as a mapping of plain values, for exchange with other programs: the
frequency as its label, weekdays as codes, and the end as text. -/
def entries (r : Rule) : List (Text × Datum) :=
  Part.all.map fun part => (part.name.toList, r.partExport part)

end Rule

end Recurrence
