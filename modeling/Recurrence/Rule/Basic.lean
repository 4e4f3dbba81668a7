import Recurrence.Datum.Coercion
import Recurrence.Datum.Equality
import Recurrence.Part

namespace Recurrence

/-- A recurrence rule as its parts give it, before anything but its shape is
checked. The list parts are empty where they do not constrain, and a missing
count is told apart from a count of zero. An end that is a moment is kept in
UTC with whole milliseconds. -/
structure Rule where
  frequency : Datum
  interval : Datum
  count : Datum
  ends : Datum
  weekStart : Datum
  setPositions : List Datum
  months : List Datum
  monthDays : List Datum
  yearDays : List Datum
  weekNumbers : List Datum
  weekdays : List Datum
  hours : List Datum
  minutes : List Datum
  seconds : List Datum
  ends_normal : ∀ t, ends = .moment t → t.isNormal
  deriving DecidableEq

/-- The values offered for the parts of a rule, each of any shape. -/
abbrev Draft := Part → Datum

namespace Draft

/-- What the parts hold when nothing is offered for them. The frequency has no
default and is nothing here. -/
def default : Draft
  | .frequency => .none
  | .interval => .int 1
  | .count => .none
  | .ends => .none
  | .weekStart => .weekday .monday
  | .list _ => .tuple []

/-- The draft with another value for one part. -/
def set (draft : Draft) (part : Part) (value : Datum) : Draft :=
  fun other => if other = part then value else draft other

/-- The draft with the values of the named parts, the last one of equal names. -/
def setAll (draft : Draft) (values : List (Part × Datum)) : Draft :=
  values.foldl (fun d entry => d.set entry.1 entry.2) draft

/-- The parts meant by the names, or nothing when a name is no part's. -/
def partsOf? : List (Text × Datum) → Option (List (Part × Datum))
  | [] => some []
  | (name, value) :: rest => do
    let part ← Part.ofName? name
    let others ← partsOf? rest
    return (part, value) :: others

end Draft

namespace Rule

/-- The values of a list part. -/
def values (r : Rule) : ListPart → List Datum
  | .setPosition => r.setPositions
  | .month => r.months
  | .monthDay => r.monthDays
  | .yearDay => r.yearDays
  | .weekNumber => r.weekNumbers
  | .weekday => r.weekdays
  | .hour => r.hours
  | .minute => r.minutes
  | .second => r.seconds

/-- The values of all parts, from which the rule can be made again. -/
def draft (r : Rule) : Draft
  | .frequency => r.frequency
  | .interval => r.interval
  | .count => r.count
  | .ends => r.ends
  | .weekStart => r.weekStart
  | .list part => .tuple (r.values part)

/-- A missing end does not have to be in any form. -/
theorem none_normal (t : Timestamp) (same : Datum.none = .moment t) : t.isNormal := nomatch same

/-- The end that a rule keeps when the given value is offered for it. -/
def normalEnd (d : Datum) : Except Fault { e : Datum // ∀ t, e = .moment t → t.isNormal } :=
  match d with
  | .moment t =>
    match found : t.normalize? with
    | some u =>
      .ok ⟨.moment u, fun v same => by
        cases same
        exact Timestamp.normalize?_isNormal found⟩
    | none => .error .overflow
  | .none => .ok ⟨.none, none_normal⟩
  | .bool b => .ok ⟨.bool b, fun _ same => nomatch same⟩
  | .int n => .ok ⟨.int n, fun _ same => nomatch same⟩
  | .float x => .ok ⟨.float x, fun _ same => nomatch same⟩
  | .str t => .ok ⟨.str t, fun _ same => nomatch same⟩
  | .list items => .ok ⟨.list items, fun _ same => nomatch same⟩
  | .tuple items => .ok ⟨.tuple items, fun _ same => nomatch same⟩
  | .dict entries => .ok ⟨.dict entries, fun _ same => nomatch same⟩
  | .frequency f => .ok ⟨.frequency f, fun _ same => nomatch same⟩
  | .weekday w => .ok ⟨.weekday w, fun _ same => nomatch same⟩
  | .every day => .ok ⟨.every day, fun _ same => nomatch same⟩
  | .nth ordinal day => .ok ⟨.nth ordinal day, fun _ same => nomatch same⟩

/-- Makes a rule of the offered values. Only their shape is brought into order:
the list parts become lists and a moment for the end becomes UTC. -/
def ofDraft (d : Draft) : Except Fault Rule := do
  let setPositions ← (d (.list .setPosition)).toItems
  let months ← (d (.list .month)).toItems
  let monthDays ← (d (.list .monthDay)).toItems
  let yearDays ← (d (.list .yearDay)).toItems
  let weekNumbers ← (d (.list .weekNumber)).toItems
  let weekdays ← (d (.list .weekday)).toItems
  let hours ← (d (.list .hour)).toItems
  let minutes ← (d (.list .minute)).toItems
  let seconds ← (d (.list .second)).toItems
  let ⟨ends, normal⟩ ← normalEnd (d .ends)
  return {
    frequency := d .frequency
    interval := d .interval
    count := d .count
    ends := ends
    weekStart := d .weekStart
    setPositions, months, monthDays, yearDays, weekNumbers, weekdays, hours, minutes, seconds
    ends_normal := normal }

/-- Makes a rule of named values. The frequency must be among them, and every
name must be a part's. -/
def ofNamed (named : List (Text × Datum)) : Except Fault Rule :=
  match Draft.partsOf? named with
  | none => .error .wrongKind
  | some values =>
    if values.any fun entry => entry.1 = .frequency then
      ofDraft (Draft.default.setAll values)
    else .error .wrongKind

/-- The rule with other values for the named parts. -/
def replace (r : Rule) (named : List (Text × Datum)) : Except Fault Rule :=
  match Draft.partsOf? named with
  | none => .error .wrongKind
  | some values => ofDraft (r.draft.setAll values)

/-- Makes a rule of a frequency and named options, with weekdays and the
frequency recognized by name at once. All names are checked first; then the
start of the week, the weekday occurrences and the frequency are read. -/
def build (frequency : Datum) (options : List (Text × Datum)) : Except Fault Rule := do
  if options.any fun option => option.1 = Part.frequency.name.toList then
    throw .wrongKind
  let unknown := (options.map Prod.fst).filter fun name => (Part.ofName? name).isNone
  if !unknown.isEmpty then
    throw (.unknownOptions (Text.inOrder unknown))
  let values := (Draft.partsOf? options).getD []
  let given := Draft.default.setAll values
  let named (part : Part) : Bool := values.any fun entry => entry.1 = part
  let weekStart ←
    if named .weekStart then
      (given .weekStart).toWeekday.map Datum.weekday
    else pure (given .weekStart)
  let weekdays ←
    if named (.list .weekday) then do
      let offered := given (.list .weekday)
      let items ← if offered.truthy then offered.toItems else pure []
      pure (.tuple (← items.mapM Datum.toOccurrence))
    else pure (given (.list .weekday))
  let f ← frequency.toFrequency
  ofDraft (given.setAll
    [(.weekStart, weekStart), (.list .weekday, weekdays), (.frequency, .frequency f)])

/-- Whether the rule ends by itself, by a count or by a last moment. -/
def isBounded (r : Rule) : Bool := r.count != .none || r.ends != .none

/-- Equality of rules as callers see it, part by part. -/
def same (r s : Rule) : Bool :=
  r.frequency.same s.frequency && r.interval.same s.interval && r.count.same s.count &&
    r.ends.same s.ends && r.weekStart.same s.weekStart &&
    ListPart.all.all fun part => Datum.sameItems (r.values part) (s.values part)

/-- Whether the rule may be collected in a set. -/
def collectable (r : Rule) : Bool :=
  r.frequency.collectable && r.interval.collectable && r.count.collectable &&
    r.ends.collectable && r.weekStart.collectable &&
    ListPart.all.all fun part => Datum.allCollectable (r.values part)

theorem normalEnd_of_normal (d : Datum) (normal : ∀ t, d = .moment t → t.isNormal) :
    normalEnd d = .ok ⟨d, normal⟩ := by
  cases d with
  | moment t =>
    have kept := Timestamp.normalize?_of_isNormal (normal t rfl)
    simp only [normalEnd]
    split
    · rename_i u found
      obtain rfl : t = u := by simpa [kept] using found
      rfl
    · rename_i missing
      simp [kept] at missing
  | _ => rfl

/-- Making a rule of its own parts gives the rule again. -/
theorem ofDraft_draft (r : Rule) : ofDraft r.draft = .ok r := by
  simp only [ofDraft, draft, Datum.toItems_tuple, normalEnd_of_normal r.ends r.ends_normal]
  rfl

end Rule

end Recurrence
