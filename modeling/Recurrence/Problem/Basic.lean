import Recurrence.Datum

namespace Recurrence

/-- A diagnostic in the form in which callers receive it. -/
structure Problem where
  /-- The names of its kind, the most special first. -/
  kinds : List String
  detail : Datum
  type : Datum
  title : Datum
  /-- What the diagnostic is about, for machines. -/
  extra : Entries
  /-- Further members of its kind. -/
  members : Entries

namespace Problem

/-- The name of the kind. -/
def kind (p : Problem) : String := p.kinds.headD ""

/-- The diagnostic as a mapping, where what it is about may replace the rest. -/
def entries (p : Problem) : Entries :=
  Entries.overlay
    [("type".toList, p.type), ("title".toList, p.title), ("detail".toList, p.detail)] p.extra

/-- A value, unless it counts as false. -/
def orElse (value fallback : Datum) : Datum := if value.truthy then value else fallback

/-- The entries that have a value. -/
def present (entries : Entries) : Entries := entries.filter fun entry => entry.2 != .none

/-- The kind of all problems. -/
def root : String := "RRuleError"

/-- A problem of no special kind. -/
def general (detail type title : Datum) (extra : Entries) : Problem where
  kinds := [root]
  detail := detail
  type := orElse type (.ofString "rrule-error")
  title := orElse title (.ofString "Recurrence Rule Error")
  extra := extra
  members := []

/-- A problem with the text of a rule: the key it concerns and the piece of text
that is wrong. -/
def ofText (kinds : List String) (detail type key token : Datum) (extra : Entries) : Problem :=
  let about := [("key".toList, key), ("token".toList, token)]
  { kinds := kinds ++ ["ParseError", root]
    detail := detail
    type := orElse type (.ofString "parse-error")
    title := .ofString "Parse Error"
    extra := Entries.overlay (present about) extra
    members := about }

/-- A problem with the values of a rule: the part it concerns and the value that
is wrong. -/
def ofValue (kinds : List String) (detail type field value : Datum) (extra : Entries) :
    Problem :=
  let about := [("field".toList, field), ("value".toList, value)]
  { kinds := kinds ++ ["ValidationError", root]
    detail := detail
    type := orElse type (.ofString "validation-error")
    title := .ofString "Validation Error"
    extra := Entries.overlay (present about) extra
    members := about }

/-- The problem with further members. -/
def withMembers (p : Problem) (members : Entries) : Problem :=
  { p with members := p.members ++ members }

end Problem

end Recurrence
