import Recurrence.Fault

namespace Recurrence

/-- A parameter of an operation: whether it may be given by its place, and what
stands for it when it is not given. -/
structure Parameter where
  name : Text
  byPlace : Bool := true
  fallback : Option Datum := none

namespace Parameter

/-- A parameter that has to be given. -/
def required (name : String) : Parameter := { name := name.toList }

/-- A parameter that may be left out. -/
def optional (name : String) (fallback : Datum) : Parameter :=
  { name := name.toList, fallback := some fallback }

/-- A parameter that can only be given by its name and may be left out. -/
def named (name : String) : Parameter :=
  { name := name.toList, byPlace := false, fallback := some .none }

/-- The values of the parameters that are given by their place, and the
parameters that are left. -/
def placed : List Parameter → List Datum → Except Fault (Entries × List Parameter)
  | parameters, [] => .ok ([], parameters)
  | [], _ :: _ => .error .wrongKind
  | parameter :: parameters, value :: values =>
    if parameter.byPlace then do
      let (entries, rest) ← placed parameters values
      return ((parameter.name, value) :: entries, rest)
    else .error .wrongKind

/-- The value of a parameter that is not given by its place. -/
def resolve (given : Entries) (parameter : Parameter) : Except Fault (Text × Datum) :=
  match given.lookup parameter.name, parameter.fallback with
  | some value, _ => .ok (parameter.name, value)
  | none, some value => .ok (parameter.name, value)
  | none, none => .error .wrongKind

/-- The value of every parameter, from values given by place and by name. Values
for names that no parameter has left are an error, and so is a missing value. -/
def bind (parameters : List Parameter) (values : List Datum) (given : Entries) :
    Except Fault Entries := do
  let (entries, rest) ← placed parameters values
  if given.any fun entry => rest.all fun parameter => parameter.name != entry.1 then
    throw .wrongKind
  let others ← rest.mapM (resolve given)
  return entries ++ others

end Parameter

/-- The value under a name, or nothing when the name is not there. -/
def Entries.get (entries : Entries) (name : String) : Datum :=
  (entries.lookup name.toList).getD .none

end Recurrence
