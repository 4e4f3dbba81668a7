import Recurrence.Rule.Basic

namespace Recurrence.Rule

/-- A rule under change, with all the rules it has been. -/
structure History where
  current : Rule
  /-- The rules it has been, the first one first. -/
  seen : List Rule

namespace History

/-- A rule that has not changed yet. -/
def start (r : Rule) : History := ⟨r, [r]⟩

/-- Goes on to another rule, which is remembered. -/
def push (h : History) (r : Rule) : History := ⟨r, h.seen ++ [r]⟩

/-- The remembered rule at a place, counted from the end when it is negative. -/
def at? (h : History) (place : Int) : Option Rule :=
  if 0 ≤ place then h.seen[place.toNat]?
  else if (h.seen.length : Int) + place < 0 then none
  else h.seen[((h.seen.length : Int) + place).toNat]?

/-- Goes back to a remembered rule. -/
def restore (h : History) (place : Int) : Except Fault History :=
  match h.at? place with
  | some r => .ok { h with current := r }
  | none => .error .outOfBounds

/-- Goes on to the rule with other values for the named parts. -/
def replace (h : History) (changes : Entries) : Except Fault History := do
  return h.push (← h.current.replace changes)

/-- One rule of every sort among the given ones. -/
def sorts : List Rule → List Rule
  | [] => []
  | r :: rs =>
    let others := sorts rs
    if others.any fun s => r.same s then others else r :: others

/-- Whether the current rule equals a remembered one, and how many different
rules are remembered. There is no answer when a rule cannot be collected. -/
def compare (h : History) (place : Int) : Except Fault (Bool × Nat) :=
  match h.at? place with
  | none => .error .outOfBounds
  | some r =>
    if h.seen.all Rule.collectable then .ok (h.current.same r, (sorts h.seen).length)
    else .error .wrongKind

end History

end Recurrence.Rule
