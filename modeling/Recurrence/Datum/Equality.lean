import Recurrence.Datum

namespace Recurrence.Datum

/-- The integer or fractional number that a value is, truth values being zero
and one. -/
def asNumber? : Datum → Option (Int ⊕ Decimal)
  | .int n => some (.inl n)
  | .bool b => some (.inl (if b then 1 else 0))
  | .float d => some (.inr d)
  | _ => Option.none

/-- Equality of the numbers meant, over both kinds of numbers. -/
def sameNumber : Int ⊕ Decimal → Int ⊕ Decimal → Bool
  | .inl a, .inl b => a == b
  | .inl a, .inr b => b.compareInt? a == some .eq
  | .inr a, .inl b => a.compareInt? b == some .eq
  | .inr a, .inr b => a.same b

/-- Equality of the moments meant; a clock with a known distance from UTC never
equals one without. -/
def sameMoment (a b : Timestamp) : Bool := a.isAware == b.isAware && a.instant == b.instant

mutual

/-- Equality as callers see it: numbers by their value whatever their kind,
frequencies and weekdays as the texts that name them, moments by the instant,
lists and tuples item by item but never one with the other. -/
def same : Datum → Datum → Bool
  | .list a, .list b => sameItems a b
  | .tuple a, .tuple b => sameItems a b
  | .dict a, .dict b => a.length == b.length && entriesWithin a b
  | .every a, .every b => same a b
  | .nth n a, .nth m b => same n m && same a b
  | .moment a, .moment b => sameMoment a b
  | .none, .none => true
  | a, b =>
    match a.asNumber?, b.asNumber? with
    | some m, some n => sameNumber m n
    | _, _ =>
      match a.asText?, b.asText? with
      | some s, some t => s == t
      | _, _ => false

/-- Item by item equality of two lists. -/
def sameItems : List Datum → List Datum → Bool
  | [], [] => true
  | a :: as, b :: bs => same a b && sameItems as bs
  | _, _ => false

/-- Whether every entry of the first mapping is in the second with an equal value. -/
def entriesWithin : List (Text × Datum) → List (Text × Datum) → Bool
  | [], _ => true
  | (key, a) :: rest, entries =>
    (match entries.lookup key with
      | some b => same a b
      | Option.none => false) && entriesWithin rest entries

end

mutual

/-- Whether a value may be collected in a set. Lists and mappings may not, nor
may anything that holds one. -/
def collectable : Datum → Bool
  | .list _ => false
  | .dict _ => false
  | .tuple items => allCollectable items
  | .every day => collectable day
  | .nth ordinal day => collectable ordinal && collectable day
  | _ => true

/-- Whether all of the values may be collected in a set. -/
def allCollectable : List Datum → Bool
  | [] => true
  | item :: items => collectable item && allCollectable items

end

/-- How a number lies to an integer. There is no answer for values that are not
numbers; a number that compares with nothing gives `some none`. -/
def compareInt? (d : Datum) (n : Int) : Option (Option Ordering) :=
  match d.asNumber? with
  | some (.inl m) => some (some (compare m n))
  | some (.inr x) => some (x.compareInt? n)
  | Option.none => Option.none

end Recurrence.Datum
