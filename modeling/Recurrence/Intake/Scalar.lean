import Recurrence.Datum
import Recurrence.Intake.Complaint

namespace Recurrence.Intake

/-- The white space that may surround a written number. Unlike other blanks it
has no control characters from U+001C to U+001F. -/
def isMargin (c : Char) : Bool :=
  Text.isBlank c && !(0x1C ≤ c.toNat && c.toNat ≤ 0x1F)

/-- A text without the margin at both ends. -/
def trimMargin (t : Text) : Text :=
  ((t.dropWhile isMargin).reverse.dropWhile isMargin).reverse

/-- Digits with single underscores between them, and what follows them. -/
def takeDigits : Text → Text × Text
  | c :: '_' :: d :: rest =>
    if Text.isDigit c && Text.isDigit d then
      let (digits, after) := takeDigits (d :: rest)
      (c :: digits, after)
    else if Text.isDigit c then ([c], '_' :: d :: rest)
    else ([], c :: '_' :: d :: rest)
  | c :: rest =>
    if Text.isDigit c then
      let (digits, after) := takeDigits rest
      (c :: digits, after)
    else ([], c :: rest)
  | [] => ([], [])

/-- Reads an integer: digits after an optional sign, with an optional point
after which there are only zeros. -/
def readInt? (t : Text) : Option Int :=
  let (negative, unsigned) := match t with
    | '-' :: rest => (true, rest)
    | '+' :: rest => (false, rest)
    | rest => (false, rest)
  let (digits, after) := takeDigits unsigned
  let whole := match after with
    | [] => true
    | '.' :: zeros => zeros.all fun c => c = '0'
    | _ => false
  if digits.isEmpty || !whole then none
  else some (if negative then -(Text.natValue digits : Int) else Text.natValue digits)

/-- The most characters that a written integer may have. -/
def mostIntCharacters : Nat := 4300

/-- Whether a number from a float fits the integers that floats are taken for. -/
def fitsWord (n : Int) : Bool := -9223372036854775808 < n && n < 9223372036854775808

/-- Takes in an integer: an integer, a truth value, a float without a fraction,
or a text that writes one. -/
def int (d : Datum) : Intake Int :=
  match d with
  | .int n => .ok n
  | .bool b => .ok (if b then 1 else 0)
  | .float x =>
    match x with
    | .finite .. =>
      match x.whole? with
      | some n => if fitsWord n then .ok n else refuse .intParsingSize
      | none => refuse .intFromFloat
    | _ => refuse .finiteNumber
  | _ =>
    match d.asText? with
    | some t =>
      let trimmed := trimMargin t
      if trimmed.length > mostIntCharacters then refuse .intParsingSize
      else
        match readInt? trimmed with
        | some n => .ok n
        | none => refuse .intParsing
    | none => refuse .intType

/-- Takes in an integer of a range. -/
def intIn (low : Int) (high : Option Int) (d : Datum) : Intake Int :=
  (int d).andThen fun n =>
    if n < low then refuse .greaterThanEqual
    else
      match high with
      | some most => if most < n then refuse .lessThanEqual else .ok n
      | none => .ok n

/-- The words for the two truth values, in small letters. -/
def falseWords : List Text := ["0", "off", "f", "false", "n", "no"].map String.toList
def trueWords : List Text := ["1", "on", "t", "true", "y", "yes"].map String.toList

/-- Takes in a truth value: one itself, the numbers zero and one, or a word for
it in any case. -/
def bool (d : Datum) : Intake Bool :=
  match d with
  | .bool b => .ok b
  | .int 0 => .ok false
  | .int 1 => .ok true
  | .int _ => refuse .boolParsing
  | .float x =>
    if x.compareInt? 0 = some .eq then .ok false
    else if x.compareInt? 1 = some .eq then .ok true
    else refuse .boolType
  | _ =>
    match d.asText? with
    | some t =>
      let word := t.map Char.toLower
      if falseWords.contains word then .ok false
      else if trueWords.contains word then .ok true
      else refuse .boolParsing
    | none => refuse .boolType

/-- Takes in a text. -/
def text (d : Datum) : Intake Text :=
  match d.asText? with
  | some t => .ok t
  | none => refuse .stringType

/-- Takes in a text of at most so many characters. -/
def textUpTo (most : Nat) (d : Datum) : Intake Text :=
  (text d).andThen fun t => if most < t.length then refuse .stringTooLong else .ok t

/-- Takes in one of some words, which must be written exactly so. -/
def word {α : Type} (words : List (String × α)) (d : Datum) : Intake α :=
  match d with
  | .str t =>
    match words.find? fun entry => entry.1.toList = t with
    | some entry => .ok entry.2
    | none => refuse .literalError
  | _ => refuse .literalError

/-- Takes in nothing as nothing, and otherwise a value. -/
def optional {α : Type} (take : Datum → Intake α) (d : Datum) : Intake (Option α) :=
  match d with
  | .none => .ok none
  | _ => (take d).map some

/-- Takes in every item of a list or a tuple. -/
def list {α : Type} (take : Datum → Intake α) (d : Datum) : Intake (List α) :=
  match d with
  | .list items | .tuple items =>
    all (items.zipIdx.map fun (item, index) => within (Text.ofNat index) (take item))
  | _ => refuse .listType

end Recurrence.Intake
