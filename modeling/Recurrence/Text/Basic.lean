namespace Recurrence

/-- A text is the list of its characters, so its length counts code points. -/
abbrev Text := List Char

namespace Text

/-- The white space that may surround a rule, a key, a value or a list item:
the Unicode space separators, the line and paragraph separators, and the
control characters from tab to carriage return and from U+001C to U+001F. -/
def isBlank (c : Char) : Bool :=
  let n := c.toNat
  (0x9 ≤ n && n ≤ 0xD) || (0x1C ≤ n && n ≤ 0x20) || n == 0x85 || n == 0xA0 || n == 0x1680 ||
    (0x2000 ≤ n && n ≤ 0x200A) || n == 0x2028 || n == 0x2029 || n == 0x202F || n == 0x205F ||
    n == 0x3000

/-- Drops the blanks at the front. -/
def trimStart (t : Text) : Text := t.dropWhile isBlank

/-- Drops the blanks at the back. -/
def trimEnd (t : Text) : Text := (t.reverse.dropWhile isBlank).reverse

/-- Drops the blanks at both ends and keeps those inside. -/
def trim (t : Text) : Text := trimEnd (trimStart t)

/-- A text of blanks only, the empty one included. -/
def isBlankText (t : Text) : Bool := t.all isBlank

/-- The pieces between the separators. There is always one piece more than
there are separators, so the empty text has one empty piece. -/
def split (sep : Char) : Text → List Text
  | [] => [[]]
  | c :: rest =>
    if c = sep then [] :: split sep rest
    else
      match split sep rest with
      | [] => [[c]]
      | piece :: pieces => (c :: piece) :: pieces

/-- The text before the first separator and the text after it, or nothing
when there is no separator. -/
def splitFirst? (sep : Char) : Text → Option (Text × Text)
  | [] => none
  | c :: rest =>
    if c = sep then some ([], rest)
    else (splitFirst? sep rest).map fun (before, after) => (c :: before, after)

/-- Writes the pieces one after the other with the separator between them. -/
def join (sep : Text) : List Text → Text
  | [] => []
  | [piece] => piece
  | piece :: pieces => piece ++ sep ++ join sep pieces

theorem split_ne_nil (sep : Char) (t : Text) : split sep t ≠ [] := by
  cases t with
  | nil => simp [split]
  | cons c rest =>
    simp only [split]
    split
    · simp
    · split <;> simp

/-- Joining the pieces with the separator restores the text. -/
theorem join_split (sep : Char) (t : Text) : join [sep] (split sep t) = t := by
  induction t with
  | nil => rfl
  | cons c rest ih =>
    have nonempty := split_ne_nil sep rest
    match pieces : split sep rest with
    | [] => exact absurd pieces nonempty
    | [piece] =>
      rw [pieces] at ih
      simp only [join] at ih
      by_cases same : c = sep
      · simp [split, same, pieces, join, ih]
      · simp [split, same, pieces, join, ih]
    | piece :: next :: others =>
      rw [pieces] at ih
      simp only [join] at ih
      by_cases same : c = sep
      · simp only [split, same, if_true, pieces, join, List.nil_append, ih]
        rfl
      · simp only [split, same, if_false, pieces, join, List.cons_append]
        rw [List.append_assoc] at ih ⊢
        simp only [List.cons.injEq, true_and]
        exact ih

/-- Whether a text comes before another in the order of code points, or is the same. -/
def atMost : Text → Text → Bool
  | [], _ => true
  | _ :: _, [] => false
  | c :: s, d :: t => if c = d then atMost s t else decide (c.toNat < d.toNat)

/-- The texts in the order of code points. -/
def inOrder (texts : List Text) : List Text := texts.mergeSort atMost

end Text

end Recurrence
