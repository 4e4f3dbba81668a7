import Recurrence.Proofs.Text.Layout
import Recurrence.Proofs.Text.LookAlikes
import Recurrence.Rule.Reader

namespace Recurrence.Rule

/-- What a rule text has for its body. The blanks around the text do not belong to it, and
neither does a property name in front, in any case of its letters, where the limits admit one. -/
inductive HasBody (limits : Limits) (text : Text) : Text → Prop
  | marked {name body : Text} : limits.acceptMark = true →
      Text.SameLetters "RRULE:".toList name → Text.Trims text (name ++ body) →
      HasBody limits text body
  | plain {body : Text} : Text.Trims text body →
      (limits.acceptMark = true → ∀ name rest, body = name ++ rest →
        ¬Text.SameLetters "RRULE:".toList name) → HasBody limits text body

/-- The segments that count: those in which there is more than blanks. -/
def filled (segments : List Text) : List Text :=
  segments.filter fun segment => segment.any fun c => !Text.isBlank c

/-- What a rule text has for its segments: what counts of the pieces of its body between
semicolons. -/
def HasSegments (limits : Limits) (text : Text) (segments : List Text) : Prop :=
  ∃ body pieces, HasBody limits text body ∧ Text.Divides ';' body pieces ∧ filled pieces = segments

/-- The segments of a text as the reader finds them. -/
def textSegments (limits : Limits) (text : Text) : List Text :=
  filled (Text.split ';' (body limits text))

variable {limits : Limits} {text : Text}

/-- The property name is in ASCII, since neither of its letters has a look-alike. -/
theorem isAscii_of_upper_eq_mark {name : Text} (capitals : Text.upper name = mark) :
    Text.IsAscii name := by
  have apart : ∀ entry ∈ Text.lookAlikes, ¬Text.upperChar entry.1 <:+: mark := by decide +kernel
  have isWord : Text.isWord mark = true := rfl
  intro c member
  refine (Text.looksAscii_of_upper (capitals ▸ isWord) c member).resolve_right fun look => ?_
  obtain ⟨entry, among, same⟩ := List.any_eq_true.mp look
  have inside := Text.upperChar_infix_upper member
  rw [capitals, ← beq_iff_eq.mp same] at inside
  exact apart entry among inside

/-- Only ASCII letters are capitalized to the property name. -/
theorem upper_eq_mark_iff {name : Text} : Text.upper name = mark ↔ Text.SameLetters mark name := by
  constructor
  · intro capitals
    rw [Text.SameLetters, ← Text.upper_of_isAscii (isAscii_of_upper_eq_mark capitals), capitals]
    rfl
  · exact fun same => same.upper_eq.symm

theorem upper_take_eq_mark_iff {t : Text} : Text.upper (t.take mark.length) = mark ↔
    ∃ name rest, t = name ++ rest ∧ Text.SameLetters mark name := by
  rw [upper_eq_mark_iff]
  constructor
  · exact fun same => ⟨_, _, (List.take_append_drop _ t).symm, same⟩
  · rintro ⟨name, rest, rfl, same⟩
    rwa [same.length_eq, List.take_left]

/-- The reader finds the body of a text, of which there is one only. -/
theorem hasBody_iff {found : Text} : HasBody limits text found ↔ body limits text = found := by
  constructor
  · intro has
    unfold body
    dsimp only
    cases has with
    | @marked name _ accept same trims =>
      have length : mark.length = name.length := same.length_eq
      rw [Text.trims_iff.mp trims, length, List.take_left, List.drop_left,
        if_pos ⟨accept, upper_eq_mark_iff.mpr same⟩]
    | plain trims unmarked =>
      rw [Text.trims_iff.mp trims, if_neg]
      rintro ⟨accept, marked⟩
      obtain ⟨name, rest, whole, same⟩ := upper_take_eq_mark_iff.mp marked
      exact unmarked accept name rest whole same
  · rintro rfl
    unfold body
    dsimp only
    have trims := Text.trims_iff.mpr (rfl : Text.trim text = Text.trim text)
    split
    · rename_i both
      refine .marked both.1 (upper_eq_mark_iff.mp both.2) ?_
      rwa [List.take_append_drop]
    · rename_i unmarked
      refine .plain trims fun accept name rest whole same => unmarked ⟨accept, ?_⟩
      exact upper_take_eq_mark_iff.mpr ⟨name, rest, whole, same⟩

theorem hasSegments_iff {segments : List Text} :
    HasSegments limits text segments ↔ textSegments limits text = segments := by
  constructor
  · rintro ⟨_, _, has, divided, rfl⟩
    rw [textSegments, hasBody_iff.mp has, Text.divides_iff.mp divided]
  · exact fun same => ⟨_, _, hasBody_iff.mpr rfl, Text.divides_iff.mpr rfl, same⟩

theorem any_shown_eq (segment : Text) :
    (segment.any fun c => !Text.isBlank c) = !Text.isBlankText segment := by
  rw [Text.isBlankText, List.not_all_eq_any_not]

theorem filled_cons_of_blank {segment : Text} (blank : Text.isBlankText segment = true)
    (rest : List Text) : filled (segment :: rest) = filled rest :=
  List.filter_cons_of_neg (by rw [any_shown_eq, blank]; decide)

theorem filled_cons_of_shown {segment : Text} (shown : Text.isBlankText segment = false)
    (rest : List Text) : filled (segment :: rest) = segment :: filled rest :=
  List.filter_cons_of_pos (by rw [any_shown_eq, shown]; rfl)

end Recurrence.Rule
