import Mathlib.Data.List.Forall2
import Recurrence.Proofs.Text.Tokens
import Recurrence.Proofs.Text.Trimming

namespace Recurrence.Text

/-- Whether a text is a core with blanks around it. The core itself neither begins nor ends with
a blank. -/
structure Trims (t core : Text) : Prop where
  around : ∃ front back : Text, front.all isBlank = true ∧ back.all isBlank = true ∧
    t = front ++ core ++ back
  first : ∀ c ∈ core.head?, isBlank c = false
  last : ∀ c ∈ core.getLast?, isBlank c = false

/-- Whether a text consists of pieces with a separator between neighbours and none in a piece. -/
structure Divides (sep : Char) (t : Text) (pieces : List Text) : Prop where
  nonempty : pieces ≠ []
  joined : [sep].intercalate pieces = t
  free : ∀ piece ∈ pieces, sep ∉ piece

/-- Whether a text consists of items between commas, with any blanks around them. -/
def Itemizes (t : Text) (items : List Text) : Prop :=
  ∃ pieces, Divides ',' t pieces ∧ List.Forall₂ Trims pieces items

variable {t core : Text}

theorem trim_of_ends (first : ∀ c ∈ t.head?, isBlank c = false)
    (last : ∀ c ∈ t.getLast?, isBlank c = false) : trim t = t := by
  obtain ⟨front, back, blankFront, blankBack, whole⟩ := exists_blanks_around t
  have noFront : front = [] := by
    cases front with
    | nil => rfl
    | cons c front =>
      rw [List.all_cons, first c (by rw [whole]; rfl)] at blankFront
      cases blankFront
  have noBack : back = [] := by
    rcases List.eq_nil_or_concat' back with empty | ⟨rest, c, same⟩
    · exact empty
    · have atEnd : t.getLast? = some c := by
        rw [whole, same, ← List.append_assoc, List.getLast?_concat]
      rw [same, List.all_append, List.all_cons, last c atEnd, Bool.false_and, Bool.and_false]
        at blankBack
      cases blankBack
  rw [noFront, noBack, List.nil_append, List.append_nil] at whole
  exact whole.symm

theorem first_trim {c : Char} (first : c ∈ (trim t).head?) : isBlank c = false := by
  by_contra shown
  obtain ⟨rest, begins⟩ := List.head?_eq_some_iff.mp first
  have again := trim_trim t
  rw [begins, trim_cons_of_isBlank (Bool.of_not_eq_false shown)] at again
  have length := length_trim_le rest
  rw [again, List.length_cons] at length
  omega

theorem last_trim {c : Char} (last : c ∈ (trim t).getLast?) : isBlank c = false := by
  by_contra shown
  obtain ⟨front, ends⟩ := List.getLast?_eq_some_iff.mp last
  have again := trim_trim t
  rw [ends, trim_concat_of_isBlank (Bool.of_not_eq_false shown)] at again
  have length := length_trim_le front
  rw [again, List.length_append, List.length_singleton] at length
  omega

/-- Trimming finds the core of a text, of which there is one only. -/
theorem trims_iff : Trims t core ↔ trim t = core := by
  constructor
  · rintro ⟨⟨front, back, blankFront, blankBack, rfl⟩, first, last⟩
    rw [trim_append_blank blankBack, trim_append_of_blank blankFront, trim_of_ends first last]
  · rintro rfl
    exact ⟨exists_blanks_around t, fun _ => first_trim, fun _ => last_trim⟩

theorem join_eq_intercalate (sep : Text) (pieces : List Text) :
    join sep pieces = sep.intercalate pieces := by
  induction pieces with
  | nil => rfl
  | cons piece pieces ih =>
    cases pieces with
    | nil => simp [join]
    | cons next others =>
      rw [join, ih, List.intercalate_cons_cons]
      exact List.cons_ne_nil _ _

theorem notMem_of_mem_split {sep : Char} {piece : Text} (member : piece ∈ split sep t) :
    sep ∉ piece := by
  induction t generalizing piece with
  | nil =>
    rw [List.mem_singleton.mp member]
    exact List.not_mem_nil
  | cons c t ih =>
    by_cases same : c = sep
    · rw [split, if_pos same] at member
      rcases List.mem_cons.mp member with rfl | later
      · exact List.not_mem_nil
      · exact ih later
    · obtain ⟨first, pieces, before, after⟩ := split_cons_of_ne same t
      rw [before] at ih
      rw [after] at member
      rcases List.mem_cons.mp member with rfl | later
      · rw [List.mem_cons, not_or]
        exact ⟨Ne.symm same, ih (List.mem_cons_self ..)⟩
      · exact ih (List.mem_cons_of_mem _ later)

/-- Splitting finds the pieces of a text, of which there is one list only. -/
theorem divides_iff {sep : Char} {pieces : List Text} :
    Divides sep t pieces ↔ split sep t = pieces := by
  constructor
  · rintro ⟨nonempty, rfl, free⟩
    rw [← join_eq_intercalate, split_join nonempty free]
  · rintro rfl
    refine ⟨split_ne_nil sep t, ?_, fun _ => notMem_of_mem_split⟩
    rw [← join_eq_intercalate, join_split]

theorem itemizes_iff {items : List Text} : Itemizes t items ↔ (split ',' t).map trim = items := by
  have trimmed (pieces : List Text) :
      List.Forall₂ Trims pieces items ↔ pieces.map trim = items := by
    rw [← List.forall₂_eq_eq_eq, List.forall₂_map_left_iff]
    constructor
    · exact fun each => each.imp fun _ _ => trims_iff.mp
    · exact fun each => each.imp fun _ _ => trims_iff.mpr
  constructor
  · rintro ⟨pieces, divided, each⟩
    rw [divides_iff.mp divided, ← trimmed]
    exact each
  · exact fun same => ⟨_, divides_iff.mpr rfl, (trimmed _).mpr same⟩

end Recurrence.Text
