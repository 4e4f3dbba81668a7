import Mathlib.Data.List.DropRight
import Recurrence.Text.Basic

namespace Recurrence.Text

theorem trim_cons_of_isBlank {c : Char} (blank : isBlank c = true) (t : Text) :
    trim (c :: t) = trim t := by
  simp only [trim, trimStart, List.dropWhile_cons, blank, if_true]

theorem trimEnd_concat_of_isBlank {c : Char} (blank : isBlank c = true) (t : Text) :
    trimEnd (t ++ [c]) = trimEnd t := by
  simp only [trimEnd, List.reverse_append, List.reverse_singleton, List.singleton_append,
    List.dropWhile_cons, blank, if_true]

theorem trim_concat_of_isBlank {c : Char} (blank : isBlank c = true) (t : Text) :
    trim (t ++ [c]) = trim t := by
  induction t with
  | nil => rw [List.nil_append, trim_cons_of_isBlank blank]
  | cons d t ih =>
    cases first : isBlank d with
    | true => rw [List.cons_append, trim_cons_of_isBlank first, trim_cons_of_isBlank first, ih]
    | false =>
      simp only [trim, trimStart, List.cons_append, List.dropWhile_cons, first, Bool.false_eq_true,
        if_false]
      exact trimEnd_concat_of_isBlank blank (d :: t)

/-- There is nothing left to trim in a trimmed text. -/
theorem trim_trim (t : Text) : trim (trim t) = trim t := by
  have start : trimStart (trim t) = trim t := by
    refine List.dropWhile_eq_self_iff.mpr fun nonempty => ?_
    have front : trim t <+: trimStart t := List.rdropWhile_prefix isBlank (trimStart t)
    rw [front.getElem nonempty]
    exact List.dropWhile_eq_self_iff.mp (List.dropWhile_idempotent isBlank t) _
  rw [trim, start]
  exact List.rdropWhile_idempotent isBlank (trimStart t)

theorem trim_append_of_blank {front : Text} (blank : front.all isBlank = true) (t : Text) :
    trim (front ++ t) = trim t := by
  induction front with
  | nil => rfl
  | cons c front ih =>
    rw [List.all_cons, Bool.and_eq_true] at blank
    rw [List.cons_append, trim_cons_of_isBlank blank.1, ih blank.2]

theorem trim_append_blank {back : Text} (blank : back.all isBlank = true) (t : Text) :
    trim (t ++ back) = trim t := by
  induction back generalizing t with
  | nil => rw [List.append_nil]
  | cons c back ih =>
    rw [List.all_cons, Bool.and_eq_true] at blank
    rw [List.append_cons, ih blank.2, trim_concat_of_isBlank blank.1]

/-- Behind a visible text there is nothing to trim. -/
theorem trimEnd_append_of_visible {t : Text} (visible : ∀ c ∈ t, isBlank c = false)
    (nonempty : t ≠ []) (front : Text) : trimEnd (front ++ t) = front ++ t := by
  refine List.rdropWhile_eq_self_iff.mpr fun whole => ?_
  rw [List.getLast_append_of_ne_nil whole nonempty, visible _ (List.getLast_mem nonempty)]
  exact Bool.false_ne_true

theorem trimStart_append_of_visible {t : Text} (visible : ∀ c ∈ t, isBlank c = false)
    (nonempty : t ≠ []) (rest : Text) : trimStart (t ++ rest) = t ++ rest := by
  cases t with
  | nil => exact absurd rfl nonempty
  | cons c t =>
    rw [trimStart, List.cons_append, List.dropWhile_cons, visible c (List.mem_cons_self ..)]
    rfl

/-- Between visible texts nothing is trimmed. -/
theorem trim_between {first last back : Text} (visible : ∀ c ∈ first, isBlank c = false)
    (nonempty : first ≠ []) (lastVisible : ∀ c ∈ last, isBlank c = false)
    (lastNonempty : last ≠ []) (blank : back.all isBlank = true) (rest : Text) :
    trim (first ++ rest ++ last ++ back) = first ++ rest ++ last := by
  rw [trim_append_blank blank, trim, List.append_assoc,
    trimStart_append_of_visible visible nonempty, ← List.append_assoc,
    trimEnd_append_of_visible lastVisible lastNonempty]

/-- Trimming takes blanks off both ends and nothing else. -/
theorem exists_blanks_around (t : Text) : ∃ front back : Text,
    front.all isBlank = true ∧ back.all isBlank = true ∧ t = front ++ trim t ++ back := by
  have start : t = t.takeWhile isBlank ++ trimStart t := List.takeWhile_append_dropWhile.symm
  have finish : trimStart t = trim t ++ ((trimStart t).reverse.takeWhile isBlank).reverse := by
    have whole := @List.takeWhile_append_dropWhile _ isBlank (trimStart t).reverse
    have turned := congrArg List.reverse whole
    rw [List.reverse_append, List.reverse_reverse] at turned
    exact turned.symm
  refine ⟨t.takeWhile isBlank, ((trimStart t).reverse.takeWhile isBlank).reverse,
    List.all_takeWhile, ?_, ?_⟩
  · rw [List.all_reverse, List.all_takeWhile]
  · rw [List.append_assoc, ← finish]
    exact start

theorem length_trim_le (t : Text) : (trim t).length ≤ t.length := by
  obtain ⟨front, back, _, _, whole⟩ := exists_blanks_around t
  have length := congrArg List.length whole
  rw [List.length_append, List.length_append] at length
  omega

/-- A visible first character stays the first one. -/
theorem exists_trim_cons {c : Char} (shown : isBlank c = false) (t : Text) :
    ∃ rest, trim (c :: t) = c :: rest := by
  obtain ⟨front, back, blankFront, blankBack, whole⟩ := exists_blanks_around (c :: t)
  cases front with
  | cons d front =>
    rw [List.cons_append, List.cons_append, List.cons.injEq] at whole
    rw [List.all_cons, ← whole.1, shown] at blankFront
    cases blankFront
  | nil =>
    cases kept : trim (c :: t) with
    | nil =>
      rw [kept] at whole
      rw [← show c :: t = back from whole, List.all_cons, shown] at blankBack
      cases blankBack
    | cons d rest =>
      rw [kept, List.nil_append, List.cons_append, List.cons.injEq] at whole
      exact ⟨rest, by rw [whole.1]⟩

theorem trim_eq_nil_of_isBlankText {t : Text} (blank : isBlankText t = true) : trim t = [] := by
  have all := trim_append_of_blank blank []
  rw [List.append_nil] at all
  rw [all]
  rfl

theorem isBlankText_iff (t : Text) : isBlankText t = true ↔ trim t = [] := by
  refine ⟨trim_eq_nil_of_isBlankText, fun none => ?_⟩
  obtain ⟨front, back, blankFront, blankBack, whole⟩ := exists_blanks_around t
  rw [isBlankText, whole, none, List.append_nil, List.all_append, blankFront, blankBack]
  rfl

/-- A character goes to the front of the first piece. -/
theorem split_cons_of_ne {sep c : Char} (other : c ≠ sep) (t : Text) :
    ∃ piece pieces, split sep t = piece :: pieces ∧ split sep (c :: t) = (c :: piece) :: pieces := by
  cases found : split sep t with
  | nil => exact absurd found (split_ne_nil sep t)
  | cons piece pieces =>
    refine ⟨piece, pieces, rfl, ?_⟩
    rw [split, if_neg other, found]

/-- A character goes to the back of the last piece. -/
theorem split_concat_of_ne {sep c : Char} (other : c ≠ sep) (t : Text) :
    ∃ pieces piece, split sep t = pieces ++ [piece] ∧
      split sep (t ++ [c]) = pieces ++ [piece ++ [c]] := by
  induction t with
  | nil => exact ⟨[], [], rfl, by simp [split, other]⟩
  | cons d t ih =>
    obtain ⟨pieces, piece, before, after⟩ := ih
    by_cases same : d = sep
    · refine ⟨[] :: pieces, piece, ?_, ?_⟩
      · rw [split, if_pos same, before, List.cons_append]
      · rw [List.cons_append, split, if_pos same, after, List.cons_append]
    · cases pieces with
      | nil =>
        refine ⟨[], d :: piece, ?_, ?_⟩
        · rw [split, if_neg same, before]
          rfl
        · rw [List.cons_append, split, if_neg same, after]
          rfl
      | cons first pieces =>
        refine ⟨(d :: first) :: pieces, piece, ?_, ?_⟩
        · rw [split, if_neg same, before]
          rfl
        · rw [List.cons_append, split, if_neg same, after]
          rfl

theorem map_trim_split_append_of_blank {sep : Char} (visible : isBlank sep = false) {front : Text}
    (blank : front.all isBlank = true) (t : Text) :
    (split sep (front ++ t)).map trim = (split sep t).map trim := by
  induction front with
  | nil => rfl
  | cons c front ih =>
    rw [List.all_cons, Bool.and_eq_true] at blank
    have other : c ≠ sep := by
      rintro rfl
      rw [visible] at blank
      cases blank.1
    obtain ⟨piece, pieces, before, after⟩ := split_cons_of_ne other (front ++ t)
    have tail := ih blank.2
    rw [List.cons_append, after, List.map_cons, trim_cons_of_isBlank blank.1, ← List.map_cons,
      ← before, tail]

theorem map_trim_split_append_blank {sep : Char} (visible : isBlank sep = false) {back : Text}
    (blank : back.all isBlank = true) (t : Text) :
    (split sep (t ++ back)).map trim = (split sep t).map trim := by
  induction back generalizing t with
  | nil => rw [List.append_nil]
  | cons c back ih =>
    rw [List.all_cons, Bool.and_eq_true] at blank
    have other : c ≠ sep := by
      rintro rfl
      rw [visible] at blank
      cases blank.1
    obtain ⟨pieces, piece, before, after⟩ := split_concat_of_ne other t
    rw [List.append_cons, ih blank.2, after, before, List.map_append, List.map_append,
      List.map_singleton, List.map_singleton, trim_concat_of_isBlank blank.1]

/-- Blanks around a text are blanks around its first and its last piece. -/
theorem map_trim_split_trim {sep : Char} (visible : isBlank sep = false) (t : Text) :
    (split sep (trim t)).map trim = (split sep t).map trim := by
  obtain ⟨front, back, blankFront, blankBack, whole⟩ := exists_blanks_around t
  conv => rhs; rw [whole]
  rw [map_trim_split_append_blank visible blankBack,
    map_trim_split_append_of_blank visible blankFront]

theorem notMem_of_blank {sep : Char} (visible : isBlank sep = false) {t : Text}
    (blank : t.all isBlank = true) : sep ∉ t := by
  intro member
  rw [List.all_eq_true] at blank
  rw [blank sep member] at visible
  cases visible

theorem splitFirst?_append_left {sep : Char} {front : Text} (free : sep ∉ front) (t : Text) :
    splitFirst? sep (front ++ t) =
      (splitFirst? sep t).map fun found => (front ++ found.1, found.2) := by
  induction front with
  | nil => simp
  | cons c front ih =>
    rw [List.mem_cons, not_or] at free
    rw [List.cons_append, splitFirst?, if_neg (Ne.symm free.1), ih free.2, Option.map_map]
    rfl

theorem splitFirst?_append_right {sep : Char} {back : Text} (free : sep ∉ back) (t : Text) :
    splitFirst? sep (t ++ back) =
      (splitFirst? sep t).map fun found => (found.1, found.2 ++ back) := by
  induction t with
  | nil =>
    have none := splitFirst?_append_left free []
    rw [List.append_nil] at none
    rw [List.nil_append, none]
    rfl
  | cons c t ih =>
    rw [List.cons_append, splitFirst?, splitFirst?]
    split
    · rfl
    · rw [ih, Option.map_map, Option.map_map]
      rfl

/-- Texts that differ in the blanks around them are divided at the same place,
up to blanks. -/
theorem splitFirst?_of_trim_eq {sep : Char} (visible : isBlank sep = false) {s t before after : Text}
    (same : trim s = trim t) (found : splitFirst? sep t = some (before, after)) :
    ∃ front back, splitFirst? sep s = some (front, back) ∧ trim front = trim before ∧
      trim back = trim after := by
  obtain ⟨frontS, backS, blankFrontS, blankBackS, wholeS⟩ := exists_blanks_around s
  obtain ⟨frontT, backT, blankFrontT, blankBackT, wholeT⟩ := exists_blanks_around t
  rw [wholeT, splitFirst?_append_right (notMem_of_blank visible blankBackT),
    splitFirst?_append_left (notMem_of_blank visible blankFrontT), Option.map_map] at found
  obtain ⟨⟨first, rest⟩, core, parts⟩ := Option.map_eq_some_iff.mp found
  cases parts
  refine ⟨frontS ++ first, rest ++ backS, ?_, ?_, ?_⟩
  · rw [wholeS, splitFirst?_append_right (notMem_of_blank visible blankBackS),
      splitFirst?_append_left (notMem_of_blank visible blankFrontS), Option.map_map, same, core]
    rfl
  · rw [trim_append_of_blank blankFrontS, trim_append_of_blank blankFrontT]
  · rw [trim_append_blank blankBackS, trim_append_blank blankBackT]

end Recurrence.Text
