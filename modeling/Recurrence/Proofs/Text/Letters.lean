import Recurrence.Proofs.Text.Capitals

namespace Recurrence.Text

/-- The capital of an ASCII letter. All other characters stay. -/
def foldLetter (c : Char) : Char :=
  if 97 ≤ c.toNat ∧ c.toNat ≤ 122 then Char.ofNat (c.toNat - 32) else c

/-- Whether two texts differ in the case of ASCII letters alone. -/
def SameLetters (s t : Text) : Prop := s.map foldLetter = t.map foldLetter

theorem upperChar_foldLetter (c : Char) : upperChar (foldLetter c) = upperChar c := by
  -- the letters by their numbers; the other characters are not folded
  have letters : ∀ n < 123, 97 ≤ n →
      upperChar (foldLetter (Char.ofNat n)) = upperChar (Char.ofNat n) := by decide +kernel
  by_cases small : 97 ≤ c.toNat ∧ c.toNat ≤ 122
  · have same := letters c.toNat (by omega) small.1
    rwa [Char.ofNat_toNat] at same
  · rw [foldLetter, if_neg small]

/-- The capitals of a text do not tell the case of its letters. -/
theorem SameLetters.upper_eq {s t : Text} (same : SameLetters s t) : upper s = upper t := by
  have folded (t : Text) : upper (t.map foldLetter) = upper t := by
    unfold upper
    rw [List.flatMap_map]
    exact List.flatMap_congr fun c _ => upperChar_foldLetter c
  rw [← folded s, show s.map foldLetter = t.map foldLetter from same, folded t]

theorem SameLetters.length_eq {s t : Text} (same : SameLetters s t) : s.length = t.length := by
  have length := congrArg List.length (show s.map foldLetter = t.map foldLetter from same)
  rwa [List.length_map, List.length_map] at length

theorem upperChar_ne_nil (c : Char) : upperChar c ≠ [] := by
  have table : (expandingLetters.all fun entry => !entry.2.isEmpty) = true := by decide +kernel
  obtain ⟨_, ⟨_, _, capital⟩ | kept⟩ | ⟨entry, member, _, capitals⟩ | ⟨_, _, _, capital⟩ | kept :=
    upperChar_cases c
  · exact capital ▸ List.cons_ne_nil _ _
  · exact kept ▸ List.cons_ne_nil _ _
  · intro empty
    rw [capitals, List.map_eq_nil_iff] at empty
    have checked := List.all_eq_true.mp table entry member
    rw [empty] at checked
    cases checked
  · exact capital ▸ List.cons_ne_nil _ _
  · exact kept ▸ List.cons_ne_nil _ _

/-- A text whose capitals are tokens has no blanks. -/
theorem shown_of_upper {t : Text} (tokens : (upper t).all isToken = true) {c : Char}
    (member : c ∈ t) : isBlank c = false := by
  by_contra shown
  have blank := Bool.of_not_eq_false shown
  have capital : c ∈ upper t :=
    List.mem_flatMap.mpr ⟨c, member, upperChar_of_isBlank blank ▸ List.mem_singleton_self c⟩
  exact shown (isBlank_of_isToken (List.all_eq_true.mp tokens c capital))

/-- Trimming takes nothing off a visible text at the front. -/
theorem exists_trim_append {front : Text} (nonempty : front ≠ [])
    (shown : ∀ c ∈ front, isBlank c = false) (t : Text) :
    ∃ rest back, trim (front ++ t) = front ++ rest ∧ t = rest ++ back ∧ back.all isBlank = true := by
  obtain ⟨before, back, blankBefore, blankBack, whole⟩ := exists_blanks_around (front ++ t)
  obtain ⟨c, others, rfl⟩ := List.exists_cons_of_ne_nil nonempty
  cases before with
  | cons d before =>
    rw [List.cons_append, List.cons_append, List.cons_append, List.cons.injEq] at whole
    rw [List.all_cons, ← whole.1, shown c (List.mem_cons_self ..)] at blankBefore
    cases blankBefore
  | nil =>
    rw [List.nil_append] at whole
    obtain ⟨rest, kept, rest_back⟩ | ⟨rest, kept, rest_back⟩ := List.append_eq_append_iff.mp whole
    · exact ⟨rest, back, kept, rest_back, blankBack⟩
    · cases rest with
      | nil =>
        rw [List.append_nil] at kept
        refine ⟨[], back, ?_, rest_back.symm, blankBack⟩
        rw [List.append_nil, ← kept]
      | cons d rest =>
        have inFront := shown d (kept ▸ List.mem_append_right _ (List.mem_cons_self ..))
        rw [rest_back, List.cons_append, List.all_cons, inFront] at blankBack
        cases blankBack

end Recurrence.Text
