import Mathlib.Data.List.Infix
import Recurrence.Proofs.Text.Letters

namespace Recurrence.Text

/-- The letters beyond ASCII that are capitalized to letters of keys, names and codes, each with
these: the dotless i, the long s, and two ligatures. -/
def lookAlikes : List (Char × Text) :=
  [('\u0131', ['I']), ('\u017F', ['S']), ('\uFB05', ['S', 'T']), ('\uFB06', ['S', 'T'])]

def isLookAlike (c : Char) : Bool := lookAlikes.any fun entry => entry.1 == c

/-- A character, or the capitals in place of a look-alike. -/
def plainChar (c : Char) : Text := (lookAlikes.lookup c).getD [c]

/-- A text with the capitals in place of the look-alikes. -/
def plain (t : Text) : Text := t.flatMap plainChar

/-- Whether all characters are ASCII. -/
def IsAscii (t : Text) : Prop := ∀ c ∈ t, c.toNat < 128

/-- Whether all characters are ASCII, look-alikes apart. -/
def LooksAscii (t : Text) : Prop := ∀ c ∈ t, c.toNat < 128 ∨ isLookAlike c = true

/-- The neighbours that are the capitals of one letter beyond ASCII which is no look-alike: the
sharp s and the other ligatures. -/
def otherPairs : List Text := [['S', 'S'], ['F', 'F'], ['F', 'I'], ['F', 'L']]

/-- Whether a text is made of tokens, without neighbours that may stand for one other letter. All
keys, names and codes are such words. -/
def isWord (t : Text) : Bool := t.all isToken && otherPairs.all fun pair => !decide (pair <:+: t)

section Characters

variable {c : Char}

theorem isLookAlike_of_toNat (entry : Char × Text) (member : entry ∈ lookAlikes)
    (same : entry.1.toNat = c.toNat) : isLookAlike c = true :=
  List.any_eq_true.mpr ⟨entry, member, beq_iff_eq.mpr (Char.toNat_inj.mp same)⟩

theorem plainChar_of_not_lookAlike (plain : isLookAlike c = false) : plainChar c = [c] := by
  have missing : lookAlikes.lookup c = none := by
    rw [List.lookup_eq_none_iff]
    intro entry member
    have apart := List.any_eq_false.mp plain entry member
    rw [bne_iff_ne]
    rintro rfl
    exact apart (beq_self_eq_true _)
  rw [plainChar, missing]
  rfl

theorem isLookAlike_of_ascii (ascii : c.toNat < 128) : isLookAlike c = false := by
  have beyond : ∀ entry ∈ lookAlikes, 128 ≤ entry.1.toNat := by decide
  rw [isLookAlike, List.any_eq_false]
  intro entry member same
  have large := beyond entry member
  rw [beq_iff_eq.mp same] at large
  omega

theorem toNat_ofNat (n : Nat) : (Char.ofNat n).toNat = n ∨ (Char.ofNat n).toNat = 0 := by
  by_cases valid : n.isValidChar
  · left
    rw [Char.ofNat, dif_pos valid]
    rfl
  · right
    rw [Char.ofNat, dif_neg valid]
    rfl

theorem code_of_run {run : CaseRun} (member : run ∈ caseRuns) {n : Nat}
    (inside : run.contains n = true) :
    128 ≤ (n : Int) + run.shift ∨ (n = 305 ∨ n = 383) ∧ 65 ≤ (n : Int) + run.shift := by
  have runs : (caseRuns.all fun run => decide (128 ≤ (run.first : Int) + run.shift) ||
      (run.first == run.last && (run.first == 305 || run.first == 383)) &&
        decide (65 ≤ (run.first : Int) + run.shift)) = true := by decide +kernel
  have checked := List.all_eq_true.mp runs run member
  simp only [CaseRun.contains, Bool.and_eq_true, decide_eq_true_eq] at inside
  simp only [Bool.or_eq_true, Bool.and_eq_true, decide_eq_true_eq, beq_iff_eq] at checked
  omega

/-- Only ASCII and look-alikes have capitals that stand in a word. -/
theorem ascii_or_lookAlike_of_word {word : Text} (isWord : isWord word = true)
    (inside : upperChar c <:+: word) : c.toNat < 128 ∨ isLookAlike c = true := by
  have table : (expandingLetters.all fun entry =>
      lookAlikes.any (fun look => look.1.toNat == entry.1) ||
        (!(entry.2.map Char.ofNat).all isToken ||
          otherPairs.any fun pair => decide (pair <:+: entry.2.map Char.ofNat))) = true := by
    decide +kernel
  obtain ⟨tokens, apart⟩ := Bool.and_eq_true_iff.mp isWord
  have token : ∀ d ∈ upperChar c, isToken d = true := fun d member =>
    List.all_eq_true.mp tokens d (inside.subset member)
  obtain ⟨ascii, _⟩ | ⟨entry, member, same, capitals⟩ | ⟨run, member, contains, capital⟩ | capital :=
    upperChar_cases c
  · exact .inl ascii
  · refine .inr ?_
    have checked := List.all_eq_true.mp table entry member
    rw [← capitals, List.all_eq_true.mpr token, Bool.not_true, Bool.false_or, Bool.or_eq_true] at checked
    rcases checked with look | other
    · obtain ⟨look, among, code⟩ := List.any_eq_true.mp look
      exact isLookAlike_of_toNat look among ((beq_iff_eq.mp code).trans same)
    · obtain ⟨pair, among, within⟩ := List.any_eq_true.mp other
      have refused := List.all_eq_true.mp apart pair among
      rw [decide_eq_true ((of_decide_eq_true within).trans inside)] at refused
      cases refused
  · refine .inr ?_
    rw [capital] at token
    have bounds := bounds_of_isToken (token _ (List.mem_singleton_self _))
    have value := toNat_ofNat ((c.toNat : Int) + run.shift).toNat
    rcases code_of_run member contains with late | ⟨dotless | long, _⟩
    · omega
    · exact isLookAlike_of_toNat ('\u0131', ['I']) (by decide) dotless.symm
    · exact isLookAlike_of_toNat ('\u017F', ['S']) (by decide) long.symm
  · rw [capital] at token
    have bounds := bounds_of_isToken (token c (List.mem_singleton_self c))
    exact .inl (by omega)

/-- Only a character itself is capitalized to one before the letters. -/
theorem eq_of_upperChar_eq_cons {d : Char} {more : Text} (capital : upperChar c = d :: more)
    (token : isToken d = true) (early : d.toNat < 65) : c = d ∧ more = [] := by
  have table : (expandingLetters.all fun entry =>
      (entry.2.map Char.ofNat).head?.all fun d => 65 ≤ d.toNat) = true := by decide +kernel
  have bounds := bounds_of_isToken token
  obtain ⟨_, small | kept⟩ | ⟨entry, member, _, capitals⟩ | ⟨run, member, contains, single⟩ | kept :=
    upperChar_cases c
  · obtain ⟨letter, _, single⟩ := small
    cases capital.symm.trans single
    have value := toNat_ofNat (c.toNat - 32)
    omega
  · cases capital.symm.trans kept
    exact ⟨rfl, rfl⟩
  · have late := List.all_eq_true.mp table entry member
    rw [← capitals, capital] at late
    have late : 65 ≤ d.toNat := of_decide_eq_true late
    omega
  · cases capital.symm.trans single
    have code := code_of_run member contains
    have value := toNat_ofNat ((c.toNat : Int) + run.shift).toNat
    omega
  · cases capital.symm.trans kept
    exact ⟨rfl, rfl⟩

/-- A character is plain already, or is replaced by the capitals that it looks like. -/
theorem plainChar_cases (c : Char) : isLookAlike c = false ∧ plainChar c = [c] ∨
    ∃ entry ∈ lookAlikes, entry.1 = c ∧ plainChar c = entry.2 := by
  have table : ∀ entry ∈ lookAlikes, plainChar entry.1 = entry.2 := by decide
  cases look : isLookAlike c with
  | false => exact .inl ⟨rfl, plainChar_of_not_lookAlike look⟩
  | true =>
    obtain ⟨entry, member, same⟩ := List.any_eq_true.mp look
    have same := beq_iff_eq.mp same
    exact .inr ⟨entry, member, same, same ▸ table entry member⟩

theorem plainChar_of_ascii (ascii : c.toNat < 128) : plainChar c = [c] :=
  plainChar_of_not_lookAlike (isLookAlike_of_ascii ascii)

theorem upper_plainChar (c : Char) : upper (plainChar c) = upperChar c := by
  have table : ∀ entry ∈ lookAlikes, upper entry.2 = upperChar entry.1 := by decide +kernel
  obtain ⟨_, kept⟩ | ⟨entry, member, rfl, replaced⟩ := plainChar_cases c
  · rw [kept]
    exact List.append_nil _
  · rw [replaced, table entry member]

theorem plainChar_ne_nil (c : Char) : plainChar c ≠ [] := by
  have table : ∀ entry ∈ lookAlikes, entry.2 ≠ [] := by decide
  obtain ⟨_, kept⟩ | ⟨entry, member, rfl, replaced⟩ := plainChar_cases c
  · rw [kept]
    exact List.cons_ne_nil _ _
  · rw [replaced]
    exact table entry member

theorem plainChar_of_isBlank (blank : isBlank c = true) : plainChar c = [c] := by
  have table : ∀ entry ∈ lookAlikes, isBlank entry.1 = false := by decide
  obtain ⟨_, kept⟩ | ⟨entry, member, rfl, _⟩ := plainChar_cases c
  · exact kept
  · rw [table entry member] at blank
    cases blank

theorem visible_plainChar (shown : isBlank c = false) : ∀ d ∈ plainChar c, isBlank d = false := by
  have table : (lookAlikes.all fun entry => entry.2.all fun d => !isBlank d) = true := by decide
  obtain ⟨_, kept⟩ | ⟨entry, member, rfl, replaced⟩ := plainChar_cases c
  · rw [kept]
    exact List.forall_mem_singleton.mpr shown
  · rw [replaced]
    intro d among
    exact (Bool.not_eq_true' _).mp (List.all_eq_true.mp (List.all_eq_true.mp table entry member) d among)

end Characters

/-- Whether a character neither looks like a letter nor is one that is looked like. -/
def IsApart (sep : Char) : Prop := isLookAlike sep = false ∧ ∀ entry ∈ lookAlikes, sep ∉ entry.2

instance (sep : Char) : Decidable (IsApart sep) := inferInstanceAs (Decidable (_ ∧ _))

section Texts

variable {t : Text} {sep : Char}

theorem plain_append (s t : Text) : plain (s ++ t) = plain s ++ plain t := List.flatMap_append

theorem plain_cons (c : Char) (t : Text) : plain (c :: t) = plainChar c ++ plain t := List.flatMap_cons

/-- Capitals cannot tell a text from its plain form. -/
theorem upper_plain (t : Text) : upper (plain t) = upper t := by
  induction t with
  | nil => rfl
  | cons c t ih =>
    have single : upper (c :: t) = upperChar c ++ upper t := List.flatMap_cons
    rw [plain_cons, upper_append, upper_plainChar, ih, single]

theorem plain_of_isAscii (ascii : IsAscii t) : plain t = t := by
  induction t with
  | nil => rfl
  | cons c t ih =>
    rw [plain_cons, plainChar_of_ascii (ascii c (List.mem_cons_self ..)),
      ih fun d member => ascii d (List.mem_cons_of_mem _ member), List.singleton_append]

theorem plain_of_blank (blank : t.all isBlank = true) : plain t = t := by
  induction t with
  | nil => rfl
  | cons c t ih =>
    rw [List.all_cons, Bool.and_eq_true] at blank
    rw [plain_cons, plainChar_of_isBlank blank.1, ih blank.2, List.singleton_append]

theorem trimStart_plain (t : Text) : trimStart (plain t) = plain (trimStart t) := by
  induction t with
  | nil => rfl
  | cons c t ih =>
    cases blank : isBlank c with
    | true =>
      rw [plain_cons, plainChar_of_isBlank blank, List.singleton_append]
      simpa only [trimStart, List.dropWhile_cons, blank, if_true] using ih
    | false =>
      have kept : trimStart (c :: t) = c :: t := by
        simp only [trimStart, List.dropWhile_cons, blank, Bool.false_eq_true, if_false]
      rw [kept, plain_cons,
        trimStart_append_of_visible (visible_plainChar blank) (plainChar_ne_nil c)]

theorem trimEnd_plain (t : Text) : trimEnd (plain t) = plain (trimEnd t) := by
  induction t using List.reverseRecOn with
  | nil => rfl
  | append_singleton t c ih =>
    have last : plain [c] = plainChar c := List.append_nil _
    rw [plain_append, last]
    cases blank : isBlank c with
    | true => rw [plainChar_of_isBlank blank, trimEnd_concat_of_isBlank blank,
        trimEnd_concat_of_isBlank blank, ih]
    | false =>
      have kept : trimEnd (t ++ [c]) = t ++ [c] :=
        trimEnd_append_of_visible (List.forall_mem_singleton.mpr blank) (List.cons_ne_nil _ _) t
      rw [kept, plain_append, last,
        trimEnd_append_of_visible (visible_plainChar blank) (plainChar_ne_nil c)]

theorem trim_plain (t : Text) : trim (plain t) = plain (trim t) := by
  rw [trim, trimStart_plain, trimEnd_plain, trim]

theorem isBlankText_plain (t : Text) : isBlankText (plain t) = isBlankText t := by
  have empty : plain (trim t) = [] ↔ trim t = [] := by
    cases trim t with
    | nil => exact iff_of_true rfl rfl
    | cons c rest =>
      rw [plain_cons, List.append_eq_nil_iff]
      exact iff_of_false (fun both => plainChar_ne_nil c both.1) (List.cons_ne_nil _ _)
  rw [Bool.eq_iff_iff, isBlankText_iff, isBlankText_iff, trim_plain, empty]

theorem notMem_plainChar {c : Char} (apart : IsApart sep) (other : c ≠ sep) : sep ∉ plainChar c := by
  obtain ⟨_, kept⟩ | ⟨entry, member, rfl, replaced⟩ := plainChar_cases c
  · rw [kept]
    exact fun member => other (List.mem_singleton.mp member).symm
  · rw [replaced]
    exact apart.2 entry member

theorem notMem_plain (apart : IsApart sep) (free : sep ∉ t) : sep ∉ plain t := by
  intro member
  obtain ⟨c, among, inside⟩ := List.mem_flatMap.mp member
  exact notMem_plainChar apart (fun same => free (same ▸ among)) inside

theorem split_append_of_free {front rest piece : Text} {pieces : List Text} (free : sep ∉ front)
    (divided : split sep rest = piece :: pieces) :
    split sep (front ++ rest) = (front ++ piece) :: pieces := by
  induction front with
  | nil => exact divided
  | cons c front ih =>
    rw [List.mem_cons, not_or] at free
    rw [List.cons_append, split, if_neg (Ne.symm free.1), ih free.2]
    rfl

/-- A text is divided where its plain form is. -/
theorem split_plain (apart : IsApart sep) (t : Text) :
    split sep (plain t) = (split sep t).map plain := by
  induction t with
  | nil => rfl
  | cons c t ih =>
    rw [plain_cons]
    by_cases same : c = sep
    · subst same
      rw [plainChar_of_not_lookAlike apart.1, List.singleton_append, split, if_pos rfl, ih, split,
        if_pos rfl]
      rfl
    · obtain ⟨piece, pieces, divided, whole⟩ := split_cons_of_ne same t
      rw [divided, List.map_cons] at ih
      rw [split_append_of_free (notMem_plainChar apart same) ih, whole, List.map_cons, plain_cons]

/-- A character of a text has its capitals among those of the text. -/
theorem upperChar_infix_upper {c : Char} (member : c ∈ t) : upperChar c <:+: upper t := by
  obtain ⟨front, back, rfl⟩ := List.append_of_mem member
  have single : upper (c :: back) = upperChar c ++ upper back := List.flatMap_cons
  rw [upper_append, single, ← List.append_assoc]
  exact ⟨_, _, rfl⟩

/-- What is capitalized to a word looks like ASCII. -/
theorem looksAscii_of_upper (isWord : isWord (upper t) = true) : LooksAscii t :=
  fun _ member => ascii_or_lookAlike_of_word isWord (upperChar_infix_upper member)

theorem upper_of_isAscii {t : Text} (ascii : IsAscii t) : upper t = t.map foldLetter := by
  induction t with
  | nil => rfl
  | cons c t ih =>
    have single : upper (c :: t) = upperChar c ++ upper t := List.flatMap_cons
    have letter : upperChar c = [foldLetter c] := by
      unfold upperChar foldLetter
      dsimp only
      rw [if_pos (ascii c (List.mem_cons_self ..))]
      split <;> rfl
    rw [single, letter, ih fun d member => ascii d (List.mem_cons_of_mem _ member)]
    rfl

/-- A text whose capitals begin with digits and signs begins with these. -/
theorem exists_of_upper_eq_append {front rest t : Text}
    (early : ∀ d ∈ front, isToken d = true ∧ d.toNat < 65) (capitals : upper t = front ++ rest) :
    ∃ code, t = front ++ code ∧ upper code = rest := by
  induction front generalizing t with
  | nil => exact ⟨t, rfl, capitals⟩
  | cons d front ih =>
    cases t with
    | nil => cases capitals
    | cons c t =>
      have single : upper (c :: t) = upperChar c ++ upper t := List.flatMap_cons
      obtain ⟨e, more, capital⟩ := List.exists_cons_of_ne_nil (upperChar_ne_nil c)
      rw [single, capital, List.cons_append, List.cons_append, List.cons.injEq] at capitals
      obtain ⟨rfl, later⟩ := capitals
      obtain ⟨token, below⟩ := early e (List.mem_cons_self ..)
      obtain ⟨rfl, rfl⟩ := eq_of_upperChar_eq_cons capital token below
      obtain ⟨code, rfl, known⟩ := ih (fun d member => early d (List.mem_cons_of_mem _ member)) later
      exact ⟨code, rfl, known⟩

end Texts

end Recurrence.Text
