import Recurrence.Proofs.Text.Tokens
import Recurrence.Proofs.Text.Trimming

namespace Recurrence.Text

/-- The code points of the blanks. -/
def blankCodes : List Nat :=
  [9, 10, 11, 12, 13, 28, 29, 30, 31, 32, 133, 160, 5760, 8192, 8193, 8194, 8195, 8196, 8197, 8198,
    8199, 8200, 8201, 8202, 8232, 8233, 8239, 8287, 12288]

theorem toNat_mem_blankCodes {c : Char} (blank : isBlank c = true) : c.toNat ∈ blankCodes := by
  simp only [isBlank, Bool.or_eq_true, Bool.and_eq_true, decide_eq_true_eq, beq_iff_eq] at blank
  simp only [blankCodes, List.mem_cons, List.not_mem_nil, or_false]
  omega

/-- The ways in which a character has capitals: an ASCII letter by its distance, another character
by either table, and the others none. -/
theorem upperChar_cases (c : Char) :
    (c.toNat < 128 ∧ ((97 ≤ c.toNat ∧ c.toNat ≤ 122 ∧ upperChar c = [Char.ofNat (c.toNat - 32)]) ∨
      upperChar c = [c])) ∨
    (∃ entry ∈ expandingLetters, entry.1 = c.toNat ∧ upperChar c = entry.2.map Char.ofNat) ∨
    (∃ run ∈ caseRuns, run.contains c.toNat = true ∧
      upperChar c = [Char.ofNat ((c.toNat : Int) + run.shift).toNat]) ∨
    upperChar c = [c] := by
  unfold upperChar
  dsimp only
  split
  · rename_i ascii
    split
    · rename_i letter
      exact .inl ⟨ascii, .inl ⟨letter.1, letter.2, rfl⟩⟩
    · exact .inl ⟨ascii, .inr rfl⟩
  · split
    · rename_i codes found
      obtain ⟨front, back, whole, _⟩ := List.lookup_eq_some_iff.mp found
      exact .inr (.inl ⟨(c.toNat, codes), whole ▸ List.mem_append_right _ (List.mem_cons_self ..), rfl,
        rfl⟩)
    · split
      · rename_i run found
        have contains := List.find?_some found
        exact .inr (.inr (.inl ⟨run, List.mem_of_find?_eq_some found, contains, rfl⟩))
      · exact .inr (.inr (.inr rfl))

/-- Blanks have no capitals. -/
theorem upperChar_of_isBlank {c : Char} (blank : isBlank c = true) : upperChar c = [c] := by
  have fixed : ∀ n ∈ blankCodes, upperChar (Char.ofNat n) = [Char.ofNat n] := by decide +kernel
  have same := fixed c.toNat (toNat_mem_blankCodes blank)
  rwa [Char.ofNat_toNat] at same

theorem upper_append (s t : Text) : upper (s ++ t) = upper s ++ upper t := List.flatMap_append

theorem upper_of_blank {t : Text} (blank : t.all isBlank = true) : upper t = t := by
  induction t with
  | nil => rfl
  | cons c t ih =>
    rw [List.all_cons, Bool.and_eq_true] at blank
    have single : upper (c :: t) = upperChar c ++ upper t := List.flatMap_cons
    rw [single, upperChar_of_isBlank blank.1, ih blank.2, List.singleton_append]

/-- Capitals leave the blanks around a text as they are. -/
theorem upper_blanks_around {front back : Text} (blankFront : front.all isBlank = true)
    (blankBack : back.all isBlank = true) (t : Text) :
    upper (front ++ t ++ back) = front ++ upper t ++ back := by
  rw [upper_append, upper_append, upper_of_blank blankFront, upper_of_blank blankBack]

/-- A text whose capitals are tokens begins with a blank just when it has blanks in
front. -/
theorem head?_blanks_around {front t : Text} (blankFront : front.all isBlank = true)
    (tokens : (upper t).all isToken = true) (nonempty : upper t ≠ []) (back : Text) :
    (front ++ t ++ back).head?.any isBlank = true ↔ front ≠ [] := by
  cases front with
  | cons c front =>
    rw [List.all_cons, Bool.and_eq_true] at blankFront
    simp [blankFront.1]
  | nil =>
    cases t with
    | nil => exact absurd rfl nonempty
    | cons c t =>
      refine iff_of_false (fun blank => ?_) (fun some => some rfl)
      have blank : isBlank c = true := by simpa using blank
      have single : upper (c :: t) = upperChar c ++ upper t := List.flatMap_cons
      rw [single, upperChar_of_isBlank blank, List.singleton_append, List.all_cons,
        Bool.and_eq_true] at tokens
      rw [isBlank_of_isToken tokens.1] at blank
      cases blank

theorem trim_blanks_around {front t back : Text} (blankFront : front.all isBlank = true)
    (tokens : t.all isToken = true) (blankBack : back.all isBlank = true) :
    trim (front ++ t ++ back) = t := by
  rw [trim_append_blank blankBack, trim_append_of_blank blankFront, trim_of_isToken tokens]

theorem notMem_blanks_around {c : Char} (separator : isToken c = false) (visible : isBlank c = false)
    {front t back : Text} (blankFront : front.all isBlank = true) (tokens : t.all isToken = true)
    (blankBack : back.all isBlank = true) : c ∉ front ++ t ++ back := by
  rw [List.mem_append, List.mem_append]
  rintro ((inFront | inside) | inBack)
  · exact notMem_of_blank visible blankFront inFront
  · exact notMem_of_isToken separator tokens inside
  · exact notMem_of_blank visible blankBack inBack

/-- A text that reads as an integer is made of tokens. -/
theorem all_isToken_of_int? {most : Nat} {n : Int} {t : Text} (read : int? most t = some n) :
    t.all isToken = true := by
  have digits {t : Text} {m : Nat} (read : nat? most t = some m) : t.all isToken = true := by
    unfold nat? at read
    split at read
    · rename_i checked
      simp only [Bool.and_eq_true] at checked
      exact all_isToken_of_isDigit checked.1.2
    · cases read
  unfold int? at read
  split at read
  all_goals
    simp only [Option.map_eq_some_iff, Option.bind_eq_bind, Option.bind_eq_some_iff, Option.pure_def]
      at read
    obtain ⟨_, ⟨m, number, -⟩, -⟩ := read
  · rw [List.all_cons, digits number]
    rfl
  · rw [List.all_cons, digits number]
    rfl
  · exact digits number

/-- The pairs of ASCII capitals that may stand for one letter: the capital forms of
the sharp s and of the ligatures begin and go on with them. -/
def joinedPairs : List (Char × Char) := [('S', 'S'), ('F', 'F'), ('F', 'I'), ('F', 'L'), ('S', 'T')]

/-- How often two neighbours in a text may stand for one letter. -/
def joins : Text → Nat
  | c :: d :: rest => (if (c, d) ∈ joinedPairs then 1 else 0) + joins (d :: rest)
  | _ => 0

theorem joins_nil : joins [] = 0 := rfl

theorem joins_singleton (c : Char) : joins [c] = 0 := rfl

theorem joins_append_le (s t : Text) : joins s + joins t ≤ joins (s ++ t) := by
  induction s with
  | nil => rw [joins_nil, Nat.zero_add, List.nil_append]
  | cons c s ih =>
    cases s with
    | nil =>
      cases t with
      | nil => exact Nat.le_refl 0
      | cons d t =>
        rw [joins_singleton, Nat.zero_add, List.singleton_append, joins]
        exact Nat.le_add_left ..
    | cons d s =>
      rw [List.cons_append] at ih
      rw [List.cons_append, List.cons_append, joins, joins]
      omega

/-- Nothing is joined with a letter that no pair begins with. -/
theorem joins_append_of_plain {s : Text} (plain : ∀ c ∈ s, c ≠ 'S' ∧ c ≠ 'F') (t : Text) :
    joins (s ++ t) = joins t := by
  induction s with
  | nil => rfl
  | cons c s ih =>
    obtain ⟨notS, notF⟩ := plain c (List.mem_cons_self ..)
    have tail := ih fun d member => plain d (List.mem_cons_of_mem _ member)
    rw [List.cons_append]
    cases rest : s ++ t with
    | nil =>
      rw [rest] at tail
      rw [← tail]
      rfl
    | cons d rest =>
      have apart : (c, d) ∉ joinedPairs := by
        simp [joinedPairs, notS, notF]
      rw [joins, if_neg apart, Nat.zero_add, ← rest, tail]

theorem length_upperChar_le {c : Char} (ascii : ∀ d ∈ upperChar c, d.toNat < 128) :
    (upperChar c).length ≤ 1 + joins (upperChar c) := by
  -- a test that computes, since the table is too long for an instance to decide it
  have table : (expandingLetters.all fun entry =>
      !(entry.2.map Char.ofNat).all (fun d => d.toNat < 128) ||
        (entry.2.map Char.ofNat).length ≤ 1 + joins (entry.2.map Char.ofNat)) = true := by
    decide +kernel
  have single (d : Char) : [d].length ≤ 1 + joins [d] := Nat.le_add_right 1 _
  obtain ⟨_, ⟨_, _, capital⟩ | kept⟩ | ⟨entry, member, _, capitals⟩ | ⟨_, _, _, capital⟩ | kept :=
    upperChar_cases c
  · exact capital ▸ single _
  · exact kept ▸ single _
  · rw [capitals] at ascii ⊢
    have checked := List.all_eq_true.mp table entry member
    have short : (entry.2.map Char.ofNat).all (fun d => d.toNat < 128) = true :=
      List.all_eq_true.mpr fun d among => decide_eq_true (ascii d among)
    rw [short, Bool.not_true, Bool.false_or] at checked
    exact of_decide_eq_true checked
  · exact capital ▸ single _
  · exact kept ▸ single _

/-- A text is shorter than its capitals only as far as these may be joined. -/
theorem length_upper_le {t : Text} (ascii : ∀ d ∈ upper t, d.toNat < 128) :
    (upper t).length ≤ t.length + joins (upper t) := by
  induction t with
  | nil => exact Nat.zero_le _
  | cons c t ih =>
    have single : upper (c :: t) = upperChar c ++ upper t := List.flatMap_cons
    rw [single] at ascii ⊢
    have first := length_upperChar_le fun d member => ascii d (List.mem_append_left _ member)
    have rest := ih fun d member => ascii d (List.mem_append_right _ member)
    have both := joins_append_le (upperChar c) (upper t)
    rw [List.length_append, List.length_cons]
    omega

end Recurrence.Text
