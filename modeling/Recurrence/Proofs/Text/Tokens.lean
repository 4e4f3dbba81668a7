import Recurrence.Proofs.Text.Digits
import Recurrence.Text.Basic
import Recurrence.Text.Upper

namespace Recurrence.Text

/-- The characters of tokens: the visible ASCII characters before the small
letters, without the comma and the semicolon that stand between tokens. -/
def isToken (c : Char) : Bool := 33 ≤ c.toNat && c.toNat < 97 && c != ',' && c != ';'

theorem isToken_of_isDigit {c : Char} (digit : isDigit c = true) : isToken c = true := by
  have comma : c ≠ ',' := by
    rintro rfl
    cases digit
  have semicolon : c ≠ ';' := by
    rintro rfl
    cases digit
  simp only [isDigit, Bool.and_eq_true, decide_eq_true_eq] at digit
  simp only [isToken, Bool.and_eq_true, decide_eq_true_eq, bne_iff_ne, ne_eq, comma, semicolon,
    not_false_eq_true, and_true]
  omega

theorem bounds_of_isToken {c : Char} (token : isToken c = true) : 33 ≤ c.toNat ∧ c.toNat < 97 := by
  simp only [isToken, Bool.and_eq_true, decide_eq_true_eq] at token
  exact token.1.1

theorem isAscii_of_isToken {t : Text} (tokens : t.all isToken = true) :
    (t.all fun c => c.toNat < 128) = true := by
  rw [List.all_eq_true] at tokens ⊢
  intro c member
  have bounds := bounds_of_isToken (tokens c member)
  simp only [decide_eq_true_eq]
  omega

theorem notMem_of_isToken {c : Char} (separator : isToken c = false) {t : Text}
    (tokens : t.all isToken = true) : c ∉ t := by
  intro member
  rw [List.all_eq_true] at tokens
  rw [tokens c member] at separator
  cases separator

theorem isBlank_of_isToken {c : Char} (token : isToken c = true) : isBlank c = false := by
  have bounds := bounds_of_isToken token
  simp only [isBlank, Bool.or_eq_false_iff, Bool.and_eq_false_iff, beq_eq_false_iff_ne,
    decide_eq_false_iff_not]
  omega

theorem visible_of_isToken {t : Text} (tokens : t.all isToken = true) :
    ∀ c ∈ t, isBlank c = false :=
  fun c member => isBlank_of_isToken (List.all_eq_true.mp tokens c member)

theorem upperChar_of_isToken {c : Char} (token : isToken c = true) : upperChar c = [c] := by
  have bounds := bounds_of_isToken token
  have ascii : c.toNat < 128 := by omega
  have large : ¬(97 ≤ c.toNat ∧ c.toNat ≤ 122) := by omega
  simp only [upperChar, ascii, large, if_true, if_false]

theorem upper_of_isToken {t : Text} (tokens : t.all isToken = true) : upper t = t := by
  induction t with
  | nil => rfl
  | cons c rest ih =>
    rw [List.all_cons, Bool.and_eq_true] at tokens
    simp only [upper, List.flatMap_cons, upperChar_of_isToken tokens.1, List.singleton_append,
      List.cons.injEq, true_and]
    exact ih tokens.2

theorem dropWhile_isBlank_of_isToken {t : Text} (tokens : t.all isToken = true) :
    t.dropWhile isBlank = t := by
  cases t with
  | nil => rfl
  | cons c rest =>
    rw [List.all_cons, Bool.and_eq_true] at tokens
    simp only [List.dropWhile_cons, isBlank_of_isToken tokens.1, Bool.false_eq_true, if_false]

theorem trim_of_isToken {t : Text} (tokens : t.all isToken = true) : trim t = t := by
  have reversed : t.reverse.all isToken = true := by rw [List.all_reverse, tokens]
  simp only [trim, trimStart, trimEnd, dropWhile_isBlank_of_isToken tokens,
    dropWhile_isBlank_of_isToken reversed, List.reverse_reverse]

theorem all_isToken_of_isDigit {t : Text} (digits : t.all isDigit = true) :
    t.all isToken = true := by
  rw [List.all_eq_true] at digits ⊢
  exact fun c member => isToken_of_isDigit (digits c member)

theorem all_isToken_ofNat (n : Nat) : (ofNat n).all isToken = true :=
  all_isToken_of_isDigit (all_isDigit_ofNat n)

theorem all_isToken_ofInt (n : Int) : (ofInt n).all isToken = true := by
  cases n with
  | ofNat n => exact all_isToken_ofNat n
  | negSucc n =>
    rw [ofInt, List.all_cons, all_isToken_ofNat]
    rfl

theorem all_isToken_padded (width n : Nat) : (padded width n).all isToken = true :=
  all_isToken_of_isDigit (all_isDigit_padded width n)

theorem mem_join {sep : Text} {pieces : List Text} {c : Char} (member : c ∈ join sep pieces) :
    c ∈ sep ∨ ∃ piece ∈ pieces, c ∈ piece := by
  induction pieces with
  | nil => cases member
  | cons piece pieces ih =>
    cases pieces with
    | nil => exact .inr ⟨piece, List.mem_cons_self .., member⟩
    | cons next others =>
      rw [join, List.mem_append, List.mem_append] at member
      · rcases member with (inPiece | inSep) | inRest
        · exact .inr ⟨piece, List.mem_cons_self .., inPiece⟩
        · exact .inl inSep
        · rcases ih inRest with inSep | ⟨other, found, inOther⟩
          · exact .inl inSep
          · exact .inr ⟨other, List.mem_cons_of_mem _ found, inOther⟩
      · simp

theorem notMem_join {sep : Text} {pieces : List Text} {c : Char} (other : c ∉ sep)
    (free : ∀ piece ∈ pieces, c ∉ piece) : c ∉ join sep pieces := by
  intro member
  rcases mem_join member with inSep | ⟨piece, found, inPiece⟩
  · exact other inSep
  · exact free piece found inPiece

theorem split_of_notMem {sep : Char} {t : Text} (free : sep ∉ t) : split sep t = [t] := by
  induction t with
  | nil => rfl
  | cons c rest ih =>
    rw [List.mem_cons, not_or] at free
    rw [split, if_neg (Ne.symm free.1), ih free.2]

theorem split_append {sep : Char} {front : Text} (free : sep ∉ front) (rest : Text) :
    split sep (front ++ sep :: rest) = front :: split sep rest := by
  induction front with
  | nil => rw [List.nil_append, split, if_pos rfl]
  | cons c front ih =>
    rw [List.mem_cons, not_or] at free
    rw [List.cons_append, split, if_neg (Ne.symm free.1), ih free.2]

/-- Splitting undoes joining when no piece has the separator inside. -/
theorem split_join {sep : Char} {pieces : List Text} (nonempty : pieces ≠ [])
    (free : ∀ piece ∈ pieces, sep ∉ piece) : split sep (join [sep] pieces) = pieces := by
  induction pieces with
  | nil => exact absurd rfl nonempty
  | cons piece pieces ih =>
    have atPiece := free piece (List.mem_cons_self ..)
    cases pieces with
    | nil => exact split_of_notMem atPiece
    | cons next others =>
      have atRest := ih (by simp) fun other member => free other (List.mem_cons_of_mem _ member)
      rw [join, List.append_assoc, List.singleton_append, split_append atPiece, atRest]
      simp

/-- Pieces without the separator can be told from what they are joined to. -/
theorem join_injective {sep : Char} {pieces others : List Text} (nonempty : pieces ≠ [])
    (free : ∀ piece ∈ pieces, sep ∉ piece) (otherNonempty : others ≠ [])
    (otherFree : ∀ piece ∈ others, sep ∉ piece) (same : join [sep] pieces = join [sep] others) :
    pieces = others := by
  calc pieces = split sep (join [sep] pieces) := (split_join nonempty free).symm
    _ = split sep (join [sep] others) := by rw [same]
    _ = others := split_join otherNonempty otherFree

theorem splitFirst?_append {sep : Char} {front : Text} (free : sep ∉ front) (rest : Text) :
    splitFirst? sep (front ++ sep :: rest) = some (front, rest) := by
  induction front with
  | nil => rw [List.nil_append, splitFirst?, if_pos rfl]
  | cons c front ih =>
    rw [List.mem_cons, not_or] at free
    rw [List.cons_append, splitFirst?, if_neg (Ne.symm free.1), ih free.2]
    rfl

end Recurrence.Text
