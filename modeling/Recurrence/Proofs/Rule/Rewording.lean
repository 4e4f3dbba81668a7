import Mathlib.Logic.Relation
import Recurrence.Proofs.Rule.Entries
import Recurrence.Proofs.Text.Letters

namespace Recurrence

open Text (trim)

namespace Text

/-- Zeros in front of a numeral make a numeral, as long as there are not too many digits. -/
theorem IsNumeral.zeros {most zeros : Nat} {digits : Text} (numeral : IsNumeral most digits)
    (fits : zeros + digits.length ≤ most) : IsNumeral most (List.replicate zeros '0' ++ digits) := by
  refine ⟨List.append_ne_nil_of_right_ne_nil _ numeral.nonempty, fun c member => ?_, ?_⟩
  · rcases List.mem_append.mp member with zero | digit
    · rw [List.eq_of_mem_replicate zero]
      rfl
    · exact numeral.digits c digit
  · rwa [List.length_append, List.length_replicate]

end Text

namespace ListPart

/-- The most digits of a number in an item, which is an ordinal where the part is of weekdays. -/
def mostDigits : ListPart → Nat
  | .weekday => Rule.mostOrdinalDigits
  | _ => Rule.mostDigits

/-- What may stand before the digits of an item: a sign only where the part can store negative
numbers. -/
def TakesSign (part : ListPart) (sign : Text) : Prop :=
  sign = [] ∨ part.storage.1 < 0 ∧ (sign = ['+'] ∨ sign = ['-'])

/-- What may stand behind the digits of an item: the code of a day in any case where the part is
of weekdays, and otherwise nothing. -/
def IsCode (part : ListPart) (code : Text) : Prop :=
  match part with
  | .weekday => ∃ day : Weekday, Text.upper code = day.code
  | _ => code = []

/-- Ways to write an item of a list part differently: with a weekday code in another case, with
zeros before its number up to the permitted digits, and with a plus before a number that has no
sign. -/
inductive Rewords (part : ListPart) : Text → Text → Prop
  | same (token : Text) : Rewords part token token
  | letters {token other : Text} : part = .weekday → Text.SameLetters token other →
      Rewords part token other
  | zeros {sign digits code : Text} (zeros : Nat) : part.TakesSign sign →
      Text.IsNumeral part.mostDigits digits → zeros + digits.length ≤ part.mostDigits →
      part.IsCode code →
      Rewords part (sign ++ digits ++ code) (sign ++ (List.replicate zeros '0' ++ digits) ++ code)
  | plus {digits code : Text} : part.storage.1 < 0 → Text.IsNumeral part.mostDigits digits →
      part.IsCode code → Rewords part (digits ++ code) ('+' :: digits ++ code)

/-- Whether a text writes a number as the items of the part do. -/
def Writes (part : ListPart) (text : Text) (n : Int) : Prop :=
  if part.storage.1 < 0 then Text.IsSigned part.mostDigits text n
  else Text.IsNumeral part.mostDigits text ∧ (Text.natValue text : Int) = n

variable {part : ListPart} {sign digits : Text}

theorem writes_digits (numeral : Text.IsNumeral part.mostDigits digits) :
    part.Writes digits (Text.natValue digits) := by
  unfold Writes
  split
  · exact .plain numeral
  · exact ⟨numeral, rfl⟩

theorem writes_plus (signed : part.storage.1 < 0) (numeral : Text.IsNumeral part.mostDigits digits) :
    part.Writes ('+' :: digits) (Text.natValue digits) := by
  rw [Writes, if_pos signed]
  exact .plus numeral

/-- Zeros behind the sign of a number, if it has one, leave the number as it is. -/
theorem writes_zeros (takes : part.TakesSign sign) (numeral : Text.IsNumeral part.mostDigits digits) :
    ∃ n, ∀ zeros, zeros + digits.length ≤ part.mostDigits →
      part.Writes (sign ++ (List.replicate zeros '0' ++ digits)) n := by
  have value (zeros : Nat) : Text.natValue (List.replicate zeros '0' ++ digits) =
      Text.natValue digits := Text.natValue_zeros_append zeros digits
  obtain rfl | ⟨signed, rfl | rfl⟩ := takes
  · refine ⟨Text.natValue digits, fun zeros fits => ?_⟩
    rw [List.nil_append, ← value zeros]
    exact writes_digits (numeral.zeros fits)
  · refine ⟨Text.natValue digits, fun zeros fits => ?_⟩
    rw [← value zeros]
    exact writes_plus signed (numeral.zeros fits)
  · refine ⟨-Text.natValue digits, fun zeros fits => ?_⟩
    rw [Writes, if_pos signed, ← value zeros]
    exact .minus (numeral.zeros fits)

end ListPart

/-- Ways to write the value of a part differently: a frequency and the start of the week in
another case, an interval and a count with zeros in front up to the permitted digits, and a list
with its items in other ways and other blanks around them. -/
inductive Part.Rewords : Part → Text → Text → Prop
  | same (part : Part) (value : Text) : Rewords part value value
  | letters {part : Part} {value other : Text} : part = .frequency ∨ part = .weekStart →
      Text.SameLetters value other → Rewords part value other
  | zeros {part : Part} {digits : Text} (zeros : Nat) : part = .interval ∨ part = .count →
      Text.IsNumeral Rule.mostDigits digits → zeros + digits.length ≤ Rule.mostDigits →
      Rewords part digits (List.replicate zeros '0' ++ digits)
  | items {part : ListPart} {value other : Text} :
      List.Forall₂ (fun token other => part.Rewords (trim token) (trim other))
        (Text.split ',' value) (Text.split ',' other) → Rewords (.list part) value other

namespace Rule

/-- Ways to write a segment differently: with its key in another case, with its value in another
way, and with other blanks around both. -/
inductive RewordsSegment : Text → Text → Prop
  | same (segment : Text) : RewordsSegment segment segment
  | parts (part : Part) {key other value changed : Text} : '=' ∉ key → '=' ∉ other →
      Text.upper (trim key) = part.key → Text.SameLetters (trim key) (trim other) →
      part.Rewords (trim value) (trim changed) →
      RewordsSegment (key ++ '=' :: value) (other ++ '=' :: changed)

/-- Ways to write the segments of a rule differently: in another order, with other blank segments
among them, and each segment in another way. -/
inductive RewordsBody : Text → Text → Prop
  | order {body other : Text} : (Text.split ';' body).Perm (Text.split ';' other) →
      RewordsBody body other
  | blanks {body other : Text} : filled (Text.split ';' body) = filled (Text.split ';' other) →
      RewordsBody body other
  | segments {body other : Text} :
      List.Forall₂ RewordsSegment (Text.split ';' body) (Text.split ';' other) →
      RewordsBody body other

/-- The texts that present the segments of a rule: these alone, or behind the property name in
any case where the limits admit it. -/
inductive Presents (limits : Limits) (body : Text) : Text → Prop
  | alone : Presents limits body body
  | marked {front name : Text} : limits.acceptMark = true → front.all Text.isBlank = true →
      Text.SameLetters mark name → Presents limits body (front ++ name ++ body)

section Items

variable {part : ListPart}

theorem readItem_eq_ok_iff {token : Text} {d : Datum} :
    readItem part token = .ok d ↔
      (if part = .weekday then readOccurrence? token else readNumber? part token) = some d := by
  by_cases weekday : part = .weekday
  · rw [if_pos weekday, weekday, readItem]
    cases readOccurrence? token with
    | none => simp only [reduceCtorEq]
    | some e => rw [Except.ok.injEq, Option.some.injEq]
  · rw [if_neg weekday, readItem.eq_def]
    split
    · exact absurd rfl weekday
    · cases readNumber? _ token with
      | none => simp only [reduceCtorEq]
      | some e => rw [Except.ok.injEq, Option.some.injEq]

theorem readOccurrence?_of_signed {ordinal code : Text} {n : Int} {day : Weekday}
    (signed : Text.IsSigned mostOrdinalDigits ordinal n) (known : Text.upper code = day.code) :
    readOccurrence? (ordinal ++ code) =
      if n ≠ 0 ∧ -32768 ≤ n ∧ n ≤ 32767 then some (.nth (.int n) (.weekday day)) else none := by
  have number := Text.int?_eq_some_iff.mpr signed
  have some : ordinal.isEmpty = false := by
    cases ordinal with
    | nil => cases number
    | cons c rest => rfl
  have capitals : Text.upper (ordinal ++ code) = ordinal ++ day.code := by
    rw [Text.upper_append, Text.upper_of_isToken (Text.all_isToken_of_int? number), known]
  unfold readOccurrence?
  dsimp only
  rw [capitals, List.length_append, day.length_code, Nat.add_sub_cancel, List.drop_left, List.take_left,
    Weekday.ofCode?_code, number, some]
  rfl

theorem readNumber?_of_writes (numeric : part ≠ .weekday) {text : Text} {n : Int}
    (written : part.Writes text n) :
    readNumber? part text =
      if part.storage.1 ≤ n ∧ n ≤ part.storage.2 then some (.int n) else none := by
  have most : part.mostDigits = mostDigits := by
    cases part with
    | weekday => exact absurd rfl numeric
    | _ => rfl
  unfold ListPart.Writes at written
  unfold readNumber?
  dsimp only
  split at written
  · rename_i signed
    rw [if_pos signed, Text.int?_eq_some_iff.mpr (most ▸ written)]
  · rename_i unsigned
    obtain ⟨numeral, rfl⟩ := written
    rw [if_neg unsigned, Text.nat?_eq_some_iff.mpr ⟨most ▸ numeral, rfl⟩]
    rfl

/-- An item is read by the number that it writes. -/
theorem readItem_of_writes {text other code : Text} {n : Int} (here : part.Writes text n)
    (there : part.Writes other n) (behind : part.IsCode code) {d : Datum}
    (read : readItem part (text ++ code) = .ok d) : readItem part (other ++ code) = .ok d := by
  rw [readItem_eq_ok_iff] at read ⊢
  by_cases weekday : part = .weekday
  · subst weekday
    obtain ⟨day, known⟩ := behind
    rw [if_pos rfl, readOccurrence?_of_signed here known] at read
    rw [if_pos rfl, readOccurrence?_of_signed there known, read]
  · have nothing : code = [] := by
      cases part with
      | weekday => exact absurd rfl weekday
      | _ => exact behind
    rw [nothing, List.append_nil, if_neg weekday, readNumber?_of_writes weekday here] at read
    rw [nothing, List.append_nil, if_neg weekday, readNumber?_of_writes weekday there, read]

/-- An item is read alike in all ways to write it. -/
theorem readItem_of_rewords {token other : Text} (reworded : part.Rewords token other) {d : Datum}
    (read : readItem part token = .ok d) : readItem part other = .ok d := by
  cases reworded with
  | same => exact read
  | letters weekday alike =>
    rw [readItem_eq_ok_iff, if_pos weekday] at read ⊢
    unfold readOccurrence? at read ⊢
    rwa [← alike.upper_eq]
  | zeros zeros takes numeral fits behind =>
    obtain ⟨n, writes⟩ := ListPart.writes_zeros takes numeral
    -- with no zeros at all it is the number as it stands
    exact readItem_of_writes (writes 0 (by rw [Nat.zero_add]; exact numeral.short)) (writes zeros fits)
      behind read
  | plus signed numeral behind =>
    exact readItem_of_writes (ListPart.writes_digits numeral) (ListPart.writes_plus signed numeral)
      behind read

theorem readList_of_rewords {limits : Limits} {value other : Text}
    (reworded : List.Forall₂ (fun token other => part.Rewords (trim token) (trim other))
      (Text.split ',' value) (Text.split ',' other)) {items : List Datum}
    (read : readList limits part value = .ok items) : readList limits part other = .ok items := by
  have length := reworded.length_eq
  unfold readList at read ⊢
  dsimp only at read ⊢
  rw [List.length_map] at read ⊢
  rw [← length]
  split at read
  · cases read
  · rename_i few
    rw [if_neg few]
    rw [readItems_eq, Outcome.mapM_eq_ok_iff, List.forall₂_map_left_iff] at read ⊢
    have each (token other : Text) (d : Datum) (reworded : part.Rewords (trim token) (trim other))
        (read : readItem part (trim token) = .ok d) :
        ∃ e, readItem part (trim other) = .ok e ∧ d = e :=
      ⟨d, readItem_of_rewords reworded read, rfl⟩
    obtain ⟨found, others, same⟩ := Outcome.exists_forall₂ each reworded read
    rw [List.forall₂_eq_eq_eq] at same
    rwa [same]

end Items

section Segments

variable {limits : Limits}

/-- A frequency and the start of the week are read by their capitals. -/
theorem readValue_of_upper_eq {part : Part} {value other : Text}
    (named : part = .frequency ∨ part = .weekStart) (trimmed : trim value = value)
    (otherTrimmed : trim other = other) (capitals : Text.upper value = Text.upper other)
    {setting : Setting} (read : readValue limits part value = .ok setting) :
    readValue limits part other = .ok setting := by
  rcases named with rfl | rfl
  · rw [readValue, trimmed] at read
    rw [readValue, otherTrimmed, ← capitals]
    cases found : Frequency.ofName? (Text.upper value) with
    | none =>
      rw [found] at read
      cases read
    | some f => rwa [found] at read
  · rw [readValue] at read
    rw [readValue, ← capitals]
    cases found : Weekday.ofCode? (Text.upper value) with
    | none =>
      rw [found] at read
      cases read
    | some day => rwa [found] at read

/-- The value of a part is read alike in all ways to write it. -/
theorem readValue_of_rewords {part : Part} {value other : Text} (trimmed : trim value = value)
    (otherTrimmed : trim other = other) (reworded : part.Rewords value other) {setting : Setting}
    (read : readValue limits part value = .ok setting) :
    readValue limits part other = .ok setting := by
  cases reworded with
  | same => exact read
  | letters named alike => exact readValue_of_upper_eq named trimmed otherTrimmed alike.upper_eq read
  | zeros zeros named numeral fits =>
    have number : Text.nat? mostDigits value = some (Text.natValue value) :=
      Text.nat?_eq_some_iff.mpr ⟨numeral, rfl⟩
    have same : Text.nat? mostDigits (List.replicate zeros '0' ++ value) =
        some (Text.natValue value) :=
      Text.nat?_eq_some_iff.mpr ⟨numeral.zeros fits, Text.natValue_zeros_append zeros value⟩
    rcases named with rfl | rfl
    · rw [readValue, number] at read
      rw [readValue, same]
      dsimp only at read ⊢
      split at read
      · rename_i bounds
        rwa [if_pos bounds]
      · cases read
    · rw [readValue, number] at read
      rw [readValue, same]
      dsimp only at read ⊢
      split at read
      · rename_i bound
        rwa [if_pos bound]
      · cases read
  | items each =>
    obtain ⟨items, listed, made⟩ := Outcome.map_eq_ok.mp read
    exact Outcome.map_eq_ok.mpr ⟨items, readList_of_rewords each listed, made⟩

/-- Whether a segment gives the same as another one: it is blank just when this is, and the part
that this gives a value to gets one that is read alike. -/
def Keeps (limits : Limits) (segment other : Text) : Prop :=
  Text.isBlankText segment = Text.isBlankText other ∧
    ∀ entry, Assigns segment entry → ∃ value, Assigns other (entry.1, value) ∧
      ∀ setting, readValue limits entry.1 entry.2 = .ok setting →
        readValue limits entry.1 value = .ok setting

theorem keeps_of_rewords {segment other : Text} (reworded : RewordsSegment segment other) :
    Keeps limits segment other := by
  cases reworded with
  | same => exact ⟨rfl, fun entry assigns => ⟨entry.2, assigns, fun _ read => read⟩⟩
  | @parts part key name value changed free otherFree known alike reworded =>
    have shown (front back : Text) : Text.isBlankText (front ++ '=' :: back) = false := by
      rw [Text.isBlankText, List.all_append, List.all_cons, show Text.isBlank '=' = false from rfl,
        Bool.false_and, Bool.and_false]
    refine ⟨by rw [shown, shown], ?_⟩
    rintro ⟨owner, given⟩ assigns
    obtain ⟨front, back, whole, frontFree, named, rfl⟩ := assigns_iff.mp assigns
    have divided := (Text.splitFirst?_append free value).symm.trans
      (whole ▸ Text.splitFirst?_append frontFree back)
    cases divided
    obtain rfl : part = owner :=
      Option.some.inj ((Part.ofKey?_eq_some_iff.mpr known).symm.trans
        (Part.ofKey?_eq_some_iff.mpr named))
    refine ⟨trim changed, assigns_iff.mpr ⟨name, changed, rfl, otherFree, ?_, rfl⟩,
      fun setting read => ?_⟩
    · rw [← alike.upper_eq, known]
    · exact readValue_of_rewords (Text.trim_trim value) (Text.trim_trim changed) reworded read

/-- The blanks around a segment do not count. -/
theorem keeps_of_trim_eq {segment other : Text} (same : trim segment = trim other) :
    Keeps limits segment other := by
  refine ⟨?_, ?_⟩
  · rw [Bool.eq_iff_iff, Text.isBlankText_iff, Text.isBlankText_iff, same]
  · rintro ⟨part, given⟩ assigns
    obtain ⟨key, value, rfl, free, named, trimmed⟩ := assigns_iff.mp assigns
    obtain ⟨front, back, divided, sameKey, sameValue⟩ :=
      Text.splitFirst?_of_trim_eq rfl same.symm (Text.splitFirst?_append free value)
    obtain ⟨whole, frontFree⟩ := Text.splitFirst?_eq_some_iff.mp divided
    refine ⟨given, assigns_iff.mpr ⟨front, back, whole, frontFree, ?_, ?_⟩, fun _ read => read⟩
    · rw [sameKey, named]
    · rw [sameValue, trimmed]

/-- Segments that are kept one by one give the same rule. -/
theorem Gives.keeps {segments others : List Text} {entries : List (Part × Text)} {r : Rule}
    (given : Gives limits (filled segments) entries r)
    (kept : List.Forall₂ (Keeps limits) segments others) :
    ∃ changed, Gives limits (filled others) changed r := by
  obtain ⟨⟨each, distinct⟩, named, values, defaults⟩ := given
  have shown : List.Forall₂ (Keeps limits) (filled segments) (filled others) := by
    refine List.rel_filter (fun segment other keeps => ?_) kept
    dsimp only
    rw [any_shown_eq, any_shown_eq, keeps.1]
  have step (segment other : Text) (entry : Part × Text) (keeps : Keeps limits segment other)
      (assigns : Assigns segment entry) : ∃ changed : Part × Text, Assigns other changed ∧
        (changed.1 = entry.1 ∧ ∀ setting, readValue limits entry.1 entry.2 = .ok setting →
          readValue limits entry.1 changed.2 = .ok setting) := by
    obtain ⟨value, assigned, read⟩ := keeps.2 entry assigns
    exact ⟨(entry.1, value), assigned, rfl, read⟩
  obtain ⟨changed, assigned, alike⟩ := Outcome.exists_forall₂ step shown each
  have parts : changed.map Prod.fst = entries.map Prod.fst :=
    Outcome.map_eq_map_iff.mpr (alike.imp fun _ _ same => same.1).flip
  refine ⟨changed, ⟨assigned, parts ▸ distinct⟩, parts ▸ named, fun entry member => ?_, parts ▸ defaults⟩
  obtain ⟨before, among, samePart, readAlike⟩ := Outcome.exists_of_mem_right alike member
  obtain ⟨setting, read, value⟩ := values before among
  rw [samePart]
  exact ⟨setting, readAlike setting read, value⟩

theorem Gives.of_trim_eq {segments others : List Text} {entries : List (Part × Text)} {r : Rule}
    (given : Gives limits (filled segments) entries r)
    (same : segments.map trim = others.map trim) :
    ∃ changed, Gives limits (filled others) changed r :=
  given.keeps ((Outcome.map_eq_map_iff.mp same).imp fun _ _ => keeps_of_trim_eq)

/-- One step of rewording leaves the rule as it is. -/
theorem gives_of_rewords {body other : Text} {r : Rule} (step : RewordsBody body other)
    (given : ∃ entries, Gives limits (filled (Text.split ';' body)) entries r) :
    ∃ entries, Gives limits (filled (Text.split ';' other)) entries r := by
  obtain ⟨entries, given⟩ := given
  cases step with
  | order permuted => exact given.perm (permuted.filter _)
  | blanks same => exact ⟨entries, same ▸ given⟩
  | segments each => exact given.keeps (each.imp fun _ _ => keeps_of_rewords)

/-- Rewording step by step leaves the rule as it is. -/
theorem gives_of_reworded {body other : Text} {r : Rule}
    (steps : Relation.ReflTransGen RewordsBody body other)
    (given : ∃ entries, Gives limits (filled (Text.split ';' body)) entries r) :
    ∃ entries, Gives limits (filled (Text.split ';' other)) entries r := by
  induction steps with
  | refl => exact given
  | tail _ step ih => exact gives_of_rewords step ih

/-- No segment begins as the property name does, since no key begins with its letter. -/
theorem upperChar_ne_of_assigns {c : Char} {segment capitals : Text} {entry : Part × Text}
    (shown : Text.isBlank c = false) (assigns : Assigns (c :: segment) entry) :
    Text.upperChar c ≠ 'R' :: capitals := by
  intro capital
  obtain ⟨key, value, whole, _, named, _⟩ := assigns_iff.mp assigns
  cases key with
  | nil =>
    rw [List.nil_append, List.cons.injEq] at whole
    rw [whole.1] at capital
    cases capital
  | cons d key =>
    rw [List.cons_append, List.cons.injEq] at whole
    obtain ⟨rfl, _⟩ := whole
    obtain ⟨rest, kept⟩ := Text.exists_trim_cons shown key
    have letters : Text.upper (c :: rest) = Text.upperChar c ++ Text.upper rest := List.flatMap_cons
    rw [kept, letters, capital] at named
    obtain ⟨part, _⟩ := entry
    cases part with
    | list part => cases part <;> cases named
    | _ => cases named

/-- A text whose segments give a rule does not begin with the property name. -/
theorem upper_take_ne_mark {text : Text} {entries : List (Part × Text)} {r : Rule}
    (given : Gives limits (filled (Text.split ';' text)) entries r) :
    Text.upper (text.take mark.length) ≠ mark := by
  intro marked
  cases text with
  | nil => cases marked
  | cons c text =>
    have letters : Text.upper ((c :: text).take mark.length) =
        Text.upperChar c ++ Text.upper (text.take 5) := List.flatMap_cons
    obtain ⟨d, capitals, capital⟩ := List.exists_cons_of_ne_nil (Text.upperChar_ne_nil c)
    rw [letters, capital, List.cons_append] at marked
    rw [(List.cons.inj marked).1] at capital
    -- the character is neither a separator nor a blank, so that it begins the first segment
    have apart : c ≠ ';' := by
      rintro rfl
      cases capital
    have shown : Text.isBlank c = false := by
      by_contra blank
      have blank := Bool.of_not_eq_false blank
      rw [Text.upperChar_of_isBlank blank, List.cons.injEq] at capital
      rw [capital.1] at blank
      cases blank
    obtain ⟨piece, pieces, _, divided⟩ := Text.split_cons_of_ne apart text
    have visible : Text.isBlankText (c :: piece) = false := by
      rw [Text.isBlankText, List.all_cons, shown, Bool.false_and]
    have each := given.listed.each
    rw [divided, filled_cons_of_shown visible] at each
    obtain ⟨entry, _, assigns, _⟩ := List.forall₂_cons_left_iff.mp each
    exact upperChar_ne_of_assigns shown assigns capital

/-- What the limits take for the segments of a text is, up to blanks, what the text presents. -/
theorem map_trim_split_body {body text : Text} (presented : Presents limits body text)
    {entries : List (Part × Text)} {r : Rule}
    (given : Gives limits (filled (Text.split ';' body)) entries r) :
    (Text.split ';' (Rule.body limits text)).map trim = (Text.split ';' body).map trim := by
  cases presented with
  | alone =>
    -- the property name is looked for behind the blanks in front, where the first segment begins
    have pieces := Text.map_trim_split_trim (show Text.isBlank ';' = false from rfl) body
    have unmarked : Text.upper ((trim body).take mark.length) ≠ mark := by
      obtain ⟨trimmed, given⟩ := given.of_trim_eq pieces.symm
      exact upper_take_ne_mark given
    unfold Rule.body
    dsimp only
    rwa [if_neg fun both => unmarked both.2]
  | @marked front name accept blank alike =>
    have length : mark.length = name.length := alike.length_eq
    have capitals : Text.upper name = mark := alike.upper_eq.symm
    have nonempty : name ≠ [] := List.ne_nil_of_length_pos (length ▸ by decide)
    have shown : ∀ c ∈ name, Text.isBlank c = false := fun c =>
      Text.shown_of_upper (capitals ▸ rfl)
    obtain ⟨rest, back, trimmed, whole, blankBack⟩ := Text.exists_trim_append nonempty shown body
    have found : Rule.body limits (front ++ name ++ body) = rest := by
      refine hasBody_iff.mp (.marked accept alike (Text.trims_iff.mpr ?_))
      rw [List.append_assoc, Text.trim_append_of_blank blank, trimmed]
    rw [found, whole, Text.map_trim_split_append_blank rfl blankBack]

end Segments

/-- How a rule is presented does not matter. When a text is read as a rule, so is every text within
the length limit that presents other ways to write it: its segments in any order and with blank
segments among them or without, with any blanks around keys, values and items, with keys, the
frequency and weekday codes in any case, with zeros before the interval, the count, the numbers
of lists and ordinals up to the permitted digits, with a plus before numbers of lists with signs
and before ordinals, and with the property name in any case in front where the limits admit it. -/
theorem read_of_reworded {limits : Limits} {text body other : Text} {r : Rule}
    (given : read limits text = .ok r)
    (steps : Relation.ReflTransGen RewordsBody (Rule.body limits text) body)
    (presented : Presents limits body other) (short : other.length ≤ limits.maxTextLength) :
    read limits other = .ok r := by
  obtain ⟨_, started⟩ := read_eq_ok_iff.mp given
  obtain ⟨entries, gives⟩ := gives_of_reworded steps started
  have pieces := map_trim_split_body presented gives
  exact read_eq_ok_iff.mpr ⟨short, gives.of_trim_eq pieces.symm⟩

/-- The second Friday of each month, and the same in small letters, with a plus and a zero, the
other way round, and with blanks and blank segments behind the property name. -/
theorem read_of_reworded_secondFriday :
    let text := "FREQ=MONTHLY;BYDAY=2FR".toList
    let body := ";ByDay = +02fr ;;freq=monthly".toList
    let other := " rRule:;ByDay = +02fr ;;freq=monthly".toList
    let r := ofSettings [.frequency .monthly, .list .weekday [.nth (.int 2) (.weekday .friday)]]
    read {} text = .ok r ∧ Relation.ReflTransGen RewordsBody (Rule.body {} text) body ∧
      Presents {} body other ∧ other.length ≤ ({} : Limits).maxTextLength ∧
        read {} other = .ok r := by
  intro text body other r
  let small : Text := ['f', 'r', 'e', 'q'] ++ '=' :: ['m', 'o', 'n', 't', 'h', 'l', 'y']
  let key : Text := ['B', 'y', 'D', 'a', 'y', ' ']
  let second (ordinal : Text) : Text := key ++ '=' :: (' ' :: ordinal ++ ['f', 'r', ' '])
  have two : Text.IsNumeral mostOrdinalDigits ['2'] :=
    ⟨List.cons_ne_nil _ _, List.forall_mem_singleton.mpr rfl, by decide⟩
  have frequency : RewordsSegment (segment .frequency Frequency.monthly.name) small :=
    .parts .frequency (by decide) (by decide) rfl rfl (.letters (.inl rfl) rfl)
  have letters : RewordsSegment (segment (.list .weekday) ['2', 'F', 'R']) (second ['2']) :=
    .parts (.list .weekday) (by decide) (by decide) rfl rfl (.items (.cons (.letters rfl rfl) .nil))
  have plus : RewordsSegment (second ['2']) (second ['+', '2']) := by
    have token : ListPart.weekday.Rewords (['2'] ++ ['f', 'r']) ('+' :: ['2'] ++ ['f', 'r']) :=
      .plus (by decide) two ⟨.friday, rfl⟩
    exact .parts (.list .weekday) (by decide) (by decide) rfl rfl (.items (.cons token .nil))
  have zero : RewordsSegment (second ['+', '2']) (second ['+', '0', '2']) := by
    have token : ListPart.weekday.Rewords (['+'] ++ ['2'] ++ ['f', 'r'])
        (['+'] ++ (List.replicate 1 '0' ++ ['2']) ++ ['f', 'r']) :=
      .zeros 1 (.inr ⟨by decide, .inl rfl⟩) two (by decide) ⟨.friday, rfl⟩
    exact .parts (.list .weekday) (by decide) (by decide) rfl rfl (.items (.cons token .nil))
  have steps : Relation.ReflTransGen RewordsBody (Rule.body {} text) body := by
    have reworded : RewordsBody (Rule.body {} text) (small ++ ';' :: second ['2']) :=
      .segments (.cons frequency (.cons letters .nil))
    have signed : RewordsBody (small ++ ';' :: second ['2']) (small ++ ';' :: second ['+', '2']) :=
      .segments (.cons (.same small) (.cons plus .nil))
    have padded : RewordsBody (small ++ ';' :: second ['+', '2'])
        (small ++ ';' :: second ['+', '0', '2']) :=
      .segments (.cons (.same small) (.cons zero .nil))
    have turned : RewordsBody (small ++ ';' :: second ['+', '0', '2'])
        (second ['+', '0', '2'] ++ ';' :: small) :=
      .order (.swap (second ['+', '0', '2']) small [])
    have spread : RewordsBody (second ['+', '0', '2'] ++ ';' :: small) body := .blanks rfl
    exact ((((Relation.ReflTransGen.single reworded).tail signed).tail padded).tail turned).tail spread
  have given : read {} text = .ok r := rfl
  have presented : Presents {} body other :=
    @Presents.marked {} body [' '] ['r', 'R', 'u', 'l', 'e', ':'] rfl rfl rfl
  have short : other.length ≤ ({} : Limits).maxTextLength := by decide
  exact ⟨given, steps, presented, short, read_of_reworded given steps presented short⟩

end Rule

end Recurrence
