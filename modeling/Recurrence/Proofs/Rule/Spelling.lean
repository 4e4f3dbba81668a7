import Recurrence.Proofs.Rule.Rewording
import Recurrence.Proofs.Text.LookAlikes

namespace Recurrence

open Text (trim plain IsAscii LooksAscii)

theorem Part.isWord_key (part : Part) : Text.isWord part.key = true := by
  cases part with
  | list part => cases part <;> rfl
  | _ => rfl

theorem Frequency.isWord_name (f : Frequency) : Text.isWord f.name = true := by
  cases f <;> rfl

theorem Weekday.isWord_code (day : Weekday) : Text.isWord day.code = true := by
  cases day <;> rfl

namespace Text

/-- Digits and signs come before the letters. -/
theorem IsNumeral.early {most : Nat} {digits : Text} (numeral : IsNumeral most digits) :
    ∀ d ∈ digits, isToken d = true ∧ d.toNat < 65 := by
  intro d member
  have digit := numeral.all_isDigit d member
  refine ⟨isToken_of_isDigit digit, ?_⟩
  simp only [isDigit, Bool.and_eq_true, decide_eq_true_eq] at digit
  omega

theorem IsSigned.early {most : Nat} {text : Text} {n : Int} (signed : IsSigned most text n) :
    ∀ d ∈ text, isToken d = true ∧ d.toNat < 65 := by
  cases signed with
  | plain numeral => exact numeral.early
  | plus numeral => exact List.forall_mem_cons.mpr ⟨by decide, numeral.early⟩
  | minus numeral => exact List.forall_mem_cons.mpr ⟨by decide, numeral.early⟩

theorem isAscii_of_early {t : Text} (early : ∀ d ∈ t, isToken d = true ∧ d.toNat < 65) : IsAscii t :=
  fun d member => (early d member).2.trans (by decide)

theorem isAscii_of_read {t : Text} {stamp : Timestamp} (trimmed : trim t = t)
    (read : Timestamp.read t = .ok stamp) : IsAscii t := by
  unfold Timestamp.read at read
  dsimp only at read
  rw [trimmed] at read
  split at read
  · cases read
  · split at read
    · cases read
    · cases read
    · rename_i found
      unfold Timestamp.readTrimmed at found
      split at found
      · cases found
      · rename_i ascii
        intro c member
        exact of_decide_eq_true (List.all_eq_true.mp (not_not.mp ascii) c member)

end Text

/-- Whether an item of a list part is in ASCII, look-alikes in the code of a weekday apart. -/
def ListPart.Spells (part : ListPart) (token : Text) : Prop :=
  match part with
  | .weekday => ∃ ordinal code, token = ordinal ++ code ∧ IsAscii ordinal ∧ LooksAscii code
  | _ => IsAscii token

/-- Whether the value of a part is in ASCII, look-alikes in frequencies and in the codes of weekdays
apart. The items of a list may have any blanks around them. -/
def Part.Spells (part : Part) (value : Text) : Prop :=
  match part with
  | .frequency | .weekStart => LooksAscii value
  | .list part => ∀ token ∈ (Text.split ',' value).map trim, part.Spells token
  | _ => IsAscii value

theorem ListPart.spells_of_admits {part : ListPart} {token : Text} (admits : part.Admits token) :
    part.Spells token := by
  cases part with
  | weekday =>
    obtain ⟨ordinal, day, capitals, written⟩ := admits
    have early : ∀ d ∈ ordinal, Text.isToken d = true ∧ d.toNat < 65 := by
      rcases written with rfl | ⟨n, signed, _⟩
      · exact List.forall_mem_nil _
      · exact signed.early
    obtain ⟨code, whole, known⟩ := Text.exists_of_upper_eq_append early capitals
    exact ⟨ordinal, code, whole, Text.isAscii_of_early early,
      Text.looksAscii_of_upper (known ▸ day.isWord_code)⟩
  | _ =>
    first
    | exact Text.isAscii_of_early admits.1.early
    | exact Text.isAscii_of_early admits.choose_spec.1.early

theorem Part.spells_of_admits {limits : Limits} {part : Part} {value : Text}
    (trimmed : trim value = value) (admits : part.Admits limits value) : part.Spells value := by
  cases part with
  | frequency =>
    obtain ⟨f, known⟩ := admits
    exact Text.looksAscii_of_upper (known ▸ f.isWord_name)
  | interval => exact Text.isAscii_of_early admits.1.early
  | count => exact Text.isAscii_of_early admits.1.early
  | ends =>
    obtain ⟨t, read⟩ := admits
    exact Text.isAscii_of_read trimmed read
  | weekStart =>
    obtain ⟨day, known⟩ := admits
    exact Text.looksAscii_of_upper (known ▸ day.isWord_code)
  | list part =>
    obtain ⟨items, itemized, _, admitted⟩ := admits
    obtain rfl := Text.itemizes_iff.mp itemized
    exact fun token member => ListPart.spells_of_admits (admitted token member)

namespace Rule

variable {limits : Limits}

/-- An item is read alike in its plain form. -/
theorem readItem_plain {part : ListPart} {token : Text} {d : Datum}
    (read : readItem part token = .ok d) : readItem part (plain token) = .ok d := by
  have spells := ListPart.spells_of_admits (readItem_ok_iff.mp ⟨d, read⟩)
  cases part with
  | weekday =>
    rw [readItem_eq_ok_iff, if_pos rfl] at read ⊢
    unfold readOccurrence? at read ⊢
    rwa [Text.upper_plain]
  | _ =>
    rw [Text.plain_of_isAscii spells]
    exact read

theorem readList_plain {part : ListPart} {value : Text} {items : List Datum}
    (read : readList limits part value = .ok items) :
    readList limits part (plain value) = .ok items := by
  have pieces : (Text.split ',' (plain value)).map trim =
      ((Text.split ',' value).map trim).map plain := by
    rw [Text.split_plain (by decide), List.map_map, List.map_map]
    exact List.map_congr_left fun token _ => Text.trim_plain token
  unfold readList at read ⊢
  dsimp only at read ⊢
  rw [pieces, List.length_map plain]
  split at read
  · cases read
  · rename_i few
    rw [if_neg few]
    rw [readItems_eq, Outcome.mapM_eq_ok_iff] at read ⊢
    rw [List.forall₂_map_left_iff]
    exact read.imp fun _ _ item => readItem_plain item

/-- A value is read alike in its plain form. -/
theorem readValue_plain {part : Part} {value : Text} {setting : Setting}
    (trimmed : trim value = value) (read : readValue limits part value = .ok setting) :
    readValue limits part (plain value) = .ok setting := by
  have spells := Part.spells_of_admits trimmed ((readValue_ok_iff trimmed).mp ⟨setting, read⟩)
  have kept : trim (plain value) = plain value := by rw [Text.trim_plain, trimmed]
  have capitals := (Text.upper_plain value).symm
  cases part with
  | frequency => exact readValue_of_upper_eq (.inl rfl) trimmed kept capitals read
  | weekStart => exact readValue_of_upper_eq (.inr rfl) trimmed kept capitals read
  | list part =>
    obtain ⟨items, listed, made⟩ := Outcome.map_eq_ok.mp read
    exact Outcome.map_eq_ok.mpr ⟨items, readList_plain listed, made⟩
  | _ =>
    rw [Text.plain_of_isAscii spells]
    exact read

/-- A segment gives the same in its plain form. -/
theorem keeps_plain (segment : Text) : Keeps limits segment (plain segment) := by
  refine ⟨(Text.isBlankText_plain segment).symm, ?_⟩
  rintro ⟨part, value⟩ assigns
  obtain ⟨key, after, rfl, free, named, rfl⟩ := assigns_iff.mp assigns
  refine ⟨plain (trim after), assigns_iff.mpr
    ⟨plain key, plain after, ?_, ?_, ?_, Text.trim_plain after⟩,
    fun setting read => readValue_plain (Text.trim_trim after) read⟩
  · rw [Text.plain_append, Text.plain_cons]
    rfl
  · exact Text.notMem_plain (by decide) free
  · rw [Text.trim_plain, Text.upper_plain, named]

theorem exists_gives_plain {text : Text} {entries : List (Part × Text)} {r : Rule}
    (given : Gives limits (filled (Text.split ';' text)) entries r) :
    ∃ changed, Gives limits (filled (Text.split ';' (plain text))) changed r := by
  rw [Text.split_plain (by decide)]
  exact given.keeps (List.forall₂_map_right_iff.mpr (List.forall₂_same.mpr fun _ _ => keeps_plain _))

/-- The plain form of a text presents, plain, what the text presents. -/
theorem exists_presents_plain (limits : Limits) (text : Text) :
    ∃ rest, (Text.split ';' rest).map trim = (Text.split ';' (body limits text)).map trim ∧
      Presents limits (plain rest) (plain text) := by
  have has : HasBody limits text (body limits text) := hasBody_iff.mpr rfl
  generalize body limits text = found at has ⊢
  cases has with
  | @marked name _ accept same trims =>
    obtain ⟨front, back, blankFront, blankBack, rfl⟩ := trims.around
    have ascii : IsAscii name := isAscii_of_upper_eq_mark (upper_eq_mark_iff.mpr same)
    refine ⟨found ++ back, Text.map_trim_split_append_blank rfl blankBack _, ?_⟩
    have split : plain (front ++ (name ++ found) ++ back) = front ++ name ++ plain (found ++ back) := by
      simp only [Text.plain_append, Text.plain_of_blank blankFront, Text.plain_of_isAscii ascii,
        List.append_assoc]
    exact split ▸ .marked accept blankFront same
  | plain trims _ =>
    obtain rfl := Text.trims_iff.mp trims
    exact ⟨text, (Text.map_trim_split_trim rfl text).symm, .alone⟩

theorem read_plain {text : Text} {r : Rule} (given : read limits text = .ok r)
    (short : (plain text).length ≤ limits.maxTextLength) : read limits (plain text) = .ok r := by
  obtain ⟨_, entries, gives⟩ := read_eq_ok_iff.mp given
  obtain ⟨rest, same, presented⟩ := exists_presents_plain limits text
  obtain ⟨_, gives⟩ := gives.of_trim_eq same.symm
  obtain ⟨_, gives⟩ := exists_gives_plain gives
  have pieces := map_trim_split_body presented gives
  exact read_eq_ok_iff.mpr ⟨short, gives.of_trim_eq pieces.symm⟩

/-- Whether each character is a blank, is ASCII or is a look-alike. -/
def IsSpelled (t : Text) : Prop :=
  ∀ c ∈ t, Text.isBlank c = true ∨ c.toNat < 128 ∨ Text.isLookAlike c = true

theorem isSpelled_of_trim {t : Text} (spelled : IsSpelled (trim t)) : IsSpelled t := by
  obtain ⟨front, back, blankFront, blankBack, whole⟩ := Text.exists_blanks_around t
  intro c member
  rw [whole, List.mem_append, List.mem_append] at member
  rcases member with (inFront | inside) | inBack
  · exact .inl (List.all_eq_true.mp blankFront c inFront)
  · exact spelled c inside
  · exact .inl (List.all_eq_true.mp blankBack c inBack)

theorem isSpelled_of_split (sep : Char) (ascii : sep.toNat < 128) {t : Text}
    (each : ∀ piece ∈ Text.split sep t, IsSpelled piece) : IsSpelled t := by
  intro c member
  rw [← Text.join_split sep t] at member
  rcases Text.mem_join member with inSep | ⟨piece, among, inside⟩
  · rw [List.mem_singleton.mp inSep]
    exact .inr (.inl ascii)
  · exact each piece among c inside

theorem isSpelled_of_isAscii {t : Text} (ascii : IsAscii t) : IsSpelled t :=
  fun c member => .inr (.inl (ascii c member))

theorem isSpelled_of_looksAscii {t : Text} (looks : LooksAscii t) : IsSpelled t :=
  fun c member => .inr (looks c member)

theorem isSpelled_of_spells {part : Part} {value : Text} (spells : part.Spells value) :
    IsSpelled value := by
  cases part with
  | frequency => exact isSpelled_of_looksAscii spells
  | weekStart => exact isSpelled_of_looksAscii spells
  | list part =>
    refine isSpelled_of_split ',' (by decide) fun piece among => isSpelled_of_trim ?_
    have spells := spells (trim piece) (List.mem_map_of_mem among)
    cases part with
    | weekday =>
      obtain ⟨ordinal, code, whole, ascii, looks⟩ := spells
      intro c member
      rw [whole] at member
      rcases List.mem_append.mp member with inOrdinal | inCode
      · exact isSpelled_of_isAscii ascii c inOrdinal
      · exact isSpelled_of_looksAscii looks c inCode
    | _ => exact isSpelled_of_isAscii spells
  | _ => exact isSpelled_of_isAscii spells

/-- Whether a segment gives a value to a part with a key and a value that are in ASCII between the
blanks around them, look-alikes in keys, frequencies and codes apart. -/
def SpellsPart (segment : Text) : Prop :=
  ∃ part key value, segment = key ++ '=' :: value ∧ '=' ∉ key ∧ Text.upper (trim key) = Part.key part ∧
    LooksAscii (trim key) ∧ part.Spells (trim value)

theorem spellsPart_of_assigns {segment : Text} {entry : Part × Text} (assigns : Assigns segment entry)
    (admits : entry.1.Admits limits entry.2) : SpellsPart segment := by
  obtain ⟨key, value, whole, free, named, same⟩ := assigns_iff.mp assigns
  have inKey : LooksAscii (trim key) := Text.looksAscii_of_upper (named ▸ entry.1.isWord_key)
  have inValue := Part.spells_of_admits (same ▸ Text.trim_trim value) admits
  exact ⟨entry.1, key, value, whole, free, named, inKey, same ▸ inValue⟩

theorem isSpelled_of_spellsPart {segment : Text} (spells : SpellsPart segment) :
    IsSpelled segment := by
  obtain ⟨part, key, value, rfl, _, _, inKey, inValue⟩ := spells
  intro c member
  rcases List.mem_append.mp member with before | after
  · exact isSpelled_of_trim (isSpelled_of_looksAscii inKey) c before
  · rcases List.mem_cons.mp after with rfl | after
    · exact .inr (.inl (by decide))
    · exact isSpelled_of_trim (isSpelled_of_spells inValue) c after

/-- All of a text is spelled when the segments that count in it are. -/
theorem isSpelled_of_textSegments {text : Text}
    (each : ∀ segment ∈ textSegments limits text, IsSpelled segment) : IsSpelled text := by
  have inBody : IsSpelled (body limits text) := by
    refine isSpelled_of_split ';' (by decide) fun segment among => ?_
    cases blank : Text.isBlankText segment with
    | true => exact fun c member => .inl (List.all_eq_true.mp blank c member)
    | false =>
      refine each segment (List.mem_filter.mpr ⟨among, ?_⟩)
      rw [any_shown_eq, blank]
      rfl
  have has : HasBody limits text (body limits text) := hasBody_iff.mpr rfl
  generalize body limits text = found at has inBody
  refine isSpelled_of_trim ?_
  cases has with
  | @marked name _ _ same trims =>
    rw [Text.trims_iff.mp trims]
    intro c member
    rcases List.mem_append.mp member with inName | inside
    · exact .inr (.inl (isAscii_of_upper_eq_mark (upper_eq_mark_iff.mpr same) c inName))
    · exact inBody c inside
  | plain trims _ =>
    rw [Text.trims_iff.mp trims]
    exact inBody

/-- How a text that is read as a rule may depart from ASCII. All its characters are blanks, ASCII or
one of the four look-alikes. Between the blanks around them, keys, frequencies and the codes of
weekdays are in ASCII with look-alikes, and all other values are in ASCII, the ordinals before the
codes included. The plain form, in which capitals replace the look-alikes, is read as the same rule
when it is not too long. -/
theorem read_spelled {text : Text} {r : Rule} (given : read limits text = .ok r) :
    (∀ c ∈ text, Text.isBlank c = true ∨ c.toNat < 128 ∨ Text.isLookAlike c = true) ∧
      (∀ segment ∈ textSegments limits text, SpellsPart segment) ∧
      ((plain text).length ≤ limits.maxTextLength → read limits (plain text) = .ok r) := by
  obtain ⟨_, entries, listed, _, admitted⟩ := isRuleText_iff.mp (read_ok_iff.mp ⟨r, given⟩)
  have each : ∀ segment ∈ textSegments limits text, SpellsPart segment := by
    intro segment among
    obtain ⟨entry, member, assigns⟩ := Outcome.exists_of_mem_left listed.each among
    exact spellsPart_of_assigns assigns (admitted entry member)
  have spelled : IsSpelled text := isSpelled_of_textSegments fun segment among =>
    isSpelled_of_spellsPart (each segment among)
  exact ⟨spelled, each, read_plain given⟩

/-- A ligature in the key of the start of the week, the long s in the codes of days and the dotless i
in a frequency are read as the letters that they look like. -/
theorem read_spelled_lookAlikes :
    let text := "WK\uFB06=\u017Fu;FREQ=DA\u0131LY;BYDAY=-1\u017Fa".toList
    let other := "WKST=Su;FREQ=DAILY;BYDAY=-1Sa".toList
    let r := ofSettings [.weekStart .sunday, .frequency .daily,
      .list .weekday [.nth (.int (-1)) (.weekday .saturday)]]
    read {} text = .ok r ∧ ¬IsAscii text ∧ plain text = other ∧ IsAscii other ∧
      read {} other = .ok r := by
  intro text other r
  have given : read {} text = .ok r := by rfl
  have beyond : ¬IsAscii text := fun ascii =>
    absurd (ascii '\u0131' (by decide +kernel)) (by decide)
  have replaced : plain text = other := by decide +kernel
  have ascii : IsAscii other := fun c member => of_decide_eq_true
    (List.all_eq_true.mp (show (other.all fun c => c.toNat < 128) = true by decide +kernel) c member)
  have short : (plain text).length ≤ ({} : Limits).maxTextLength := by decide +kernel
  exact ⟨given, beyond, replaced, ascii, replaced ▸ (read_spelled given).2.2 short⟩

end Rule

end Recurrence
