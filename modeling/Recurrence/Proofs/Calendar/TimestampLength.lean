import Recurrence.Proofs.Calendar.UtcClock
import Recurrence.Proofs.Outcome
import Recurrence.Proofs.Text.Trimming

namespace Recurrence

namespace Text

theorem length_of_takeNat? {count n : Nat} {t rest : Text}
    (taken : takeNat? count t = some (n, rest)) : t.length = count + rest.length := by
  unfold takeNat? at taken
  dsimp only at taken
  split at taken
  · rename_i front
    cases taken
    have whole := congrArg List.length (List.take_append_drop count t)
    rw [List.length_append, front.1] at whole
    exact whole.symm
  · cases taken

/-- A reading that begins with a number goes on with the text after it. -/
theorem of_takeNat?_bind {α : Type} {count : Nat} {t : Text} {next : Nat × Text → Option α} {a : α}
    (found : takeNat? count t >>= next = some a) :
    ∃ n rest, t.length = count + rest.length ∧ next (n, rest) = some a := by
  obtain ⟨⟨n, rest⟩, taken, found⟩ := Option.bind_eq_some_iff.mp found
  exact ⟨n, rest, length_of_takeNat? taken, found⟩

end Text

namespace Timestamp

open Text (takeNat? of_takeNat?_bind)

/-- A date begins with a year of four digits. -/
theorem length_of_calendarDate? {t rest : Text} {date : Date}
    (found : calendarDate? t = some (date, rest)) : 4 + rest.length ≤ t.length := by
  unfold calendarDate? at found
  obtain ⟨year, afterYear, length, found⟩ := of_takeNat?_bind found
  dsimp only at found
  split at found
  · cases found
    rw [length]
  · obtain ⟨month, afterMonth, shorter, found⟩ := of_takeNat?_bind found
    dsimp only at found
    rw [List.length_cons] at length
    split at found
    · cases found
      omega
    · obtain ⟨day, afterDay, shortest, found⟩ := of_takeNat?_bind found
      cases found
      rw [List.length_cons] at shorter
      dsimp only
      omega
    · cases found
  · obtain ⟨month, afterMonth, shorter, found⟩ := of_takeNat?_bind found
    obtain ⟨day, afterDay, shortest, found⟩ := of_takeNat?_bind found
    cases found
    dsimp only at shortest ⊢
    omega

theorem need_eq_ok {α : Type} {x : Option α} {a : α} : need x = .ok a ↔ x = some a := by
  cases x with
  | none => exact iff_of_false (fun made => nomatch made) fun made => nomatch made
  | some b => rw [need, Except.ok.injEq, Option.some.injEq]

theorem of_need_takeNat?_bind {α : Type} {count : Nat} {t : Text}
    {next : Nat × Text → Except Misread α} {a : α}
    (found : need (takeNat? count t) >>= next = .ok a) :
    ∃ n rest, t.length = count + rest.length ∧ next (n, rest) = .ok a := by
  obtain ⟨⟨n, rest⟩, taken, found⟩ := Outcome.bind_eq_ok.mp found
  exact ⟨n, rest, Text.length_of_takeNat? (need_eq_ok.mp taken), found⟩

theorem length_of_ordinalDate {t rest : Text} {date : Date}
    (found : ordinalDate t = .ok (date, rest)) : 4 + rest.length ≤ t.length := by
  unfold ordinalDate at found
  obtain ⟨year, afterYear, length, found⟩ := of_need_takeNat?_bind found
  have closed {made : Except Misread Date} {left : Text}
      (found : (made >>= fun date => pure (date, left)) = .ok (date, rest)) : left = rest := by
    obtain ⟨_, _, found⟩ := Outcome.bind_eq_ok.mp found
    cases found
    rfl
  dsimp only at found
  split at found
  · rename_i afterMark week
    have front : ('W' :: afterMark).length ≤ afterYear.length := by
      rw [← week]
      split
      · exact Nat.le_succ _
      · exact Nat.le_refl _
    rw [List.length_cons] at front
    obtain ⟨number, afterWeek, shorter, found⟩ := of_need_takeNat?_bind found
    dsimp only at found
    split at found
    · obtain rfl := closed found
      exact length ▸ Nat.le_add_right ..
    · obtain ⟨day, afterDay, shortest, found⟩ := of_need_takeNat?_bind found
      obtain rfl := closed found
      rw [List.length_cons] at shorter
      dsimp only
      omega
    · cases found
    · cases found
    · obtain ⟨day, afterDay, shortest, found⟩ := of_need_takeNat?_bind found
      obtain rfl := closed found
      dsimp only
      omega
  · obtain ⟨ordinal, afterDay, shorter, found⟩ := of_need_takeNat?_bind found
    obtain rfl := closed found
    have front : 3 + afterDay.length ≤ afterYear.length := by
      rw [← shorter]
      split
      · exact Nat.le_succ _
      · exact Nat.le_refl _
    dsimp only
    omega

theorem length_of_readDate {t rest : Text} {date : Date} (found : readDate t = .ok (date, rest)) :
    4 + rest.length ≤ t.length := by
  unfold readDate at found
  split at found
  · rename_i calendar
    cases found
    exact length_of_calendarDate? calendar
  · exact length_of_ordinalDate found

theorem micros_of_readClockEnd? {clock result : Clock} {t : Text}
    (found : readClockEnd? clock t = some result) : result.micros = clock.micros := by
  unfold readClockEnd? at found
  split at found
  · cases found
    rfl
  · obtain ⟨offset, _, rfl⟩ := Option.map_eq_some_iff.mp found
    rfl

/-- A fraction takes a mark and a digit. -/
theorem length_of_readFraction? {clock result : Clock} {t : Text}
    (found : readFraction? clock t = some result) :
    result.micros = clock.micros ∨ 2 ≤ t.length := by
  unfold readFraction? at found
  split at found
  · cases found
    exact .inl rfl
  · rename_i mark rest
    dsimp only at found
    split at found
    · rename_i digits
      right
      cases rest with
      | nil => exact absurd rfl digits.2
      | cons => exact Nat.le_add_left ..
    · split at found
      · exact .inl (micros_of_readClockEnd? found)
      · cases found

theorem length_of_readSecond? {clock result : Clock} {colons : Bool} {t : Text}
    (found : readSecond? clock colons t = some result) :
    result.micros = clock.micros ∨ 4 ≤ t.length := by
  unfold readSecond? at found
  split at found
  · cases found
    exact .inl rfl
  · rename_i c rest
    split at found
    · exact .inl (micros_of_readClockEnd? found)
    · have digits (text : Text) (shorter : text.length ≤ (c :: rest).length)
          (found : (takeNat? 2 text >>= fun taken =>
            readFraction? { clock with second := taken.1 } taken.2) = some result) :
          result.micros = clock.micros ∨ 4 ≤ (c :: rest).length := by
        obtain ⟨second, afterSecond, length, found⟩ := of_takeNat?_bind found
        refine (length_of_readFraction? found).imp_right fun fraction => ?_
        dsimp only at fraction
        omega
      dsimp only at found
      split at found
      · split at found
        · exact digits rest (Nat.le_succ _) found
        · cases found
      · exact digits (c :: rest) (Nat.le_refl _) found

theorem length_of_readMinute? {clock result : Clock} {t : Text}
    (found : readMinute? clock t = some result) :
    result.micros = clock.micros ∨ 6 ≤ t.length := by
  unfold readMinute? at found
  split at found
  · cases found
    exact .inl rfl
  · rename_i c rest
    split at found
    · exact .inl (micros_of_readClockEnd? found)
    · have digits (colons : Bool) (text : Text) (shorter : text.length ≤ (c :: rest).length)
          (found : (takeNat? 2 text >>= fun taken =>
            readSecond? { clock with minute := taken.1 } colons taken.2) = some result) :
          result.micros = clock.micros ∨ 6 ≤ (c :: rest).length := by
        obtain ⟨minute, afterMinute, length, found⟩ := of_takeNat?_bind found
        refine (length_of_readSecond? found).imp_right fun second => ?_
        dsimp only at second
        omega
      by_cases colon : c = ':'
      · rw [if_pos colon] at found
        exact digits true rest (Nat.le_succ _) found
      · rw [if_neg colon] at found
        exact digits false (c :: rest) (Nat.le_refl _) found

/-- A time with a fraction of the second gives hours, minutes and seconds too. -/
theorem length_of_readClock? {clock : Clock} {t : Text} (found : readClock? t = some clock) :
    clock.micros = 0 ∨ 8 ≤ t.length := by
  unfold readClock? at found
  obtain ⟨_, _, found⟩ := Option.bind_eq_some_iff.mp found
  have kept {read : Option Clock}
      (found : (read >>= fun clock => do
        guard (clock.hour ≠ 24 ∨ (clock.minute = 0 ∧ clock.second = 0 ∧ clock.micros = 0))
        pure clock) = some clock) : read = some clock := by
    obtain ⟨other, read, checked⟩ := Option.bind_eq_some_iff.mp found
    obtain ⟨_, _, same⟩ := Option.bind_eq_some_iff.mp checked
    cases same
    exact read
  dsimp only at found
  split at found
  · cases found
  · rename_i c rest
    split at found
    · exact .inl (micros_of_readClockEnd? (kept found))
    · obtain ⟨hour, afterHour, length, found⟩ := of_takeNat?_bind found
      refine (length_of_readMinute? (kept found)).imp_right fun minute => ?_
      dsimp only at minute
      omega

theorem micros_of_make? {seconds : Int} {micros : Nat} {offset : Option Int} {t : Timestamp}
    (made : make? seconds micros offset = some t) : t.micros = micros := by
  unfold make? at made
  split at made <;> cases made
  rfl

theorem micros_of_assemble {date : Date} {clock : Clock} {t : Timestamp}
    (made : assemble date clock = .ok t) : t.micros = clock.micros := by
  unfold assemble at made
  dsimp only [bind, Except.bind] at made
  generalize (if clock.hour = 24 then 0 else clock.hour) = hour at made
  split at made
  · cases made
  · split at made
    · rename_i inside
      cases made
      exact micros_of_make? inside
    · cases made

theorem length_of_readTrimmed {t : Text} {stamp : Timestamp} (found : readTrimmed t = .ok stamp) :
    4 ≤ t.length ∧ (stamp.micros = 0 ∨ 13 ≤ t.length) := by
  unfold readTrimmed at found
  split at found
  · cases found
  · obtain ⟨⟨date, rest⟩, dated, found⟩ := Outcome.bind_eq_ok.mp found
    have length := length_of_readDate dated
    refine ⟨(Nat.le_add_right ..).trans length, ?_⟩
    dsimp only at found
    split at found
    · exact .inl (micros_of_assemble found)
    · obtain ⟨clock, timed, found⟩ := Outcome.bind_eq_ok.mp found
      rw [micros_of_assemble found]
      refine (length_of_readClock? (need_eq_ok.mp timed)).imp_right fun time => ?_
      rw [List.length_cons] at length
      omega

/-- A text that is read as a timestamp has a year, and where the second is not whole
a time with all its parts. -/
theorem length_of_read {text : Text} {t : Timestamp} (found : read text = .ok t) :
    4 ≤ text.length ∧ (t.micros = 0 ∨ 13 ≤ text.length) := by
  have shorter := Text.length_trim_le text
  unfold read at found
  dsimp only at found
  split at found
  · cases found
  · split at found
    · cases found
    · cases found
    · rename_i stamp inTrimmed
      split at found
      · rename_i utc inUtc
        cases found
        have length := length_of_readTrimmed inTrimmed
        rw [(parts_of_toUtc? inUtc).2.1]
        exact ⟨length.1.trans shorter, length.2.imp_right shorter.trans'⟩
      · cases found

/-- The compact form takes 16 characters, the extended one 20, and 24 with
milliseconds. -/
theorem length_utcText (basic : Bool) (t : Timestamp) :
    (t.utcText basic).length = if t.micros / 1000 = 0 then (if basic then 16 else 20) else 24 := by
  obtain ⟨year, month, day⟩ := Date.field_bounds t.date_isValid
  obtain ⟨hour, minute, second⟩ := t.clock_bounds
  have positive : 0 < 2 := by decide
  have years := Text.length_padded (by decide : 0 < 4) year
  have months := Text.length_padded positive month
  have days := Text.length_padded positive day
  have hours := Text.length_padded positive (by omega : t.hour < 10 ^ 2)
  have minutes := Text.length_padded positive (by omega : t.minute < 10 ^ 2)
  have seconds := Text.length_padded positive (by omega : t.second < 10 ^ 2)
  have millis : (Text.padded 3 (t.micros / 1000)).length = 3 := by
    have bound := t.micros_lt
    exact Text.length_padded (by decide) (by omega)
  have basicLength : t.basicText.length = 16 := by
    simp only [basicText, List.length_append, List.length_singleton, years, months, days, hours,
      minutes, seconds]
  have extendedLength : t.extendedText.length = if t.micros / 1000 = 0 then 20 else 24 := by
    simp only [extendedText, dateText, clockText, List.length_append, List.length_singleton, years,
      months, days, hours, minutes, seconds]
    split
    · rfl
    · rw [List.length_cons, millis]
  rw [utcText, apply_ite List.length, basicLength, extendedLength]
  by_cases whole : t.micros / 1000 = 0 <;> cases basic <;> simp [whole]

end Timestamp

end Recurrence
