import Recurrence.Proofs.Calendar.TimestampExchange
import Recurrence.Proofs.Session.Cutting

namespace Recurrence

namespace Schedule

/-- An end that is given to a schedule without a count, and that is before the start, is what
the check objects to. -/
theorem check_ended_of_lt {s : Schedule} {start last : Timestamp} (checked : s.check start = .ok ())
    (uncounted : s.count = .none) (earlier : last.instant < start.instant) :
    (s.cutAt s.count (some last)).check start =
      .error (.diagnostic (.endBeforeStart last start.aware)) := by
  obtain ⟨ranges, parts, positions, _⟩ := check_ok_iff.mp checked
  have placed : ¬(!s.setPositions.isEmpty && !s.hasListPart) = true := by
    intro refused
    simp only [Bool.and_eq_true, Bool.not_eq_true', List.isEmpty_eq_false_iff] at refused
    exact Bool.false_ne_true (refused.2.symm.trans (positions refused.1))
  have none : ¬(s.count != .none) = true := by simp [uncounted]
  -- the stages before the one for the end do not look at it
  have sameRanges : (s.cutAt s.count (some last)).checkRanges = .ok () := ranges
  have sameParts : (s.cutAt s.count (some last)).checkFrequencyParts = .ok () := parts
  unfold check
  rw [sameRanges, sameParts]
  change (if (!s.setPositions.isEmpty && !s.hasListPart) = true then _ else _) = _
  rw [if_neg placed]
  change (if (s.count != .none) = true then _ else _) = _
  rw [if_neg none]
  change (if last.instant < start.instant then _ else _) = _
  rw [if_pos earlier]
  rfl

end Schedule

namespace Rule

variable {r : Rule} {start : Datum} {u : Timestamp}

/-- The end that a rule takes over is compared with the start after it was cut to
milliseconds, while the start is compared as it is. -/
theorem validate_replace_ends (valid : r.validate start = .ok ()) (uncounted : r.count = .none)
    (within : u.IsWithinYears) :
    ∃ moment last ended, readStart start = .ok moment ∧ u.normalize? = some last ∧
      r.replace [(endName, .moment u)] = .ok ended ∧
      (moment.instant ≤ u.instant - u.instant % 1000 → ended.validate start = .ok ()) ∧
      (u.instant - u.instant % 1000 < moment.instant →
        ended.validate start =
          .error (.objection (.refused (.endBeforeStart last moment.aware)))) := by
  obtain ⟨moment, schedule, begun, settles, checked⟩ := validate_ok_iff.mp valid
  have free : schedule.count = .none := settles.sameCount.trans uncounted
  obtain ⟨last, normal, known, replaced⟩ | ⟨missing, _⟩ := r.replace_ends u
  · obtain ⟨_, cut⟩ := Timestamp.instant_of_normalize? known
    refine ⟨moment, last, _, begun, known, replaced, ?_, ?_⟩ <;> rw [← cut]
    · exact (settles.validate_put_ends_iff checked free begun last normal).mpr
    · intro earlier
      have made := toSchedule_ok_iff.mpr (settles.put_ends last normal)
      unfold validate
      rw [begun, made]
      exact congrArg (Except.mapError Rejection.ofRefusal)
        (Schedule.check_ended_of_lt checked free earlier)
  · obtain ⟨last, known⟩ := Timestamp.exists_normalize?_iff.mpr within
    cases missing.symm.trans known

/-- A rule without a count that is valid from a start on takes over every end that is within
the years. It is then valid just when the end, cut to whole milliseconds, is not before the
start, and otherwise that is the objection to it. With whole milliseconds on either side
nothing is lost by the cut, and the start itself is accepted for an end just when it has whole
milliseconds. -/
theorem validate_replace_ends_iff (valid : r.validate start = .ok ()) (uncounted : r.count = .none)
    (within : u.IsWithinYears) :
    ∃ moment last ended, readStart start = .ok moment ∧ u.normalize? = some last ∧
      r.replace [(endName, .moment u)] = .ok ended ∧
      (ended.validate start = .ok () ↔ moment.instant ≤ u.instant - u.instant % 1000) ∧
      (ended.validate start ≠ .ok () → ended.validate start =
        .error (.objection (.refused (.endBeforeStart last moment.aware)))) ∧
      (moment.instant % 1000 = 0 ∨ u.instant % 1000 = 0 →
        (ended.validate start = .ok () ↔ moment.instant ≤ u.instant)) ∧
      (u.instant = moment.instant →
        (ended.validate start = .ok () ↔ moment.instant % 1000 = 0)) := by
  obtain ⟨moment, last, ended, begun, known, replaced, accepted, refused⟩ :=
    validate_replace_ends valid uncounted within
  have decided : ended.validate start = .ok () ↔ moment.instant ≤ u.instant - u.instant % 1000 := by
    refine ⟨fun fits => ?_, accepted⟩
    by_contra earlier
    cases fits.symm.trans (refused (by omega))
  refine ⟨moment, last, ended, begun, known, replaced, decided, ?_, ?_, ?_⟩
  · rw [ne_eq, decided]
    exact fun earlier => refused (by omega)
  · intro whole
    rw [decided]
    omega
  · intro same
    rw [decided, same]
    omega

/-- A quarter of a second past ten on the sixth of January 2025, two hours ahead of UTC. -/
def pastTen : Timestamp where
  seconds := 63871754400
  micros := 250000
  offset := some 7200
  seconds_lt := by decide
  micros_lt := by decide

/-- Half a millisecond later. -/
def betweenMillis : Timestamp := { pastTen with micros := 250500, micros_lt := by decide }

/-- From a start with whole milliseconds on, a rule may end half a millisecond later, at
the start itself and not before. -/
theorem validate_replace_ends_iff_pastTen :
    Work.secondDays.validate (.moment pastTen) = .ok () ∧ Work.secondDays.count = .none ∧
      (∃ ended, Work.secondDays.replace [(endName, .moment pastTen)] = .ok ended ∧
        ended.validate (.moment pastTen) = .ok ()) ∧
      (∃ ended, Work.secondDays.replace [(endName, .moment betweenMillis)] = .ok ended ∧
        ended.validate (.moment pastTen) = .ok ()) ∧
      ∃ ended, Work.secondDays.replace [(endName, .moment Work.midnight)] = .ok ended ∧
        ended.validate (.moment pastTen) ≠ .ok () := by
  have valid : Work.secondDays.validate (.moment pastTen) = .ok () := rfl
  have uncounted : Work.secondDays.count = .none := rfl
  obtain ⟨_, _, same, begun, _, replaced, decided, _⟩ :=
    validate_replace_ends_iff (u := pastTen) valid uncounted (by decide)
  cases begun
  obtain ⟨_, _, later, begun, _, laterReplaced, laterDecided, _⟩ :=
    validate_replace_ends_iff (u := betweenMillis) valid uncounted (by decide)
  cases begun
  obtain ⟨_, _, early, begun, _, earlyReplaced, earlyDecided, _⟩ :=
    validate_replace_ends_iff (u := Work.midnight) valid uncounted (by decide)
  cases begun
  exact ⟨valid, uncounted, ⟨same, replaced, decided.mpr (by decide)⟩,
    ⟨later, laterReplaced, laterDecided.mpr (by decide)⟩, early, earlyReplaced,
    mt earlyDecided.mp (by decide)⟩

/-- A start with a part of a millisecond is refused for an end, although it is not before
itself. -/
theorem not_valid_until_betweenMillis :
    ¬∀ (r : Rule) (start u : Timestamp), r.validate (.moment start) = .ok () → r.count = .none →
      r.ends = .none → u.IsWithinYears →
      ∃ ended, r.replace [(endName, .moment u)] = .ok ended ∧
        (ended.validate (.moment start) = .ok () ↔ start.instant ≤ u.instant) := by
  intro always
  have valid : Work.secondDays.validate (.moment betweenMillis) = .ok () := rfl
  have within : betweenMillis.IsWithinYears := by decide
  obtain ⟨ended, replaced, decided⟩ := always _ betweenMillis betweenMillis valid rfl rfl within
  obtain ⟨_, _, other, begun, _, again, _, refused⟩ := validate_replace_ends valid rfl within
  cases begun
  cases replaced.symm.trans again
  cases (decided.mpr le_rfl).symm.trans (refused (by decide))

end Rule

end Recurrence
