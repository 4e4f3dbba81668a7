import Recurrence.Proofs.Run.Agreement
import Recurrence.Session.Occurrences

namespace Recurrence

namespace Schedule

/-- The instants that a schedule comes to from a start on, whatever clock shows them. -/
def instants (schedule : Schedule) (start : Timestamp) : Except Fault (Run Fault Int) :=
  (Series.ofSchedule schedule start).map fun series => series.occurrences.map Timestamp.instant

/-- Whether an instant is after a bound, or the same where that is included. -/
def isLater (bound : Timestamp) (inclusive : Bool) (instant : Int) : Bool :=
  bound.instant < instant || (inclusive && instant == bound.instant)

/-- Whether an instant is before a bound, or the same where that is included. -/
def isEarlier (bound : Timestamp) (inclusive : Bool) (instant : Int) : Bool :=
  instant < bound.instant || (inclusive && bound.instant == instant)

/-- The instants between two moments, where each may be missing. -/
def windowed (run : Run Fault Int) (after before : Option Timestamp) (inclusive : Bool) :
    Run Fault Int :=
  let late := match after with
    | none => run
    | some bound => run.filter (isLater bound inclusive)
  match before with
  | none => late
  | some bound => late.takeWhile (isEarlier bound inclusive)

theorem isLater_instant (bound t : Timestamp) (inclusive : Bool) :
    isLater bound inclusive t.instant = t.isPast bound inclusive := rfl

theorem isEarlier_instant (bound t : Timestamp) (inclusive : Bool) :
    isEarlier bound inclusive t.instant = bound.isPast t inclusive := rfl

theorem map_window (series : Series) (after before : Option Timestamp) (inclusive : Bool) :
    (series.window after before inclusive).map Timestamp.instant =
      windowed (series.occurrences.map Timestamp.instant) after before inclusive := by
  have late : (match after with
      | none => series.occurrences
      | some bound => series.occurrences.filter fun t => t.isPast bound inclusive).map
        Timestamp.instant =
      match after with
      | none => series.occurrences.map Timestamp.instant
      | some bound => (series.occurrences.map Timestamp.instant).filter (isLater bound inclusive) := by
    cases after with
    | none => rfl
    | some bound => exact Run.map_filter fun t _ => isLater_instant bound t inclusive
  unfold Series.window windowed
  cases before with
  | none => exact late
  | some bound =>
    dsimp only
    rw [← late]
    exact Run.map_takeWhile (isEarlier_instant bound · inclusive) _

theorem map_occurrences (schedule : Schedule) (start : Timestamp) (after before : Datum)
    (inclusive : Bool) :
    (schedule.occurrences start after before inclusive).map Timestamp.instant =
      Run.ofExcept do
        let run ← schedule.instants start
        return windowed run (← after.toBound) (← before.toBound) inclusive := by
  unfold occurrences instants
  cases Series.ofSchedule schedule start with
  | error fault => rfl
  | ok series =>
    cases after.toBound with
    | error fault => rfl
    | ok after =>
      cases before.toBound with
      | error fault => rfl
      | ok before => exact map_window series after before inclusive

theorem map_occurrenceAfter (schedule : Schedule) (start : Timestamp) (moment : Datum)
    (inclusive : Bool) :
    (schedule.occurrenceAfter start moment inclusive).map (Option.map Timestamp.instant) =
      (do
        let run ← schedule.instants start
        let bound ← moment.toMoment
        run.find? (isLater bound inclusive)) := by
  unfold occurrenceAfter instants
  cases Series.ofSchedule schedule start with
  | error fault => rfl
  | ok series =>
    cases moment.toMoment with
    | error fault => rfl
    | ok bound => exact (Run.find?_map (isLater_instant bound · inclusive) series.occurrences).symm

theorem map_occurrenceBefore (schedule : Schedule) (start : Timestamp) (moment : Datum)
    (inclusive : Bool) :
    (schedule.occurrenceBefore start moment inclusive).map (Option.map Timestamp.instant) =
      (do
        let run ← schedule.instants start
        let bound ← moment.toMoment
        run.lastWhile (isEarlier bound inclusive) none) := by
  unfold occurrenceBefore instants
  cases Series.ofSchedule schedule start with
  | error fault => rfl
  | ok series =>
    cases moment.toMoment with
    | error fault => rfl
    | ok bound => exact (Run.lastWhile_map (isEarlier_instant bound · inclusive) none series.occurrences).symm

/-- The instants that answer a query, of those that a schedule comes to. -/
def answered (query : Query) (schedule : Schedule) (limits : Limits) (begins : Int)
    (found : Except Fault (Run Fault Int)) : Run Fault Int :=
  let inside := Run.ofExcept do
    let run ← found
    return windowed run (← query.after.toBound) (← query.before.toBound) false
  let wanted := inside.filter fun i => query.includeStart || i != begins
  match query.limit schedule limits with
  | none => wanted
  | some n => wanted.cut n.toNat

theorem map_answer (query : Query) (schedule : Schedule) (start : Timestamp) (limits : Limits) :
    (query.answer schedule start limits).map Timestamp.instant =
      answered query schedule limits start.instant (schedule.instants start) := by
  have counts (run : Run Fault Timestamp) :
      (run.filter fun t => query.includeStart || t.instant != start.instant).map Timestamp.instant =
        (run.map Timestamp.instant).filter fun i => query.includeStart || i != start.instant :=
    Run.map_filter fun _ _ => rfl
  unfold Query.answer answered
  cases query.limit schedule limits with
  | none =>
    dsimp only
    rw [counts, map_occurrences]
  | some n =>
    dsimp only
    rw [Run.map_cut, counts, map_occurrences]

theorem agree_windowed {shows : Int → Prop} {left right : Run Fault Int}
    (agree : AgreeWhile shows left.items right.items) (after before : Option Timestamp)
    (inclusive : Bool) :
    AgreeWhile shows (windowed left after before inclusive).items
      (windowed right after before inclusive).items := by
  have late : AgreeWhile shows
      (match after with
        | none => left
        | some bound => left.filter (isLater bound inclusive)).items
      (match after with
        | none => right
        | some bound => right.filter (isLater bound inclusive)).items := by
    cases after with
    | none => exact agree
    | some bound =>
      dsimp only
      rw [Run.items_filter, Run.items_filter]
      exact agree.filter _
  unfold windowed
  cases before with
  | none => exact late
  | some bound =>
    dsimp only
    rw [Run.items_takeWhile, Run.items_takeWhile]
    exact late.takeWhile _

/-- What answers a query agrees as far as the instants do that it is answered from. -/
theorem agree_answered {shows : Int → Prop} {left right : Run Fault Int}
    (agree : AgreeWhile shows left.items right.items) (query : Query) (schedule : Schedule)
    (limits : Limits) (begins : Int) :
    AgreeWhile shows (answered query schedule limits begins (.ok left)).items
      (answered query schedule limits begins (.ok right)).items := by
  have inside : AgreeWhile shows
      (Run.ofExcept do
        let run ← (.ok left : Except Fault (Run Fault Int))
        return windowed run (← query.after.toBound) (← query.before.toBound) false).items
      (Run.ofExcept do
        let run ← (.ok right : Except Fault (Run Fault Int))
        return windowed run (← query.after.toBound) (← query.before.toBound) false).items := by
    cases query.after.toBound with
    | error fault => exact AgreeWhile.refl shows []
    | ok after =>
      cases query.before.toBound with
      | error fault => exact AgreeWhile.refl shows []
      | ok before => exact agree_windowed agree after before false
  unfold answered
  dsimp only
  cases query.limit schedule limits with
  | none =>
    dsimp only
    rw [Run.items_filter, Run.items_filter]
    exact inside.filter _
  | some n =>
    dsimp only
    rw [Run.items_cut, Run.items_cut, Run.items_filter, Run.items_filter]
    exact (inside.filter _).take _

theorem map_expand (schedule : Schedule) (start : Timestamp) (after before : Datum)
    (inclusive : Bool) :
    (schedule.expand start after before inclusive none).map (List.map Timestamp.instant) =
      (Run.ofExcept do
        let run ← schedule.instants start
        return windowed run (← after.toBound) (← before.toBound) inclusive).collect := by
  unfold expand
  dsimp only
  rw [← Run.collect_map, map_occurrences]

end Schedule

end Recurrence
