import Mathlib.Data.List.Sort
import Mathlib.Data.List.TakeWhile
import Recurrence.Combination
import Recurrence.Proofs.Run.Merging
import Recurrence.Proofs.Series.Ascending

namespace Recurrence

namespace Run

variable {ε : Type}

/-- The instants that a search comes to. -/
def instants (run : Run ε Timestamp) : List Int := run.items.map Timestamp.instant

/-- Whether a search ends without an error and gives its moments in order, where
an instant may come more than once. -/
structure IsOrderly (run : Run ε Timestamp) : Prop where
  complete : run.ending = none
  sorted : run.instants.Pairwise (· ≤ ·)

theorem IsOrderly.rest {t : Timestamp} {rest : Unit → Run ε Timestamp}
    (orderly : (next t rest).IsOrderly) : (rest ()).IsOrderly :=
  ⟨orderly.complete, (List.pairwise_cons.mp orderly.sorted).2⟩

theorem IsOrderly.dropWhile {run : Run ε Timestamp} (orderly : run.IsOrderly)
    (p : Timestamp → Bool) : (run.dropWhile p).IsOrderly := by
  refine ⟨by rw [ending_dropWhile, orderly.complete], ?_⟩
  unfold instants
  rw [items_dropWhile]
  exact orderly.sorted.sublist ((List.dropWhile_sublist p).map _)

/-- Passing over what is before an instant loses nothing from there on. -/
theorem mem_instants_dropWhile (run : Run ε Timestamp) {bound i : Int} (le : bound ≤ i) :
    i ∈ (run.dropWhile fun u => u.instant < bound).instants ↔ i ∈ run.instants := by
  unfold instants
  rw [items_dropWhile]
  conv_rhs => rw [← List.takeWhile_append_dropWhile (p := fun u => decide (u.instant < bound))
    (l := run.items), List.map_append, List.mem_append]
  refine ⟨.inr, fun member => member.resolve_left fun early => ?_⟩
  obtain ⟨t, among, rfl⟩ := List.mem_map.mp early
  have before := List.mem_takeWhile_imp among
  exact absurd (of_decide_eq_true before) (Int.not_lt.mpr le)

end Run

namespace Combination

/-- Whether some search comes to an instant. -/
def Covers (runs : List (Run Fault Timestamp)) (i : Int) : Prop := ∃ run ∈ runs, i ∈ run.instants

theorem orderly_inOrder (dates : List Timestamp) : (inOrder dates).IsOrderly := by
  refine ⟨Run.ending_ofList _, ?_⟩
  unfold Run.instants inOrder
  rw [Run.items_ofList, List.pairwise_map]
  exact List.pairwise_mergeSort' (fun t u : Timestamp => t.instant ≤ u.instant) dates

theorem mem_instants_inOrder {dates : List Timestamp} {i : Int} :
    i ∈ (inOrder dates).instants ↔ i ∈ dates.map Timestamp.instant := by
  unfold Run.instants inOrder
  rw [Run.items_ofList]
  exact ((List.mergeSort_perm ..).map _).mem_iff

theorem orderly_occurrences {s : Series} (complete : s.occurrences.ending = none) :
    s.occurrences.IsOrderly :=
  ⟨complete, s.occurrences_ascending.imp Int.le_of_lt⟩

theorem failure?_of_complete {runs : List (Run Fault Timestamp)}
    (complete : ∀ run ∈ runs, run.ending = none) : failure? runs = none := by
  induction runs with
  | nil => rfl
  | cons run runs ih =>
    obtain ⟨first, later⟩ := List.forall_mem_cons.mp complete
    cases run with
    | failed fault => cases first
    | done => exact ih later
    | next t rest => exact ih later

/-- A search that has passed over what is before a moment gives it next when it
gives it at all. -/
theorem gives_dropWhile {run : Run Fault Timestamp} (orderly : run.IsOrderly) (t : Timestamp) :
    gives t (run.dropWhile fun u => u.instant < t.instant) = true ↔ t.instant ∈ run.instants := by
  rw [← run.mem_instants_dropWhile (Int.le_refl _)]
  have sorted := (orderly.dropWhile fun u => u.instant < t.instant).sorted
  have stops : ∀ u, (run.dropWhile fun u => u.instant < t.instant).items.head? = some u →
      t.instant ≤ u.instant := by
    intro u first
    rw [Run.items_dropWhile] at first
    have := List.head?_dropWhile_not (fun u : Timestamp => decide (u.instant < t.instant)) run.items
    rw [first] at this
    simpa using this
  generalize run.dropWhile (fun u => decide (u.instant < t.instant)) = ahead at sorted stops
  cases ahead with
  | done => exact iff_of_false Bool.false_ne_true (List.not_mem_nil)
  | failed fault => exact iff_of_false Bool.false_ne_true (List.not_mem_nil)
  | next u rest =>
    have after := stops u rfl
    have least := (List.pairwise_cons.mp sorted).1
    change (u.instant == t.instant) = true ↔ t.instant ∈ u.instant :: (rest ()).instants
    rw [beq_iff_eq, List.mem_cons]
    refine ⟨fun same => .inl same.symm, fun member => ?_⟩
    rcases member with same | later
    · exact same.symm
    · exact Int.le_antisymm (least _ later) after

/-- The searches from a moment on. -/
def passed (t : Timestamp) (runs : List (Run Fault Timestamp)) : List (Run Fault Timestamp) :=
  runs.map (Run.dropWhile fun u => u.instant < t.instant)

theorem orderly_passed {runs : List (Run Fault Timestamp)} (orderly : ∀ run ∈ runs, run.IsOrderly)
    (t : Timestamp) : ∀ run ∈ passed t runs, run.IsOrderly :=
  List.forall_mem_map.mpr fun run member => (orderly run member).dropWhile _

theorem covers_passed {runs : List (Run Fault Timestamp)} {t : Timestamp} {i : Int}
    (le : t.instant ≤ i) : Covers (passed t runs) i ↔ Covers runs i := by
  unfold Covers passed
  simp only [List.mem_map, exists_exists_and_eq_and, Run.mem_instants_dropWhile _ le]

theorem any_gives_passed {runs : List (Run Fault Timestamp)}
    (orderly : ∀ run ∈ runs, run.IsOrderly) (t : Timestamp) :
    (passed t runs).any (gives t) = true ↔ Covers runs t.instant := by
  unfold passed Covers
  rw [List.any_map, List.any_eq_true]
  exact exists_congr fun run => and_congr_right fun member => gives_dropWhile (orderly run member) t

/-- Whether the one search is what the excluded ones leave of the other, besides
the last instant that was come to: in order, each instant once. -/
structure Leaves (last : Option Int) (excluded : List (Run Fault Timestamp))
    (run left : Run Fault Timestamp) : Prop where
  complete : left.ending = none
  ascending : left.instants.Pairwise (· < ·)
  mem_iff : ∀ i, i ∈ left.instants ↔ i ∈ run.instants ∧ last ≠ some i ∧ ¬Covers excluded i

namespace Leaves

variable {last : Option Int} {excluded : List (Run Fault Timestamp)} {t : Timestamp}
  {rest : Unit → Run Fault Timestamp} {left : Run Fault Timestamp}

theorem again (leaves : Leaves last excluded (rest ()) left) (same : last = some t.instant) :
    Leaves last excluded (.next t rest) left := by
  refine ⟨leaves.complete, leaves.ascending, fun i => ?_⟩
  rw [leaves.mem_iff]
  refine and_congr_left fun fresh => ⟨List.mem_cons_of_mem _, fun member => ?_⟩
  rcases List.mem_cons.mp member with rfl | later
  · exact absurd same fresh.1
  · exact later

/-- From a moment on, neither what was passed over nor an earlier instant matters. -/
theorem mem_iff_of_next (leaves : Leaves (some t.instant) (passed t excluded) (rest ()) left)
    (orderly : (Run.next t rest).IsOrderly) (i : Int) :
    i ∈ left.instants ↔ i ∈ (rest ()).instants ∧ t.instant ≠ i ∧ ¬Covers excluded i := by
  have later := (List.pairwise_cons.mp orderly.sorted).1
  rw [leaves.mem_iff]
  exact and_congr_right fun member =>
    and_congr (not_congr Option.some_inj) (not_congr (covers_passed (later i member)))

theorem drop (leaves : Leaves (some t.instant) (passed t excluded) (rest ()) left)
    (orderly : (Run.next t rest).IsOrderly) (covered : Covers excluded t.instant)
    (fresh : ∀ i ∈ (Run.next t rest).instants, last ≠ some i) :
    Leaves last excluded (.next t rest) left := by
  refine ⟨leaves.complete, leaves.ascending, fun i => ?_⟩
  rw [leaves.mem_iff_of_next orderly]
  constructor
  · rintro ⟨later, _, free⟩
    have member := List.mem_cons_of_mem t.instant later
    exact ⟨member, fresh i member, free⟩
  · rintro ⟨member, _, free⟩
    have other : t.instant ≠ i := fun same => free (same ▸ covered)
    exact ⟨(List.mem_cons.mp member).resolve_left other.symm, other, free⟩

theorem keep (leaves : Leaves (some t.instant) (passed t excluded) (rest ()) left)
    (orderly : (Run.next t rest).IsOrderly) (free : ¬Covers excluded t.instant)
    (fresh : ∀ i ∈ (Run.next t rest).instants, last ≠ some i) :
    Leaves last excluded (.next t rest) (.next t fun _ => left) := by
  have later := (List.pairwise_cons.mp orderly.sorted).1
  have members := leaves.mem_iff_of_next orderly
  refine ⟨leaves.complete, List.pairwise_cons.mpr ⟨fun i member => ?_, leaves.ascending⟩, fun i => ?_⟩
  · obtain ⟨among, other, _⟩ := (members i).mp member
    exact lt_of_le_of_ne (later i among) other
  · change i ∈ t.instant :: left.instants ↔ i ∈ t.instant :: (rest ()).instants ∧ _
    rw [List.mem_cons, members]
    by_cases same : i = t.instant
    · subst same
      exact iff_of_true (.inl rfl) ⟨List.mem_cons_self .., fresh _ (List.mem_cons_self ..), free⟩
    · rw [List.mem_cons]
      simp only [same, false_or, ne_eq, Ne.symm same, not_false_eq_true, true_and]
      exact and_congr_right fun among =>
        ⟨fun free => ⟨fresh i (List.mem_cons_of_mem _ among), free⟩, fun both => both.2⟩

end Leaves

/-- The excluded searches, each in order, leave of a search in order what none of
them comes to. -/
theorem leaves_without {excluded : List (Run Fault Timestamp)} {run : Run Fault Timestamp}
    {last : Option Int} (orderlyExcluded : ∀ other ∈ excluded, other.IsOrderly)
    (orderly : run.IsOrderly) (behind : ∀ l, last = some l → ∀ i ∈ run.instants, l ≤ i) :
    Leaves last excluded run (without last excluded run) := by
  induction run generalizing last excluded with
  | failed fault => cases orderly.complete
  | done =>
    refine ⟨rfl, List.Pairwise.nil, fun i => ?_⟩
    exact iff_of_false List.not_mem_nil fun found => List.not_mem_nil found.1
  | next t rest ih =>
    have later := (List.pairwise_cons.mp orderly.sorted).1
    have ahead := orderly_passed orderlyExcluded t
    have onward : Leaves (some t.instant) (passed t excluded) (rest ())
        (without (some t.instant) (passed t excluded) (rest ())) := by
      refine ih () ahead orderly.rest fun l known => ?_
      cases known
      exact later
    unfold without
    by_cases same : last = some t.instant
    · rw [if_pos same]
      refine Leaves.again (ih () orderlyExcluded orderly.rest fun l known i member => ?_) same
      exact behind l known i (List.mem_cons_of_mem _ member)
    · rw [if_neg same]
      have fresh : ∀ i ∈ (Run.next t rest).instants, last ≠ some i := by
        rintro i member rfl
        have before := behind i rfl t.instant (List.mem_cons_self ..)
        rcases List.mem_cons.mp member with rfl | among
        · exact same rfl
        · exact same (congrArg some (Int.le_antisymm before (later i among)))
      dsimp only
      rw [← passed, failure?_of_complete fun other member => (ahead other member).complete]
      dsimp only
      split
      · rename_i given
        exact onward.drop orderly ((any_gives_passed orderlyExcluded t).mp given) fresh
      · rename_i kept
        exact onward.keep orderly (mt (any_gives_passed orderlyExcluded t).mpr kept) fresh

variable {c : Combination}

/-- The dates and the occurrences that a combination is made of. -/
def included (c : Combination) : Run Fault Timestamp :=
  Run.merge (fun a b => decide (a.instant < b.instant)) (inOrder c.dates) c.series.occurrences

/-- The dates and the occurrences that a combination leaves out. -/
def excluded (c : Combination) : List (Run Fault Timestamp) :=
  inOrder c.excludedDates :: c.excludedSeries.map Series.occurrences

/-- Whether none of the series of a combination comes to an error. -/
structure IsComplete (c : Combination) : Prop where
  series : c.series.occurrences.ending = none
  excludedSeries : ∀ s ∈ c.excludedSeries, s.occurrences.ending = none

theorem orderly_included (complete : c.IsComplete) : c.included.IsOrderly := by
  have dates := orderly_inOrder c.dates
  have series := orderly_occurrences complete.series
  exact ⟨(Run.merge_complete dates.complete series.complete).1,
    Run.merge_sorted Timestamp.instant dates.complete series.complete dates.sorted series.sorted⟩

theorem mem_instants_included (complete : c.IsComplete) {i : Int} :
    i ∈ c.included.instants ↔
      i ∈ c.series.occurrences.instants ∨ i ∈ c.dates.map Timestamp.instant := by
  have perm : c.included.items.Perm ((inOrder c.dates).items ++ c.series.occurrences.items) :=
    (Run.merge_complete (orderly_inOrder c.dates).complete complete.series).2
  rw [Run.instants, (perm.map _).mem_iff, List.map_append, List.mem_append, or_comm]
  exact or_congr_right mem_instants_inOrder

theorem orderly_excluded (complete : c.IsComplete) : ∀ run ∈ c.excluded, run.IsOrderly :=
  List.forall_mem_cons.mpr ⟨orderly_inOrder _, List.forall_mem_map.mpr fun s member =>
    orderly_occurrences (complete.excludedSeries s member)⟩

theorem covers_excluded {i : Int} :
    Covers c.excluded i ↔ i ∈ c.excludedDates.map Timestamp.instant ∨
      ∃ s ∈ c.excludedSeries, i ∈ s.occurrences.instants := by
  unfold Covers excluded
  rw [List.exists_mem_cons_iff, mem_instants_inOrder]
  simp only [List.mem_map, exists_exists_and_eq_and]

theorem occurrences_eq (complete : c.IsComplete) :
    c.occurrences = without none c.excluded c.included := by
  have sound := failure?_of_complete fun run member => (orderly_excluded complete run member).complete
  unfold occurrences
  dsimp only
  rw [← included, ← excluded, sound]
  split
  · rename_i failed
    have orderly := orderly_included complete
    rw [failed] at orderly
    cases orderly.complete
  · rename_i failed _
    cases failed
  · rfl

/-- A combination gives, in order and each once, the instants of its series and of
its dates that neither an excluded series nor an excluded date has. -/
theorem instants_occurrences (complete : c.IsComplete) :
    c.occurrences.ending = none ∧ c.occurrences.instants.Pairwise (· < ·) ∧
      ∀ i, i ∈ c.occurrences.instants ↔
        (i ∈ c.series.occurrences.instants ∨ i ∈ c.dates.map Timestamp.instant) ∧
          (∀ s ∈ c.excludedSeries, i ∉ s.occurrences.instants) ∧
          i ∉ c.excludedDates.map Timestamp.instant := by
  have leaves : Leaves none c.excluded c.included (without none c.excluded c.included) :=
    leaves_without (orderly_excluded complete) (orderly_included complete)
      fun _ known => nomatch known
  rw [occurrences_eq complete]
  refine ⟨leaves.complete, leaves.ascending, fun i => ?_⟩
  rw [leaves.mem_iff, mem_instants_included complete, covers_excluded]
  simp only [ne_eq, reduceCtorEq, not_false_eq_true, true_and, not_or, not_exists, not_and]
  exact and_congr_right fun _ => and_comm

end Combination

end Recurrence
