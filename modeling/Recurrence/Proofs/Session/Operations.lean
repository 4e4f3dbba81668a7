import Recurrence.Journal.Setup
import Recurrence.Proofs.Session.Consulting
import Recurrence.Proofs.Session.Loading
import Recurrence.Session.Boundary
import Recurrence.Session.Occurrences

namespace Recurrence

/-- The operations that settings may be given to, by what they need and what they come to. -/
inductive Operation : Cache → Type → Type
  | readRule (d : Datum) : Operation .limits Rule
  | printRule (r : Rule) : Operation .limits Text
  | generate (source : RuleSource) (start : Datum) (query : Query) :
      Operation .limits (Run Fault Timestamp)
  | between (source : RuleSource) (start after before : Datum) (inclusive : Bool) :
      Operation .limits (List Timestamp)
  | next (source : RuleSource) (start moment : Datum) (inclusive : Bool) :
      Operation .limits (Option Timestamp)
  | previous (source : RuleSource) (start moment : Datum) (inclusive : Bool) :
      Operation .limits (Option Timestamp)
  | walk (source : RuleSource) (start moment : Datum) (directions : List Work.Direction) :
      Operation .limits (List (Option Timestamp))
  | combine (source : RuleSource) (start : Datum) (dates : List Datum)
      (excluded : List RuleSource) (excludedDates : List Datum) : Operation .limits Combination
  | setUp (setup : Journal.Setup) (force : Bool) (overrides : Entries) :
      Operation .options Journal.Setup

/-- The operations that no settings can be given to. -/
inductive Routine : Type → Type
  | validate (r : Rule) (start : Datum) : Routine Unit
  | isValid (r : Rule) (start : Datum) : Routine Bool
  | toSchedule (r : Rule) : Routine Schedule
  | checkText (d : Datum) : Routine Datum
  | checkOptionalText (d : Datum) : Routine Datum
  | takePayload (d : Datum) : Routine Datum
  | interchangeOf (d : Datum) : Routine Interchange
  | interchangeText (form : Interchange) : Routine Text
  | configure (setup : Journal.Setup) (given : Entries) : Routine Journal.Setup

/-- What an operation does, with settings or without. -/
def Operation.run {cache : Cache} {α : Type} :
    Operation cache α → Option cache.Settings → Work α
  | readRule d, given => Work.readRule given d
  | printRule r, given => Work.printRule given r
  | generate source start query, given => Work.generate given source start query
  | between source start after before inclusive, given =>
    Work.between given source start after before inclusive
  | next source start moment inclusive, given => Work.next given source start moment inclusive
  | previous source start moment inclusive, given =>
    Work.previous given source start moment inclusive
  | walk source start moment directions, given => Work.walk given source start moment directions
  | combine source start dates excluded excludedDates, given =>
    Work.combine given source start dates excluded excludedDates
  | setUp setup force overrides, given => Work.setUp setup given force overrides

/-- What a routine does. -/
def Routine.run {α : Type} : Routine α → Work α
  | validate r start => Work.validate r start
  | isValid r start => Work.isValid r start
  | toSchedule r => Work.toSchedule r
  | checkText d => Work.checkText d
  | checkOptionalText d => Work.checkOptionalText d
  | takePayload d => Work.takePayload d
  | interchangeOf d => Work.interchangeOf d
  | interchangeText form => Work.interchangeText form
  | configure setup given => Work.configure setup given

namespace Work

theorem Independent.validate (r : Rule) (start : Datum) : Independent (Work.validate r start) := by
  unfold Work.validate
  rcases r.validate start with (cause | cause) | _
  · exact .throw _
  · exact (Independent.note _).bind fun _ => .throw _
  · exact .pure ()

theorem Independent.isValid (r : Rule) (start : Datum) : Independent (Work.isValid r start) := by
  refine ((Independent.validate r start).bind fun _ => .pure true).tryCatch fun failure => ?_
  cases failure with
  | objection _ => exact .pure false
  | _ => exact .throw _

theorem Independent.toSchedule (r : Rule) : Independent (Work.toSchedule r) := .lift _ _

theorem Independent.configure (setup : Journal.Setup) (given : Entries) :
    Independent (Work.configure setup given) := by
  refine (Independent.lift _ _).bind fun done => ?_
  split
  · exact .pure done
  · exact (Independent.note _).bind fun _ => .pure done

theorem Follows.limitsOr : Follows .limits Work.limitsOr := by
  have same : Work.limitsOr = Cache.limits.readOr := by
    funext given
    cases given <;> rfl
  rw [same]
  exact .readOr .limits

theorem Follows.readRule (d : Datum) : Follows .limits fun given => Work.readRule given d := by
  refine Follows.limitsOr.bind fun limits => .of_independent ?_
  cases d.asText? with
  | some text =>
    dsimp only
    cases Rule.read limits text with
    | ok rule => exact (Independent.note _).bind fun _ => .pure rule
    | error error => exact (Independent.note _).bind fun _ => .throw _
  | none =>
    dsimp only
    cases lengthOf? d with
    | none => exact .throw _
    | some length =>
      dsimp only
      split
      · exact (Independent.note _).bind fun _ => .throw _
      · exact .throw _

theorem Follows.printRule (r : Rule) : Follows .limits fun given => Work.printRule given r :=
  Follows.limitsOr.bind fun _ => .of_independent (.pure _)

theorem Follows.resolve (source : RuleSource) (start : Datum) :
    Follows .limits fun given => Work.resolve given source start := by
  have resolved (rule : Rule) : Independent (do
      let moment ← Work.lift Failure.objection (readStart start)
      Work.validate rule (.moment moment)
      return (← Work.toSchedule rule, moment)) :=
    (Independent.lift _ _).bind fun moment => (Independent.validate _ _).bind fun _ =>
      (Independent.toSchedule rule).bind fun _ => .pure _
  cases source with
  | text t => exact (Follows.readRule (.str t)).bind fun rule => .of_independent (resolved rule)
  | rule r => exact .of_independent (resolved r)

section Occurrences

variable (source : RuleSource) (start : Datum)

/-- Work that resolves a source and then needs nothing more of the session. -/
theorem Follows.resolving {α : Type} {rest : Schedule × Timestamp → Work α}
    (independent : ∀ resolved, Independent (rest resolved)) :
    Follows .limits fun given => Work.resolve given source start >>= rest :=
  (Follows.resolve source start).bind fun resolved => .of_independent (independent resolved)

/-- The limits are looked up once, and the source is resolved under them. -/
theorem Follows.generate (query : Query) :
    Follows .limits fun given => Work.generate given source start query :=
  Follows.limitsOr.bind fun limits =>
    .of_independent (((Follows.resolve source start).told limits).bind fun _ => .pure _)

theorem Follows.between (after before : Datum) (inclusive : Bool) :
    Follows .limits fun given => Work.between given source start after before inclusive :=
  Follows.resolving source start fun _ => .lift _ _

theorem Follows.next (moment : Datum) (inclusive : Bool) :
    Follows .limits fun given => Work.next given source start moment inclusive :=
  Follows.resolving source start fun _ => .lift _ _

theorem Follows.previous (moment : Datum) (inclusive : Bool) :
    Follows .limits fun given => Work.previous given source start moment inclusive :=
  Follows.resolving source start fun _ => .lift _ _

theorem Follows.walk (moment : Datum) (directions : List Direction) :
    Follows .limits fun given => Work.walk given source start moment directions := by
  induction directions generalizing moment with
  | nil => exact .of_independent (.pure [])
  | cons direction directions ih =>
    have rest (found : Option Timestamp) : Follows .limits fun given => do
        let rest ← Work.walk given source start (found.elim moment Datum.moment) directions
        return found :: rest :=
      (ih _).bind fun _ => .of_independent (.pure _)
    cases direction with
    | forward => exact (Follows.next source start moment false).bind rest
    | backward => exact (Follows.previous source start moment false).bind rest

theorem Follows.bindAll (sources : List RuleSource) :
    Follows .limits fun given => Work.bindAll given start sources := by
  induction sources with
  | nil => exact .of_independent (.pure [])
  | cons source sources ih =>
    exact (Follows.resolve source start).bind fun _ =>
      (Follows.of_independent (.lift _ _)).bind fun _ =>
        ih.bind fun _ => .of_independent (.pure _)

theorem Follows.combine (dates : List Datum) (excluded : List RuleSource)
    (excludedDates : List Datum) :
    Follows .limits fun given =>
      Work.combine given source start dates excluded excludedDates :=
  (Follows.resolve source start).bind fun _ =>
    (Follows.of_independent (.lift _ _)).bind fun _ =>
      (Follows.bindAll _ excluded).bind fun _ => .of_independent
        ((Independent.lift _ _).bind fun _ => (Independent.lift _ _).bind fun _ => .pure _)

end Occurrences

theorem Follows.setUp (setup : Journal.Setup) (force : Bool) (overrides : Entries) :
    Follows .options fun given => Work.setUp setup given force overrides := by
  have parts (given : Option Journal.Options) : Work.setUp setup given force overrides =
      if overrides.any fun entry => ["force".toList, "log_settings".toList].contains entry.1 then
        throw (.fault .wrongKind)
      else if setup.initialized && !force then return setup
      else do
        let options ← Cache.options.readOr given
        let done ← Work.configure setup (options.arguments.overlay overrides)
        return { done with initialized := true } := by
    cases given <;> rfl
  simp only [parts]
  split
  · exact .of_independent (.throw _)
  · split
    · exact .of_independent (.pure setup)
    · exact (Follows.readOr .options).bind fun _ => .of_independent
        ((Independent.configure _ _).bind fun _ => .pure _)

theorem Consults.checkText (d : Datum) : Consults .limits (Work.checkText d) := by
  have read : Follows .limits fun given => do
      discard (Work.readRule given d)
      return d := by
    simp only [Functor.discard, map_const, Function.comp_apply, bind_map_left]
    exact (Follows.readRule d).bind fun _ => .of_independent (.pure d)
  refine (Consults.of_follows read).reworded fun failure => ?_
  cases failure <;> exact ⟨_, rfl⟩

theorem Consults.checkOptionalText (d : Datum) : Consults .limits (Work.checkOptionalText d) := by
  cases d with
  | none => exact .of_independent (.pure Datum.none)
  | _ => exact .checkText _

theorem Consults.takePayload (d : Datum) : Consults .limits (Work.takePayload d) :=
  .after (.lift _ _) fun _ => (Consults.checkOptionalText _).reworded fun _ => ⟨_, rfl⟩

theorem Consults.interchangeOf (d : Datum) : Consults .limits (Work.interchangeOf d) := by
  have converted : Follows .limits fun given => Work.readRule given d >>= fun rule =>
      Work.lift Failure.intake (Interchange.ofRule rule) :=
    (Follows.readRule d).bind fun rule => .of_independent (.lift _ _)
  exact .of_follows converted

theorem Consults.interchangeText (form : Interchange) :
    Consults .limits (Work.interchangeText form) :=
  .after (.lift _ _) fun rule => .of_follows (Follows.printRule rule)

end Work

/-- Every operation follows the settings that it is given. -/
theorem Operation.follows {cache : Cache} {α : Type} (operation : Operation cache α) :
    Work.Follows cache operation.run := by
  cases operation with
  | readRule d => exact .readRule d
  | printRule r => exact .printRule r
  | generate source start query => exact .generate source start query
  | between source start after before inclusive =>
    exact .between source start after before inclusive
  | next source start moment inclusive => exact .next source start moment inclusive
  | previous source start moment inclusive => exact .previous source start moment inclusive
  | walk source start moment directions => exact .walk source start moment directions
  | combine source start dates excluded excludedDates =>
    exact .combine source start dates excluded excludedDates
  | setUp setup force overrides => exact .setUp setup force overrides

section LookUps

/-- Work that begins with the limits asks for them, whatever it does with them. -/
theorem Work.looksUp_of_limitsOr {α : Type} {next : Limits → Work α}
    (independent : Independent (next {})) : (limitsOr none >>= next).looksUp .limits = true := by
  obtain ⟨answer, events, done⟩ := independent
  unfold looksUp
  rw [outcome_bind outcome_limitsOr_fresh, done]
  rfl

theorem Operation.looksUp_readRule (d : Datum) :
    ((Operation.readRule d).run none).looksUp .limits = true :=
  Work.looksUp_of_limitsOr ((Work.Follows.readRule d).told {})

theorem Operation.looksUp_printRule (r : Rule) :
    ((Operation.printRule r).run none).looksUp .limits = true :=
  Work.looksUp_of_limitsOr ((Work.Follows.printRule r).told {})

theorem Operation.looksUp_generate (source : RuleSource) (start : Datum) (query : Query) :
    ((Operation.generate source start query).run none).looksUp .limits = true :=
  Work.looksUp_of_limitsOr ((Work.Follows.generate source start query).told {})

end LookUps

/-- Every routine asks at most for the limits. -/
theorem Routine.consults {α : Type} (routine : Routine α) : Work.Consults .limits routine.run := by
  cases routine with
  | validate r start => exact .of_independent (.validate r start)
  | isValid r start => exact .of_independent (.isValid r start)
  | toSchedule r => exact .of_independent (.toSchedule r)
  | checkText d => exact .checkText d
  | checkOptionalText d => exact .checkOptionalText d
  | takePayload d => exact .takePayload d
  | interchangeOf d => exact .interchangeOf d
  | interchangeText form => exact .interchangeText form
  | configure setup given => exact .of_independent (.configure setup given)

/-- Work that is done without settings of its own: an operation that is given none, or a
routine. -/
inductive Work.Unguided : {α : Type} → Work α → Prop
  | call {cache : Cache} {α : Type} (operation : Operation cache α) : Unguided (operation.run none)
  | perform {α : Type} (routine : Routine α) : Unguided routine.run

theorem Work.Unguided.consults {α : Type} {work : Work α} (unguided : work.Unguided) :
    ∃ own, Consults own work := by
  cases unguided with
  | @call own _ operation => exact ⟨own, .of_follows operation.follows⟩
  | perform routine => exact ⟨.limits, routine.consults⟩

end Recurrence
