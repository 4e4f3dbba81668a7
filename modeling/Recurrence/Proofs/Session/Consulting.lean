import Recurrence.Proofs.Session.Caches

namespace Recurrence

namespace Work

variable {α β : Type} {cache : Cache}

section Attempts

variable {work : Work α} {handler : Failure → Work α} {before after : Session}

theorem outcome_tryCatch_ok {a : α} (done : work.outcome before = (.ok a, after)) :
    (tryCatch work handler).outcome before = (.ok a, after) := by
  unfold outcome at *
  rw [ExceptT.run_tryCatch, StateT.run_bind, done]
  rfl

theorem outcome_tryCatch_error {failure : Failure}
    (failed : work.outcome before = (.error failure, after)) :
    (tryCatch work handler).outcome before = (handler failure).outcome after := by
  unfold outcome at *
  rw [ExceptT.run_tryCatch, StateT.run_bind, failed]
  rfl

end Attempts

/-- Work that does the same in every session, and leaves nothing there but events. -/
def Independent (work : Work α) : Prop :=
  ∃ answer events, ∀ session, work.outcome session = (answer, session.noting events)

namespace Independent

theorem pure (a : α) : Independent (Pure.pure a : Work α) := ⟨.ok a, [], fun _ => rfl⟩

theorem throw (failure : Failure) : Independent (MonadExcept.throw failure : Work α) :=
  ⟨.error failure, [], fun _ => rfl⟩

theorem note (event : Journal.Event) : Independent (Work.note event) :=
  ⟨.ok (), [event], fun _ => rfl⟩

theorem lift {ε : Type} (wrap : ε → Failure) (found : Except ε α) :
    Independent (Work.lift wrap found) := by
  cases found with
  | ok a => exact pure a
  | error e => exact throw (wrap e)

theorem bind {work : Work α} {next : α → Work β} (first : Independent work)
    (rest : ∀ a, Independent (next a)) : Independent (work >>= next) := by
  obtain ⟨answer, events, done⟩ := first
  cases answer with
  | error failure =>
    exact ⟨.error failure, events, fun session => outcome_bind_error (done session)⟩
  | ok a =>
    obtain ⟨answer, later, continued⟩ := rest a
    refine ⟨answer, later ++ events, fun session => ?_⟩
    rw [outcome_bind (done session), continued, Session.noting_noting]

theorem tryCatch {work : Work α} {handler : Failure → Work α} (first : Independent work)
    (rest : ∀ failure, Independent (handler failure)) :
    Independent (MonadExcept.tryCatch work handler) := by
  obtain ⟨answer, events, done⟩ := first
  cases answer with
  | ok a => exact ⟨.ok a, events, fun session => outcome_tryCatch_ok (done session)⟩
  | error failure =>
    obtain ⟨answer, later, continued⟩ := rest failure
    refine ⟨answer, later ++ events, fun session => ?_⟩
    rw [outcome_tryCatch_error (done session), continued, Session.noting_noting]

end Independent

/-- Work that, without settings, asks the session for them before anything depends on them. -/
structure Asks (cache : Cache) (work : Option cache.Settings → Work α) : Prop where
  /-- With the settings of the session it goes on as if they had been given. -/
  granted : ∀ {session settings}, cache.inForce session = .ok settings →
    (work none).outcome session = (work (some settings)).outcome (cache.keep settings session)
  /-- Where there are none it fails, and leaves nothing behind but events. -/
  refused : ∀ complaints, ∃ failure events, ∀ {session}, cache.inForce session = .error complaints →
    (work none).outcome session = (.error failure, session.noting events)

/-- Work that may be given settings: then the session does not matter. Otherwise it asks for
those of the session, or it has no use for settings. -/
structure Follows (cache : Cache) (work : Option cache.Settings → Work α) : Prop where
  told : ∀ settings, Independent (work (some settings))
  untold : Asks cache work ∨
    ∀ settings session, (work none).outcome session = (work (some settings)).outcome session

theorem Asks.readOr (cache : Cache) : Asks cache cache.readOr where
  granted found := (Cache.outcome_read _).trans (by rw [found]; rfl)
  refused complaints := by
    refine ⟨.intake complaints, [], fun missing => ?_⟩
    exact (Cache.outcome_read _).trans (by rw [missing]; rfl)

namespace Follows

variable {work : Option cache.Settings → Work α}

theorem of_independent {work : Work α} (independent : Independent work) :
    Follows cache fun _ => work :=
  ⟨fun _ => independent, .inr fun _ _ => rfl⟩

/-- Work that has no use for settings does the same everywhere without them too. -/
theorem independent (follows : Follows cache work)
    (useless : ∀ settings session,
      (work none).outcome session = (work (some settings)).outcome session) :
    Independent (work none) := by
  obtain ⟨settings, _⟩ := cache.exists_load_nil
  obtain ⟨answer, events, done⟩ := follows.told settings
  exact ⟨answer, events, fun session => (useless settings session).trans (done session)⟩

/-- Settings that the session keeps need not be given. -/
theorem outcome_of_kept (follows : Follows cache work) {session : Session}
    {settings : cache.Settings} (known : cache.kept session = some settings) :
    (work none).outcome session = (work (some settings)).outcome session := by
  obtain asks | useless := follows.untold
  · rw [asks.granted (Cache.inForce_of_kept known), Cache.keep_of_kept known]
  · exact useless settings session

theorem readOr (cache : Cache) : Follows cache cache.readOr :=
  ⟨fun settings => .pure settings, .inl (.readOr cache)⟩

end Follows

section Sequence

variable {work : Option cache.Settings → Work α} {next : Option cache.Settings → α → Work β}

/-- What comes after work that asked finds the settings in the session. -/
theorem Asks.bind (asks : Asks cache work) (told : ∀ settings, Independent (work (some settings)))
    (rest : ∀ a, Follows cache fun given => next given a) :
    Asks cache fun given => work given >>= next given where
  granted {session settings} found := by
    obtain ⟨answer, events, done⟩ := told settings
    have granted := (asks.granted found).trans (done _)
    cases answer with
    | error failure => rw [outcome_bind_error granted, outcome_bind_error (done _)]
    | ok a =>
      rw [outcome_bind granted, outcome_bind (done _)]
      exact (rest a).outcome_of_kept (by rw [Cache.kept_noting, Cache.kept_keep])
  refused complaints := by
    obtain ⟨failure, events, failed⟩ := asks.refused complaints
    exact ⟨failure, events, fun missing => outcome_bind_error (failed missing)⟩

/-- Work that comes before the asking leaves only events. -/
theorem Asks.after {a : α} {events : List Journal.Event}
    (done : ∀ given session, (work given).outcome session = (.ok a, session.noting events))
    (asks : Asks cache fun given => next given a) :
    Asks cache fun given => work given >>= next given where
  granted {session settings} found := by
    rw [outcome_bind (done none session), outcome_bind (done (some settings) _),
      ← Cache.keep_noting]
    exact asks.granted (by rw [Cache.inForce_noting, found])
  refused complaints := by
    obtain ⟨failure, later, failed⟩ := asks.refused complaints
    refine ⟨failure, later ++ events, fun {session} missing => ?_⟩
    rw [outcome_bind (done none session), failed (by rw [Cache.inForce_noting, missing]),
      Session.noting_noting]

theorem Follows.bind (first : Follows cache work)
    (rest : ∀ a, Follows cache fun given => next given a) :
    Follows cache fun given => work given >>= next given where
  told settings := (first.told settings).bind fun a => (rest a).told settings
  untold := by
    obtain asks | useless := first.untold
    · exact .inl (asks.bind first.told rest)
    · obtain ⟨answer, events, untold⟩ := first.independent useless
      have done given session : (work given).outcome session = (answer, session.noting events) := by
        cases given with
        | none => exact untold session
        | some settings => exact (useless settings session).symm.trans (untold session)
      cases answer with
      | error failure =>
        refine .inr fun settings session => ?_
        rw [outcome_bind_error (done none session), outcome_bind_error (done (some settings) session)]
      | ok a =>
        obtain asks | useless := (rest a).untold
        · exact .inl (.after done asks)
        · refine .inr fun settings session => ?_
          rw [outcome_bind (done none session), outcome_bind (done (some settings) session)]
          exact useless settings _

end Sequence

namespace Follows

variable {work : Option cache.Settings → Work α}

/-- Work whose failures are put in other words. -/
theorem reworded (follows : Follows cache work) {handler : Failure → Work α}
    (rewords : ∀ failure, ∃ other, handler failure = MonadExcept.throw other) :
    Follows cache fun given => tryCatch (work given) handler where
  told settings := by
    refine (follows.told settings).tryCatch fun failure => ?_
    obtain ⟨other, same⟩ := rewords failure
    rw [same]
    exact .throw other
  untold := by
    have alike {given : Option cache.Settings} {before session : Session}
        (same : (work none).outcome before = (work given).outcome session) :
        (tryCatch (work none) handler).outcome before =
          (tryCatch (work given) handler).outcome session := by
      rcases done : (work given).outcome session with ⟨answer, after⟩
      rw [done] at same
      cases answer with
      | ok a => rw [outcome_tryCatch_ok done, outcome_tryCatch_ok same]
      | error failure => rw [outcome_tryCatch_error done, outcome_tryCatch_error same]
    obtain asks | useless := follows.untold
    · refine .inl ⟨fun found => alike (asks.granted found), fun complaints => ?_⟩
      obtain ⟨failure, events, failed⟩ := asks.refused complaints
      obtain ⟨other, same⟩ := rewords failure
      refine ⟨other, events, fun missing => ?_⟩
      rw [outcome_tryCatch_error (failed missing), same]
      rfl
    · exact .inr fun settings session => alike (useless settings session)

/-- Under the settings that a session gives, work comes to the same without them as with
them. -/
theorem result_of_inForce (follows : Follows cache work) {session : Session}
    {settings : cache.Settings} (found : cache.inForce session = .ok settings) :
    (work none).result session = (work (some settings)).result session := by
  obtain asks | useless := follows.untold
  · obtain ⟨answer, events, done⟩ := follows.told settings
    rw [result_of_outcome ((asks.granted found).trans (done _)), result_of_outcome (done session)]
  · exact congrArg Prod.fst (useless settings session)

end Follows

/-- Whether work asks for settings of the kind: a session that is empty then has some. -/
def looksUp (cache : Cache) (work : Work α) : Bool := (cache.kept (work.outcome {}).2).isSome

/-- Work that needs at most settings of the kind, and asks the session for them. -/
def Consults (cache : Cache) (work : Work α) : Prop :=
  ∃ given, Follows cache given ∧ given none = work

theorem Independent.not_looksUp {work : Work α} (independent : Independent work) :
    work.looksUp cache = false := by
  obtain ⟨answer, events, done⟩ := independent
  unfold looksUp
  rw [done, Cache.kept_noting]
  cases cache <;> rfl

/-- Work that asks for settings of the kind in every session: it ends with them where the
session gives some, and fails where it gives none. -/
def Loads (cache : Cache) (work : Work α) : Prop :=
  ∀ session,
    (∃ settings answer events, cache.inForce session = .ok settings ∧
      work.outcome session = (answer, (cache.keep settings session).noting events)) ∨
    ∃ complaints failure events, cache.inForce session = .error complaints ∧
      work.outcome session = (.error failure, session.noting events)

theorem Asks.loads {given : Option cache.Settings → Work α} (asks : Asks cache given)
    (told : ∀ settings, Independent (given (some settings))) : Loads cache (given none) := by
  intro session
  cases found : cache.inForce session with
  | ok settings =>
    obtain ⟨answer, events, done⟩ := told settings
    exact .inl ⟨settings, answer, events, rfl, (asks.granted found).trans (done _)⟩
  | error complaints =>
    obtain ⟨failure, events, failed⟩ := asks.refused complaints
    exact .inr ⟨complaints, failure, events, rfl, failed found⟩

namespace Loads

variable {work : Work α}

/-- Afterwards the session keeps what it gave before, if it gave something. -/
theorem kept_outcome (loads : Loads cache work) (session : Session) :
    cache.kept (work.outcome session).2 = (cache.inForce session).toOption := by
  obtain ⟨settings, answer, events, found, done⟩ | ⟨complaints, failure, events, missing, failed⟩ :=
    loads session
  · rw [done, Cache.kept_noting, Cache.kept_keep, found]
    rfl
  · rw [failed, Cache.kept_noting, missing]
    cases known : cache.kept session with
    | none => rfl
    | some settings =>
      rw [Cache.inForce_of_kept known] at missing
      cases missing

theorem kept_outcome_of_ne (loads : Loads cache work) {other : Cache} (differs : other ≠ cache)
    (session : Session) : other.kept (work.outcome session).2 = other.kept session := by
  obtain ⟨settings, answer, events, _, done⟩ | ⟨_, failure, events, _, failed⟩ := loads session
  · rw [done, Cache.kept_noting, Cache.kept_keep_of_ne differs]
  · rw [failed, Cache.kept_noting]

theorem looksUp (loads : Loads cache work) : work.looksUp cache = true := by
  obtain ⟨settings, found⟩ := cache.exists_load_nil
  have empty : cache.inForce {} = .ok settings := by
    rw [Cache.inForce_of_not_kept (by cases cache <;> rfl)]
    exact found
  unfold Work.looksUp
  rw [loads.kept_outcome, empty]
  rfl

theorem not_looksUp (loads : Loads cache work) {other : Cache} (differs : other ≠ cache) :
    work.looksUp other = false := by
  unfold Work.looksUp
  rw [loads.kept_outcome_of_ne differs]
  cases other <;> rfl

end Loads

namespace Consults

variable {own : Cache} {work : Work α}

theorem of_follows {given : Option own.Settings → Work α} (follows : Follows own given) :
    Consults own (given none) :=
  ⟨given, follows, rfl⟩

theorem of_independent (independent : Independent work) : Consults own work :=
  of_follows (.of_independent independent)

theorem after {first : Work α} {next : α → Work β} (independent : Independent first)
    (rest : ∀ a, Consults own (next a)) : Consults own (first >>= next) := by
  choose given follows same using rest
  refine ⟨fun settings => first >>= fun a => given a settings, ?_, ?_⟩
  · exact (Follows.of_independent independent).bind follows
  · exact congrArg (first >>= ·) (funext same)

theorem reworded (consults : Consults own work) {handler : Failure → Work α}
    (rewords : ∀ failure, ∃ other, handler failure = MonadExcept.throw other) :
    Consults own (tryCatch work handler) := by
  obtain ⟨given, follows, rfl⟩ := consults
  exact of_follows (follows.reworded rewords)

theorem independent_or_loads (consults : Consults own work) :
    Independent work ∨ Loads own work := by
  obtain ⟨given, follows, rfl⟩ := consults
  obtain asks | useless := follows.untold
  · exact .inr (asks.loads follows.told)
  · exact .inl (follows.independent useless)

/-- What a session keeps after work that asked for it is what it gave before, and nothing
where it gave none. -/
theorem kept_outcome (consults : Consults own work) (cache : Cache) (session : Session) :
    cache.kept (work.outcome session).2 =
      if work.looksUp cache then (cache.inForce session).toOption else cache.kept session := by
  obtain independent | loads := consults.independent_or_loads
  · rw [independent.not_looksUp, if_neg Bool.false_ne_true]
    obtain ⟨answer, events, done⟩ := independent
    rw [done, Cache.kept_noting]
  · by_cases same : cache = own
    · subst same
      rw [loads.looksUp, if_pos rfl, loads.kept_outcome]
    · rw [loads.not_looksUp same, if_neg Bool.false_ne_true, loads.kept_outcome_of_ne same]

theorem environment_outcome (consults : Consults own work) (session : Session) :
    (work.outcome session).2.environment = session.environment := by
  obtain ⟨answer, events, done⟩ | loads := consults.independent_or_loads
  · rw [done]
    rfl
  · obtain ⟨settings, answer, events, _, done⟩ | ⟨_, failure, events, _, failed⟩ := loads session
    · rw [done]
      exact Cache.environment_keep
    · rw [failed]
      rfl

/-- Work comes to the same in two sessions that give the same settings of the kinds it asks
for. -/
theorem result_congr (consults : Consults own work) {session other : Session}
    (alike : ∀ cache, work.looksUp cache = true → cache.inForce session = cache.inForce other) :
    work.result session = work.result other := by
  obtain ⟨given, follows, rfl⟩ := consults
  obtain asks | useless := follows.untold
  · have same := alike own (asks.loads follows.told).looksUp
    cases found : own.inForce session with
    | ok settings =>
      obtain ⟨answer, events, done⟩ := follows.told settings
      rw [result_of_outcome ((asks.granted found).trans (done _)),
        result_of_outcome ((asks.granted (same.symm.trans found)).trans (done _))]
    | error complaints =>
      obtain ⟨failure, events, failed⟩ := asks.refused complaints
      rw [result_of_outcome (failed found), result_of_outcome (failed (same.symm.trans found))]
  · obtain ⟨answer, events, done⟩ := follows.independent useless
    rw [result_of_outcome (done session), result_of_outcome (done other)]

/-- Work that asks for settings fails where there are none. -/
theorem fails (consults : Consults own work) {cache : Cache} (asks : work.looksUp cache = true)
    {session : Session} {complaints : List Complaint}
    (missing : cache.inForce session = .error complaints) :
    ∃ failure, work.result session = .error failure := by
  obtain independent | loads := consults.independent_or_loads
  · rw [independent.not_looksUp] at asks
    cases asks
  · by_cases same : cache = own
    · subst same
      obtain ⟨_, _, _, found, _⟩ | ⟨_, failure, _, _, failed⟩ := loads session
      · rw [missing] at found
        cases found
      · exact ⟨failure, result_of_outcome failed⟩
    · rw [loads.not_looksUp same] at asks
      cases asks

end Consults

end Work

end Recurrence
