import Recurrence.Journal.Setup
import Recurrence.Problem.Construction
import Recurrence.Rule.History
import Recurrence.Session.Boundary
import Recurrence.Session.Occurrences
import Recurrence.Proofs.Rule.RoundTrip
import Recurrence.Proofs.Outcome
import Recurrence.Proofs.Rule.Settling
import Recurrence.Proofs.Run.Ending
import Recurrence.Proofs.Schedule.Soundness
import Recurrence.Proofs.Series.Binding
import Recurrence.Proofs.Series.Candidates
import Recurrence.Proofs.Series.Clock
import Recurrence.Proofs.Series.Stride
import Recurrence.Proofs.Series.Range
import Recurrence.Proofs.Series.Soundness
import Recurrence.Proofs.Series.YearTable
import Recurrence.Proofs.Series.Completeness
import Recurrence.Proofs.Series.Occurrences
import Recurrence.Proofs.Session.Expansion
import Recurrence.Proofs.Calendar.IsoReading
import Recurrence.Proofs.Run.Agreement
import Recurrence.Proofs.Schedule.Bare
import Recurrence.Proofs.Session.StartText
import Recurrence.Proofs.Rule.ChoiceText
import Recurrence.Proofs.Rule.LooseNames
import Recurrence.Proofs.Rule.Widths
import Recurrence.Proofs.Rule.Growth
import Recurrence.Proofs.Session.Reading
import Recurrence.Proofs.Session.Combining
import Recurrence.Proofs.Calendar.MonthDays
import Recurrence.Proofs.Run.Ordered
import Recurrence.Proofs.Schedule.Parts
import Recurrence.Proofs.Schedule.Weekdays
import Recurrence.Proofs.Session.Admission
import Recurrence.Proofs.Session.Beginning
import Recurrence.Proofs.Session.WeekdayUnion
import Recurrence.Proofs.Session.Windows
import Recurrence.Proofs.Rule.Layers
import Recurrence.Proofs.Session.Exchange
import Recurrence.Proofs.Session.Progression
import Recurrence.Proofs.Session.Reordering
import Recurrence.Proofs.Session.Cutting
import Recurrence.Proofs.Rule.Rewording
import Recurrence.Proofs.Session.Verdict
import Recurrence.Proofs.Calendar.TimestampExchange
import Recurrence.Proofs.Session.EndAgainstStart
import Recurrence.Proofs.Session.Answering
import Recurrence.Proofs.Session.Limiting
import Recurrence.Proofs.Rule.Identification
import Recurrence.Proofs.Rule.Building
import Recurrence.Proofs.Rule.Spelling
import Recurrence.Proofs.Session.Caches
import Recurrence.Proofs.Session.Consulting
import Recurrence.Proofs.Session.Operations
import Recurrence.Proofs.Session.Snapshot
import Recurrence.Proofs.Schedule.Reachability
import Recurrence.Proofs.Rule.Drafts
import Recurrence.Proofs.Rule.NormalForm
import Recurrence.Proofs.Session.Creation
import Recurrence.Proofs.Session.RuleHistory
