import Daybook.Edit
import Daybook.Files.Tree
import Daybook.Main
import Daybook.Proofs.Digits
import Daybook.Proofs.Tokens
import Daybook.Proofs.CanonicalTokens
import Daybook.Proofs.LineGrammar
import Daybook.Proofs.DurationGrammar
import Daybook.Proofs.MarkedWords
import Daybook.Proofs.MarkedColumns
import Daybook.Proofs.MarkStream
import Daybook.Proofs.PrintedMarks
import Daybook.Proofs.Calendar
import Daybook.Proofs.CalendarWindows
import Daybook.Proofs.DayText
import Daybook.Proofs.Utf8RoundTrip
import Daybook.Proofs.JsonRoundTrip
import Daybook.Proofs.DayFiles
import Daybook.Proofs.SheetRuns
import Daybook.Proofs.StoreFile
import Daybook.Proofs.StoreView
import Daybook.Proofs.StoreRuns
import Daybook.Proofs.StoredKeys
import Daybook.Proofs.JournalRuns
import Daybook.Proofs.SessionRuns
import Daybook.Proofs.Framing
import Daybook.Proofs.DebounceLaw
import Daybook.Proofs.WaitingCycles
import Daybook.Proofs.SaveLaws
import Daybook.Proofs.DraftLaws
import Daybook.Proofs.TallyLaws
import Daybook.Proofs.SpanQueries
import Daybook.Proofs.Tidying
import Daybook.Proofs.TidiedMeaning
import Daybook.Proofs.DecimalHours
import Daybook.Proofs.LineAccounts
import Daybook.Proofs.LineEnds
import Daybook.Proofs.ShownProblems
import Daybook.Proofs.Breakdown
import Daybook.Proofs.Replies
import Daybook.Proofs.FlushOrder
import Daybook.Proofs.MachineRuns
import Daybook.Proofs.RecordableCategories
import Daybook.Proofs.WrittenDays
import Daybook.Proofs.ReadLoop
import Daybook.Proofs.ArrivingBytes
